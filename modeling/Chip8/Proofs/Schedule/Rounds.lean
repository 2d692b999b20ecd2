import Chip8.Proofs.Schedule.Pace

/-! A request taken round by round. One deadline after the other is counted until one lies ahead or
a burst is used up. This ends within a burst of rounds for every pace, also for one without a
period, whose deadline never moves ahead by itself; and what it comes to has a closed form. -/
namespace Chip8

namespace Pace

/-- How far counting has come: the steps so far and the next deadline. -/
structure Tally where
  steps : Nat
  next : Nat

/-- From one tally on, counting what has passed at `now` takes this many rounds and ends with
another tally. -/
inductive Rounds (p : Pace) (now : Nat) : Nat → Tally → Tally → Prop
  /-- The next deadline lies ahead. -/
  | ahead {steps next : Nat} (h : now < next) : Rounds p now 0 ⟨steps,next⟩ ⟨steps,next⟩
  /-- This round uses up the burst. If a deadline has still passed, counting starts over from
  now. -/
  | full {steps next : Nat} (h : next ≤ now) (hfull : steps+1 = p.burst) :
      Rounds p now 1 ⟨steps,next⟩
        ⟨steps+1,if next+p.period ≤ now then now+p.period else next+p.period⟩
  | more {rounds steps next : Nat} {last : Tally} (h : next ≤ now) (hroom : steps+1 ≠ p.burst)
      (later : Rounds p now rounds ⟨steps+1,next+p.period⟩ last) :
      Rounds p now (rounds+1) ⟨steps,next⟩ last

variable {p : Pace} {now : Nat}

/-- No two ways of counting lead on from the same tally. -/
lemma Rounds.unique {rounds rounds' : Nat} {first last last' : Tally}
    (h : p.Rounds now rounds first last) (h' : p.Rounds now rounds' first last') :
    rounds = rounds' ∧ last = last' := by
  induction h generalizing rounds' with
  | ahead hahead =>
    cases h' with
    | ahead _ => exact ⟨rfl, rfl⟩
    | full hpassed _ | more hpassed _ _ => exact absurd hpassed (Nat.not_le_of_lt hahead)
  | full hpassed hfull =>
    cases h' with
    | ahead hahead => exact absurd hpassed (Nat.not_le_of_lt hahead)
    | full _ _ => exact ⟨rfl, rfl⟩
    | more _ hroom _ => exact absurd hfull hroom
  | more hpassed hroom later ih =>
    cases h' with
    | ahead hahead => exact absurd hpassed (Nat.not_le_of_lt hahead)
    | full _ hfull => exact absurd hfull hroom
    | more _ _ later' =>
      obtain ⟨hrounds, hlast⟩ := ih later'
      exact ⟨congrArg (·+1) hrounds, hlast⟩

/-- Every round counts one step, so the room that is left bounds the rounds that are left. -/
lemma rounds_passed (now next : Nat) {room steps : Nat} (h : steps+room = p.burst)
    (hroom : 0 < room) :
    ∃ rounds ≤ room, (passed p.period now room steps next).1 = steps+rounds ∧
      p.Rounds now rounds ⟨steps,next⟩
        ⟨steps+rounds,(passed p.period now room steps next).2⟩ := by
  induction room generalizing steps next with
  | zero => exact absurd hroom (Nat.lt_irrefl 0)
  | succ room ih =>
    by_cases hpassed : next ≤ now
    · simp only [passed, hpassed, if_true]
      cases room with
      | zero => exact ⟨1, Nat.le_refl 1, rfl, .full hpassed h⟩
      | succ room =>
        have hleft : steps+1+(room+1) = p.burst := by omega
        obtain ⟨rounds, hle, hsteps, hrounds⟩ := ih (next+p.period) hleft (Nat.succ_pos room)
        have hcount : steps+1+rounds = steps+(rounds+1) := by omega
        rw [hcount] at hsteps hrounds
        exact ⟨rounds+1, Nat.succ_le_succ hle, hsteps, .more hpassed (by omega) hrounds⟩
    · simp only [passed, hpassed, if_false]
      exact ⟨0, Nat.zero_le _, rfl, .ahead (Nat.lt_of_not_le hpassed)⟩

/-- A request is what counting round by round comes to. -/
lemma rounds_grant (p : Pace) (now : Nat) :
    (p.grant now).1 ≤ p.burst ∧
      p.Rounds now (p.grant now).1 ⟨0,p.next⟩ ⟨(p.grant now).1,(p.grant now).2.next⟩ := by
  obtain ⟨rounds, hle, hsteps, hrounds⟩ :=
    rounds_passed now p.next (Nat.zero_add p.burst) p.burst_pos
  rw [Nat.zero_add] at hsteps hrounds
  have hgranted : (p.grant now).1 = rounds := hsteps
  rw [hgranted]
  exact ⟨hle, hrounds⟩

/-- What a request comes to, for every pace and every time. Counting ends, after one round for every
step granted and so after at most a burst of rounds, in the one way there is. Before the next
deadline nothing is granted and nothing changes; after it, every deadline that has passed counts if
there are no more than a burst of them, and the next one is the first that has not passed; with more
of them a burst is granted and the next deadline is a period from now; and without a period it is a
burst and now in any case. The period and the burst stay, and no setting makes the burst less than
one. -/
theorem grant_closed_form (p : Pace) (now : Nat) :
    let granted := (p.grant now).1
    let after := (p.grant now).2
    let count := (now-p.next)/p.period+1
    (p.Rounds now granted ⟨0,p.next⟩ ⟨granted,after.next⟩ ∧ granted ≤ p.burst ∧
      ∀ rounds last, p.Rounds now rounds ⟨0,p.next⟩ last →
        rounds = granted ∧ last = ⟨granted,after.next⟩) ∧
    (now < p.next → granted = 0 ∧ after.next = p.next) ∧
    (p.next ≤ now → 0 < p.period → count ≤ p.burst →
      granted = count ∧ after.next = p.next+count*p.period) ∧
    (p.next ≤ now → 0 < p.period → p.burst < count →
      granted = p.burst ∧ after.next = now+p.period) ∧
    (p.next ≤ now → p.period = 0 → granted = p.burst ∧ after.next = now) ∧
    (after.period = p.period ∧ after.burst = p.burst) ∧
    ∀ steps, (p.withBurst steps).burst = max steps 1 ∧ 1 ≤ (p.withBurst steps).burst := by
  intro granted after count
  obtain ⟨hle, hrounds⟩ := p.rounds_grant now
  refine ⟨⟨hrounds, hle, fun rounds last h => h.unique hrounds⟩, fun h => ?_, fun h hp hcount => ?_,
    fun h hp hcount => ?_, fun h hp => ?_, ⟨rfl, rfl⟩,
    fun steps => ⟨rfl, (p.withBurst steps).burst_pos⟩⟩
  · have hgrant : p.grant now = (0,p) := grant_of_lt h
    exact ⟨congrArg Prod.fst hgrant, congrArg (fun g => g.2.next) hgrant⟩
  · have hmissed : p.missed now = count := missed_of_le h
    rw [← hmissed] at hcount ⊢
    have hgrant := grant_of_missed_le hp hcount
    exact ⟨congrArg Prod.fst hgrant, congrArg (fun g => g.2.next) hgrant⟩
  · have hmissed : p.missed now = count := missed_of_le h
    rw [← hmissed] at hcount
    have hgrant := grant_of_burst_lt hp hcount
    exact ⟨congrArg Prod.fst hgrant, congrArg (fun g => g.2.next) hgrant⟩
  · have hgrant := grant_of_no_period hp h
    exact ⟨congrArg Prod.fst hgrant, congrArg (fun g => g.2.next) hgrant⟩

/-- Three deadlines passed with a burst of three, then one more than that; and a pace too fast to
have a period. -/
theorem grant_closed_form_full_burst :
    let p := (new 100000000 0).withBurst 3
    let q := new 4000000000 7
    ((p.grant 39).1 = 3 ∧ (p.grant 39).2.next = 40) ∧
      ((p.grant 40).1 = 3 ∧ (p.grant 40).2.next = 50) ∧
      (q.grant 7).1 = 4 ∧ (q.grant 7).2.next = 7 ∧ q.Rounds 7 (q.grant 7).1 ⟨0,7⟩ ⟨4,7⟩ := by
  intro p q
  obtain ⟨-, -, hall, -⟩ := grant_closed_form p 39
  obtain ⟨-, -, -, hmore, -⟩ := grant_closed_form p 40
  obtain ⟨⟨hrounds, -⟩, -, -, -, hnone, -⟩ := grant_closed_form q 7
  have hnext : p.next = 10 ∧ p.period = 10 := ⟨by decide, by decide⟩
  have hcounted := hall (by decide) (by decide) (by decide)
  rw [hnext.1, hnext.2] at hcounted
  obtain ⟨hburst, hnow⟩ := hnone (by decide) (by decide)
  have hfour : (q.grant 7).1 = 4 := hburst
  rw [hnow, hfour] at hrounds
  refine ⟨hcounted, hmore (by decide) (by decide) (by decide), hfour, hnow, ?_⟩
  rw [hfour]
  exact hrounds

end Pace
end Chip8
