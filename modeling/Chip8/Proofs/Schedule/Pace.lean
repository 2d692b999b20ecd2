import Chip8.Schedule.Pace
import Mathlib.Algebra.Ring.Nat

/-! What a pace grants over a history of requests, in whatever order their times come. A request is
granted a step for every deadline it finds missed, up to the burst. So over any history there is
never more than a step for every period since the start, and there are exactly as many as long as no
request finds more than a burst missed. -/
namespace Chip8

namespace Pace

/-- How many deadlines have passed at `now`. -/
def missed (p : Pace) (now : Nat) : Nat :=
  if p.next ≤ now then (now-p.next)/p.period+1 else 0

variable {p : Pace} {now : Nat}

/-- Deadlines lie a period apart. -/
theorem lt_missed_iff (hp : 0 < p.period) {k : Nat} :
    k < p.missed now ↔ p.next+k*p.period ≤ now := by
  by_cases h : p.next ≤ now
  · rw [missed, if_pos h, Nat.lt_succ_iff, Nat.le_div_iff_mul_le hp]
    omega
  · rw [missed, if_neg h]
    omega

/-! ### One request -/

/-- Counting deadlines one by one ends at their number if there is room for it. -/
lemma passed_of_count {period room steps next k : Nat}
    (h : ∀ j, j < k ↔ next+j*period ≤ now) (hk : k ≤ room) :
    passed period now room steps next = (steps+k,next+k*period) := by
  -- `k` bounds the recursion: `room` may be larger, and is not used up
  induction k generalizing room steps next with
  | zero =>
    have hnext : ¬ next ≤ now := by simpa using h 0
    cases room <;> simp [passed, hnext]
  | succ k ih =>
    obtain ⟨room, rfl⟩ : ∃ r, room = r+1 := ⟨room-1, by omega⟩
    have hnext : next ≤ now := by simpa using h 0
    have hlater : ∀ j, j < k ↔ next+period+j*period ≤ now := by
      intro j
      have := h (j+1)
      rw [Nat.succ_mul] at this
      omega
    rw [passed, if_pos hnext, ih hlater (by omega), Nat.succ_mul]
    congr 1 <;> omega

/-- With one more deadline passed than there is room for, counting starts over from now. -/
lemma passed_of_full {period room steps next : Nat} (h : next+room*period ≤ now) :
    passed period now room steps next = (steps+room,now+period) := by
  induction room generalizing steps next with
  | zero =>
    have hnext : next ≤ now := by omega
    rw [passed, if_pos hnext]
    rfl
  | succ room ih =>
    rw [Nat.succ_mul] at h
    have hnext : next ≤ now := by omega
    rw [passed, if_pos hnext, ih (by omega)]
    congr 1
    omega

theorem grant_of_lt (h : now < p.next) : p.grant now = (0,p) := by
  have hcount : ∀ j, j < 0 ↔ p.next+j*p.period ≤ now := by intro j; omega
  rw [grant, passed_of_count hcount (Nat.zero_le _)]
  simp

theorem grant_of_missed_le (hp : 0 < p.period) (h : p.missed now ≤ p.burst) :
    p.grant now = (p.missed now,{ p with next := p.next+p.missed now*p.period }) := by
  rw [grant, passed_of_count (fun _ => lt_missed_iff hp) h, Nat.zero_add]

theorem grant_of_burst_lt (hp : 0 < p.period) (h : p.burst < p.missed now) :
    p.grant now = (p.burst,{ p with next := now+p.period }) := by
  rw [grant, passed_of_full ((lt_missed_iff hp).mp h), Nat.zero_add]

/-- Without a period no deadline is ever left behind: the burst is used up and the next deadline is
now. -/
theorem grant_of_no_period (hp : p.period = 0) (h : p.next ≤ now) :
    p.grant now = (p.burst,{ p with next := now }) := by
  have hfull : p.next+p.burst*p.period ≤ now := by rwa [hp, Nat.mul_zero, Nat.add_zero]
  rw [grant, passed_of_full hfull, Nat.zero_add, hp, Nat.add_zero]

lemma missed_of_le (h : p.next ≤ now) : p.missed now = (now-p.next)/p.period+1 := if_pos h

lemma grant_cases (hp : 0 < p.period) (now : Nat) :
    (p.missed now ≤ p.burst ∧
      p.grant now = (p.missed now,{ p with next := p.next+p.missed now*p.period })) ∨
    (p.burst < p.missed now ∧ p.grant now = (p.burst,{ p with next := now+p.period })) := by
  rcases Nat.lt_or_ge p.burst (p.missed now) with h | h
  · exact .inr ⟨h, grant_of_burst_lt hp h⟩
  · exact .inl ⟨h, grant_of_missed_le hp h⟩

@[simp] lemma period_grant (p : Pace) (now : Nat) : (p.grant now).2.period = p.period := rfl

lemma grant_le_burst (hp : 0 < p.period) (now : Nat) : (p.grant now).1 ≤ p.burst := by
  rcases grant_cases hp now with ⟨h, hgrant⟩ | ⟨-, hgrant⟩
  · rwa [hgrant]
  · exact Nat.le_of_eq (congrArg Prod.fst hgrant)

theorem grant_pos (hp : 0 < p.period) (h : p.next ≤ now) : 0 < (p.grant now).1 := by
  rcases grant_cases hp now with ⟨-, hgrant⟩ | ⟨-, hgrant⟩
  · rw [hgrant, lt_missed_iff hp]
    omega
  · rw [hgrant]
    exact p.burst_pos

theorem lt_next_grant (hp : 0 < p.period) (now : Nat) : now < (p.grant now).2.next := by
  rcases grant_cases hp now with ⟨-, hgrant⟩ | ⟨-, hgrant⟩
  · rw [hgrant]
    refine Nat.lt_of_not_le fun hle => ?_
    exact Nat.lt_irrefl _ ((lt_missed_iff hp).mpr hle)
  · rw [hgrant]
    exact Nat.lt_add_of_pos_right hp

/-- Every granted step moves the next deadline on by at least a period. -/
lemma next_add_le_next_grant (hp : 0 < p.period) (now : Nat) :
    p.next+(p.grant now).1*p.period ≤ (p.grant now).2.next := by
  rcases grant_cases hp now with ⟨-, hgrant⟩ | ⟨h, hgrant⟩
  · exact Nat.le_of_eq (by rw [hgrant])
  · rw [hgrant]
    exact Nat.le_trans ((lt_missed_iff hp).mp h) (Nat.le_add_right _ _)

/-- A request leaves the next deadline where it is or brings it to at most a period from now. -/
lemma next_grant_le (hp : 0 < p.period) (now : Nat) :
    (p.grant now).2.next ≤ max p.next (now+p.period) := by
  rcases grant_cases hp now with ⟨-, hgrant⟩ | ⟨-, hgrant⟩
  · rw [hgrant]
    dsimp only
    -- nothing missed leaves the deadline; else the last one missed is at most `now`
    cases hk : p.missed now with
    | zero => omega
    | succ k =>
      have hlt : k < p.missed now := by omega
      have hlast := (lt_missed_iff hp).mp hlt
      rw [Nat.succ_mul]
      omega
  · rw [hgrant]
    exact Nat.le_max_right _ _

/-! ### A history of requests -/

def after (p : Pace) (times : List Nat) : Pace := times.foldl (fun p now => (p.grant now).2) p

/-- What some requests are granted, one by one. -/
def grants (p : Pace) : List Nat → List Nat
  | [] => []
  | now :: times => (p.grant now).1 :: (p.grant now).2.grants times

/-- What some requests find missed, one by one. -/
def backlogs (p : Pace) : List Nat → List Nat
  | [] => []
  | now :: times => p.missed now :: (p.grant now).2.backlogs times

/-- A pace that was started at `start` and has granted `total` steps to requests up to the time
`latest`: the next deadline is still to come, but within a period, and no step came early. -/
structure Ran (p : Pace) (start latest total : Nat) : Prop where
  latest_lt : latest < p.next
  next_le : p.next ≤ max latest start+p.period
  le_next : start+(total+1)*p.period ≤ p.next

variable {start latest total : Nat}

lemma ran_of_fresh (hp : 0 < p.period) (h : p.next = start+p.period) : p.Ran start 0 0 := by
  refine ⟨?_, ?_, ?_⟩ <;> omega

namespace Ran

lemma grant (h : p.Ran start latest total) (hp : 0 < p.period) (now : Nat) :
    (p.grant now).2.Ran start (max latest now) (total+(p.grant now).1) := by
  have hlt := lt_next_grant hp now
  have hmoved := next_add_le_next_grant hp now
  have hle := next_grant_le hp now
  have hnext := h.next_le
  have hsteps := h.le_next
  have hlatest := h.latest_lt
  refine ⟨?_, ?_, ?_⟩
  · omega
  · rw [period_grant]
    omega
  · rw [period_grant, Nat.add_right_comm, Nat.add_mul _ (p.grant now).1]
    omega

theorem after (h : p.Ran start latest total) (hp : 0 < p.period) (times : List Nat) :
    (p.after times).Ran start (times.foldl max latest) (total+(p.grants times).sum) := by
  induction times generalizing p latest total with
  | nil => exact h
  | cons now times ih =>
    have := ih (h.grant hp now) hp
    rwa [Nat.add_assoc, ← List.sum_cons] at this

theorem total_le (h : p.Ran start latest total) (hp : 0 < p.period) :
    total ≤ (latest-start)/p.period := by
  have hnext := h.next_le
  have hsteps := h.le_next
  rw [Nat.succ_mul] at hsteps
  rw [Nat.le_div_iff_mul_le hp]
  omega

theorem total_eq (h : p.Ran start latest total) (hp : 0 < p.period)
    (hnext : p.next = start+(total+1)*p.period) : total = (latest-start)/p.period := by
  refine Nat.le_antisymm (h.total_le hp) ?_
  have hlatest := h.latest_lt
  have hpos : 0 < (total+1)*p.period := Nat.mul_pos (Nat.succ_pos _) hp
  rw [← Nat.lt_succ_iff, Nat.div_lt_iff_lt_mul hp]
  change latest-start < (total+1)*p.period
  omega

end Ran

@[simp] lemma period_after (p : Pace) (times : List Nat) : (p.after times).period = p.period := by
  induction times generalizing p with
  | nil => rfl
  | cons now times ih => exact ih _

lemma next_le_next_after (hp : 0 < p.period) (times : List Nat) :
    p.next ≤ (p.after times).next := by
  induction times generalizing p with
  | nil => exact Nat.le_refl _
  | cons now times ih =>
    have hmoved := next_add_le_next_grant hp now
    exact Nat.le_trans (Nat.le_of_add_right_le hmoved) (ih (p := (p.grant now).2) hp)

/-- The next deadline is later than any request so far. -/
lemma lt_next_after (hp : 0 < p.period) {times : List Nat} (h : now ∈ times) :
    now < (p.after times).next := by
  induction times generalizing p with
  | nil => cases h
  | cons first times ih =>
    rcases List.mem_cons.mp h with rfl | h
    · exact Nat.lt_of_lt_of_le (lt_next_grant hp now)
        (next_le_next_after (p := (p.grant now).2) hp times)
    · exact ih (p := (p.grant first).2) hp h

lemma grants_le_burst (hp : 0 < p.period) (times : List Nat) :
    ∀ n ∈ p.grants times, n ≤ p.burst := by
  induction times generalizing p with
  | nil => nofun
  | cons now times ih =>
    intro n hn
    rcases List.mem_cons.mp hn with rfl | hn
    · exact grant_le_burst hp now
    · exact ih (p := (p.grant now).2) hp n hn

/-- As long as nothing is dropped, deadlines are counted in whole periods from the start. -/
lemma next_after (hp : 0 < p.period) (h : p.next = start+(total+1)*p.period) {times : List Nat}
    (hb : ∀ n ∈ p.backlogs times, n ≤ p.burst) :
    (p.after times).next = start+(total+(p.grants times).sum+1)*p.period := by
  -- `total` is what was granted before `times`, so that a request can be added to it
  induction times generalizing p total with
  | nil => exact h
  | cons now times ih =>
    have hgrant := grant_of_missed_le hp (hb _ (List.mem_cons_self ..))
    have hmoved : (p.grant now).2.next = start+(total+(p.grant now).1+1)*p.period := by
      rw [hgrant]
      dsimp only
      rw [h, Nat.add_right_comm total, Nat.add_mul (total+1), Nat.add_assoc]
    have := ih (p := (p.grant now).2) hp hmoved fun n hn => hb n (List.mem_cons_of_mem _ hn)
    rwa [Nat.add_assoc total, ← List.sum_cons] at this

/-- Requests that never find more than a burst missed are granted a step for every period. -/
theorem total_of_backlogs (hp : 0 < p.period) (h : p.next = start+p.period) {times : List Nat}
    (hb : ∀ n ∈ p.backlogs times, n ≤ p.burst) :
    (p.grants times).sum = (times.foldl max 0-start)/p.period ∧
      (p.after times).next = start+((p.grants times).sum+1)*p.period := by
  have hran := (ran_of_fresh hp h).after hp times
  have hstart : p.next = start+(0+1)*p.period := by omega
  have hnext := next_after hp hstart hb
  rw [Nat.zero_add] at hran hnext
  rw [← p.period_after times] at hp
  refine ⟨?_, hnext⟩
  rw [← p.period_after times] at hnext ⊢
  exact hran.total_eq hp hnext

/-- The rate holds however a pace is asked, also when time seems to go back. A request is never
granted more than a burst; all of them together are granted at most a step for every period up to
the latest of them; and after them the next deadline is later than any. If none of them found more
than a burst missed, they were granted exactly a step for every period, and the next deadline is a
whole number of periods from the start. -/
theorem rate_holds {hz : UInt32} {start burst : Nat} (hburst : 1 ≤ burst)
    (hp : 0 < (new hz start).period) (times : List Nat) :
    let p := (new hz start).withBurst burst
    let total := (p.grants times).sum
    let latest := times.foldl max 0
    (∀ n ∈ p.grants times, n ≤ burst) ∧
    total ≤ (latest-start)/p.period ∧
    (∀ t ∈ times, t < (p.after times).next) ∧
    ((∀ n ∈ p.backlogs times, n ≤ burst) →
      total = (latest-start)/p.period ∧ (p.after times).next = start+(total+1)*p.period) := by
  intro p total latest
  have hpos : 0 < p.period := hp
  have hmax : p.burst = burst := Nat.max_eq_left hburst
  have hfresh : p.next = start+p.period := rfl
  have hran := (ran_of_fresh hpos hfresh).after hpos times
  rw [Nat.zero_add] at hran
  refine ⟨?_, ?_, fun t ht => lt_next_after hpos ht, fun hb => ?_⟩
  · rw [← hmax]
    exact grants_le_burst hpos times
  · have hle := hran.total_le (by rwa [period_after])
    rwa [period_after] at hle
  · rw [← hmax] at hb
    exact total_of_backlogs hpos hfresh hb

/-- Three deadlines at once, all that a burst of three allows, and then a time that goes back. -/
theorem rate_holds_full_burst :
    let p := (new 100 0).withBurst 3
    let times := [30000000,5,45000000]
    1 ≤ 3 ∧ 0 < (new 100 0).period ∧ (∀ n ∈ p.backlogs times, n ≤ 3) ∧
      (p.grants times).sum = 4 ∧ (p.after times).next = 0+((p.grants times).sum+1)*10000000 ∧
      45000000 < (p.after times).next := by
  have hburst : 1 ≤ 3 := by decide
  have hp : 0 < (new 100 0).period := by decide
  have hb : ∀ n ∈ ((new 100 0).withBurst 3).backlogs [30000000,5,45000000], n ≤ 3 := by decide
  obtain ⟨-, -, hlater, hexact⟩ := rate_holds hburst hp [30000000,5,45000000]
  obtain ⟨htotal, hnext⟩ := hexact hb
  exact ⟨hburst, hp, hb, htotal, hnext, hlater 45000000 (by decide)⟩

/-- After a second without a request the backlog is dropped. -/
example : ((new 100 0).withBurst 3).grants [1000000000,1000000000,1010000000] = [3,0,1] := by
  decide

end Pace
end Chip8
