import Chip8.Proofs.Schedule.Pace

/-! Requests up to times a pace has been asked at before. They are granted nothing and leave no
trace, so that what is granted does not depend on how often a pace is asked. This rests on the
period. Above a thousand million steps a second there is none: a deadline that has passed stays at
the time of the request, and asking again at that time is granted a burst once more. -/
namespace Chip8

namespace Pace

variable {p : Pace} {now t u : Nat} {older : List Nat}

lemma period_new_pos_iff (hz : UInt32) (start : Nat) :
    0 < (new hz start).period ↔ hz.toNat ≤ 1000000000 := by
  have hrate : 0 < max hz.toNat 1 := Nat.lt_of_lt_of_le Nat.one_pos (Nat.le_max_right _ _)
  change 0 < 1000000000/max hz.toNat 1 ↔ _
  rw [Nat.div_pos_iff]
  omega

/-! ### Right after a request -/

lemma grant_again_of_lt (h : t ≤ now) (hnext : now < (p.grant now).2.next) :
    (p.grant now).2.grant t = (0,(p.grant now).2) :=
  grant_of_lt (Nat.lt_of_le_of_lt h hnext)

/-- Once a deadline has passed, a pace without a period has its next one right now. -/
lemma grant_again_of_no_period (hp : p.period = 0) (hnext : p.next ≤ now) :
    (p.grant now).2.grant t = (if now ≤ t then p.burst else 0,{ p with next := max now t }) := by
  rw [grant_of_no_period hp hnext]
  split
  case isTrue h =>
    rw [Nat.max_eq_right h]
    exact grant_of_no_period hp h
  case isFalse h =>
    rw [Nat.max_eq_left (Nat.le_of_not_le h)]
    exact grant_of_lt (Nat.lt_of_not_le h)

/-- Asking again up to the time of a request is granted nothing, or else a whole burst: if there is
no period, a deadline had passed, and no time has. -/
lemma grant_again (p : Pace) (h : t ≤ now) :
    (p.grant now).2.grant t =
      (if p.period = 0 ∧ p.next ≤ now ∧ t = now then p.burst else 0,(p.grant now).2) := by
  rcases Nat.eq_zero_or_pos p.period with hp | hp
  · rcases Nat.lt_or_ge now p.next with hnext | hnext
    · have hquiet : now < (p.grant now).2.next := by rwa [grant_of_lt hnext]
      rw [grant_again_of_lt h hquiet, if_neg (by omega)]
    · have hnow : now ≤ t ↔ p.period = 0 ∧ p.next ≤ now ∧ t = now := by omega
      rw [grant_again_of_no_period hp hnext, grant_of_no_period hp hnext, Nat.max_eq_left h]
      simp only [hnow]
  · rw [grant_again_of_lt h (lt_next_grant hp now), if_neg (by omega)]

lemma grant_again_eq_zero_iff (p : Pace) (h : t ≤ now) :
    (p.grant now).2.grant t = (0,(p.grant now).2) ↔ 0 < p.period ∨ now < p.next ∨ t < now := by
  have hpos := p.burst_pos
  rw [p.grant_again h, Prod.mk.injEq, and_iff_left rfl]
  split <;> omega

lemma grant_again_of_ne_zero (p : Pace) (h : t ≤ now)
    (hne : (p.grant now).2.grant t ≠ (0,(p.grant now).2)) :
    (p.grant now).2.grant t = (p.burst,(p.grant now).2) := by
  rw [p.grant_again h] at hne ⊢
  split at hne
  case isTrue hloud => rw [if_pos hloud]
  case isFalse => exact absurd rfl hne

/-! ### In a history of requests -/

@[simp] lemma burst_after (p : Pace) (times : List Nat) : (p.after times).burst = p.burst := by
  induction times generalizing p with
  | nil => rfl
  | cons now times ih => exact ih _

lemma after_append (p : Pace) (older newer : List Nat) :
    p.after (older ++ newer) = (p.after older).after newer :=
  List.foldl_append

lemma grants_append (p : Pace) (older newer : List Nat) :
    p.grants (older ++ newer) = p.grants older ++ (p.after older).grants newer := by
  induction older generalizing p with
  | nil => rfl
  | cons now older ih => exact congrArg (_ :: ·) (ih _)

/-- A request that is granted nothing and changes nothing might be left out. -/
lemma leave_out (h : (p.after older).grant t = (0,p.after older)) (newer : List Nat) :
    p.after (older ++ t :: newer) = p.after (older ++ newer) ∧
      (p.grants (older ++ t :: newer)).sum = (p.grants (older ++ newer)).sum := by
  constructor
  · rw [after_append, after_append]
    exact congrArg (fun g => g.2.after newer) h
  · rw [grants_append, grants_append, grants, h, List.sum_append, List.sum_append, List.sum_cons,
      Nat.zero_add]

/-- Asking again up to the time of a request is granted nothing, and might as well be left out, for
exactly the rates that have a period: up to a thousand million steps a second, whatever the start,
the burst and the requests before. With a higher rate it is granted a whole burst once more, every
time, if a deadline had passed and time stands still. -/
theorem grants_nothing_again_iff (hz : UInt32) (start steps : Nat) :
    let fresh := (new hz start).withBurst steps
    (∀ older now t, t ≤ now →
      let p := fresh.after older
      let q := (p.grant now).2
      (q.grant t = (0,q) ↔ hz.toNat ≤ 1000000000 ∨ now < p.next ∨ t < now) ∧
      (q.grant t ≠ (0,q) → q.grant t = (max steps 1,q))) ∧
    (hz.toNat ≤ 1000000000 ↔ ∀ older now t newer, now ∈ older → t ≤ now →
      fresh.after (older ++ t :: newer) = fresh.after (older ++ newer) ∧
        (fresh.grants (older ++ t :: newer)).sum = (fresh.grants (older ++ newer)).sum) := by
  intro fresh
  have hrate : hz.toNat ≤ 1000000000 ↔ 0 < fresh.period := (period_new_pos_iff hz start).symm
  refine ⟨fun older now t h => ?_, fun hhz older now t newer hnow h => ?_, fun hall => ?_⟩
  · intro p q
    have hburst : p.burst = max steps 1 := burst_after fresh older
    have hperiod : p.period = fresh.period := period_after fresh older
    rw [hrate, ← hperiod, ← hburst]
    exact ⟨p.grant_again_eq_zero_iff h, p.grant_again_of_ne_zero h⟩
  · have hlater := Nat.lt_of_le_of_lt h (lt_next_after (hrate.mp hhz) hnow)
    exact leave_out (grant_of_lt hlater) newer
  · -- without a period, two requests at the start are granted a burst each
    rw [hrate]
    refine Nat.pos_of_ne_zero fun hp => ?_
    have hpassed : fresh.next ≤ start := Nat.le_of_eq (congrArg (start+·) hp)
    have hagain := fresh.grant_again (Nat.le_refl start)
    rw [if_pos ⟨hp, hpassed, rfl⟩] at hagain
    have hsum : (fresh.grants [start,start]).sum = (fresh.grants [start]).sum :=
      (hall [start] start start [] (List.mem_singleton_self _) (Nat.le_refl _)).2
    have hpos := fresh.burst_pos
    simp only [grants, hagain, List.sum_cons, List.sum_nil] at hsum
    omega

/-- At the highest rate with a period nothing is granted again, after a request that dropped a
backlog too; at one more step a second it is a burst. -/
theorem grants_nothing_again_iff_at_limit :
    let p := ((new 1000000000 0).withBurst 3).after [2]
    let q := ((new 1000000001 0).withBurst 3).after [2]
    7 ≤ 7 ∧ p.missed 7 = 5 ∧ (p.grant 7).2.grant 7 = (0,(p.grant 7).2) ∧
      (q.grant 7).2.grant 7 = (3,(q.grant 7).2) := by
  intro p q
  have h : 7 ≤ 7 := Nat.le_refl 7
  obtain ⟨hp, -⟩ := (grants_nothing_again_iff 1000000000 0 3).1 [2] 7 7 h
  obtain ⟨hq, hburst⟩ := (grants_nothing_again_iff 1000000001 0 3).1 [2] 7 7 h
  exact ⟨h, by decide, hp.mpr (.inl (by decide)), hburst (mt hq.mp (by decide))⟩

/-- Two thousand million steps a second: two requests at the start are granted four steps each. -/
theorem granted_again_at_start :
    let p := new 2000000000 0
    let q := (p.grant 0).2
    p.grant 0 = (4,q) ∧ q.grant 0 = (4,q) ∧ q.grant 0 ≠ (0,q) := by
  decide

end Pace
end Chip8
