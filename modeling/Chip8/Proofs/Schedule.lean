import Chip8.Proofs.Schedule.Pace
import Chip8.Schedule
import Mathlib.Data.List.Chain
import Mathlib.Tactic.Ring

/-! Requests to a schedule that come at least once a frame, a frame being a period of the timer
steps. However many instructions a second are asked for, up to a thousand million, no more of them
fall due within a frame than may be caught up on; so no work is dropped, and what is granted depends
only on the time that has passed. -/
namespace Chip8

/-- Requests in the order of time, the first at most `gap` after `start` and every other one at most
`gap` after the one before it. -/
structure Prompt (gap start : Nat) (times : List Nat) : Prop where
  first : ∀ t ∈ times.head?, t ≤ start+gap
  gaps : times.IsChain fun t u => t ≤ u ∧ u ≤ t+gap

namespace Pace

variable {p : Pace} {gap start latest total now : Nat} {times : List Nat}

/-- A request soon after the latest finds no more missed than a burst that lasts as long. -/
lemma Ran.missed_le_burst (h : p.Ran start latest total) (hp : 0 < p.period)
    (hgap : gap ≤ p.burst*p.period) (hnow : now ≤ max latest start+gap) :
    p.missed now ≤ p.burst := by
  refine Nat.le_of_not_lt fun hlt => ?_
  have hpassed := (lt_missed_iff hp).mp hlt
  have hlatest := h.latest_lt
  have hsteps := h.le_next
  rw [Nat.succ_mul] at hsteps
  omega

lemma Ran.backlogs_le_burst (h : p.Ran start latest total) (hp : 0 < p.period)
    (hgap : gap ≤ p.burst*p.period) (hfirst : ∀ t ∈ times.head?, t ≤ max latest start+gap)
    (hgaps : times.IsChain fun t u => t ≤ u ∧ u ≤ t+gap) : ∀ n ∈ p.backlogs times, n ≤ p.burst := by
  induction times generalizing p latest total with
  | nil => nofun
  | cons now times ih =>
    obtain ⟨hnext, hgaps⟩ := List.isChain_cons.mp hgaps
    have hlater : ∀ t ∈ times.head?, t ≤ max (max latest now) start+gap := by
      intro t ht
      have := (hnext t ht).2
      omega
    intro n hn
    rcases List.mem_cons.mp hn with rfl | hn
    · exact h.missed_le_burst hp hgap (hfirst now rfl)
    · exact ih (h.grant hp now) hp hgap hlater hgaps n hn

lemma foldl_max_of_isChain (h : (latest :: times).IsChain (· ≤ ·)) :
    times.foldl max latest = times.getLastD latest := by
  induction times generalizing latest with
  | nil => rfl
  | cons now times ih =>
    obtain ⟨hle, h⟩ := List.isChain_cons_cons.mp h
    rw [List.foldl_cons, Nat.max_eq_right hle, List.getLastD_cons, ih h]

lemma latest_of_prompt (h : Prompt gap start times) :
    times.foldl max 0-start = times.getLastD start-start := by
  have hchain : (0 :: times).IsChain (· ≤ ·) :=
    List.isChain_cons.mpr ⟨fun _ _ => Nat.zero_le _, h.gaps.imp fun _ _ hgap => hgap.1⟩
  rw [foldl_max_of_isChain hchain]
  cases times with
  | nil => rw [List.getLastD_nil, List.getLastD_nil, Nat.zero_sub, Nat.sub_self]
  | cons now times => rw [List.getLastD_cons, List.getLastD_cons]

/-- Prompt requests to a pace whose burst lasts as long as the gaps are granted a step for every
period. -/
theorem total_of_prompt (hp : 0 < p.period) (h : p.next = start+p.period)
    (hgap : gap ≤ p.burst*p.period) (hprompt : Prompt gap start times) :
    (p.grants times).sum = (times.getLastD start-start)/p.period := by
  have hfirst : ∀ t ∈ times.head?, t ≤ max 0 start+gap := by
    rw [Nat.zero_max]
    exact hprompt.first
  have hb := (ran_of_fresh hp h).backlogs_le_burst hp hgap hfirst hprompt.gaps
  rw [(total_of_backlogs hp h hb).1, latest_of_prompt hprompt]

end Pace

namespace Schedule

variable {ips : UInt32}

lemma instruction_period_pos (h : ips.toNat ≤ 1000000000) (now : Nat) :
    0 < (new ips now).instructions.period :=
  Nat.div_pos (Nat.max_le.mpr ⟨h, by decide⟩)
    (Nat.lt_of_lt_of_le Nat.one_pos (Nat.le_max_right _ _))

lemma timer_period_pos (ips : UInt32) (now : Nat) : 0 < (new ips now).timerSteps.period := by
  change 0 < 1000000000/60
  decide

/-- The instructions that may be caught up on last at least a frame, although the instructions of a
frame and their period are both rounded down. -/
theorem frame_le_burst (h : ips.toNat ≤ 1000000000) (now : Nat) :
    1000000000/60 ≤ (new ips now).instructions.burst*(new ips now).instructions.period := by
  let rate := max ips.toNat 1
  let perFrame := ips.toNat/60+1
  let period := 1000000000/rate
  have hroom : 1 ≤ perFrame*2 := by omega
  have hburst : (new ips now).instructions.burst = perFrame*2 := Nat.max_eq_left hroom
  have hperiod : (new ips now).instructions.period = period := rfl
  have hpos : 1 ≤ period := instruction_period_pos h now
  have hrate : rate ≤ 60*perFrame := by omega
  -- the rounding of the period costs at most a factor of two, as it is a nanosecond or more
  have hsecond : 1000000000 ≤ 60*(perFrame*2*period) :=
    calc 1000000000 ≤ rate*(period+1) := Nat.le_of_lt (Nat.lt_mul_div_succ _ (by omega))
      _ ≤ 60*perFrame*(2*period) := Nat.mul_le_mul hrate (by omega)
      _ = 60*(perFrame*2*period) := by ring
  rw [hburst, hperiod]
  exact Nat.div_le_of_le_mul hsecond

/-- Requests at least once a frame lose no work, whatever the rate: they are granted an instruction
for every instruction period and a timer step for every frame since the start. So they are granted
no more and no less than any other requests at least once a frame that end at the same time. -/
theorem granted_of_prompt (h : ips.toNat ≤ 1000000000) {start : Nat} {times : List Nat}
    (hprompt : Prompt (1000000000/60) start times) :
    let s := new ips start
    let elapsed := times.getLastD start-start
    (s.instructions.grants times).sum = elapsed/(1000000000/max ips.toNat 1) ∧
    (s.timerSteps.grants times).sum = elapsed/(1000000000/60) ∧
    ∀ others, Prompt (1000000000/60) start others →
      others.getLastD start = times.getLastD start →
        (s.instructions.grants others).sum = (s.instructions.grants times).sum ∧
          (s.timerSteps.grants others).sum = (s.timerSteps.grants times).sum := by
  intro s elapsed
  have hinstructions : ∀ {times}, Prompt (1000000000/60) start times →
      (s.instructions.grants times).sum =
        (times.getLastD start-start)/(1000000000/max ips.toNat 1) :=
    Pace.total_of_prompt (instruction_period_pos h start) rfl (frame_le_burst h start)
  have hframe : 1000000000/60 ≤ s.timerSteps.burst*s.timerSteps.period := by
    change 1000000000/60 ≤ 4*(1000000000/60)
    decide
  have htimer : ∀ {times}, Prompt (1000000000/60) start times →
      (s.timerSteps.grants times).sum = (times.getLastD start-start)/(1000000000/60) :=
    Pace.total_of_prompt (timer_period_pos ips start) rfl hframe
  refine ⟨hinstructions hprompt, htimer hprompt, fun others hothers hlast => ?_⟩
  rw [hinstructions hprompt, htimer hprompt, hinstructions hothers, htimer hothers, hlast]
  exact ⟨rfl, rfl⟩

/-- At a rate where a burst is hardly longer than a frame: an instruction every nanosecond. -/
theorem granted_of_prompt_every_nanosecond :
    let s := new 500000001 0
    let times := [16666666,16666666,33333332]
    let others := [5,16666666,20000000,33333332]
    (500000001 : UInt32).toNat ≤ 1000000000 ∧ Prompt (1000000000/60) 0 times ∧
      Prompt (1000000000/60) 0 others ∧ (s.instructions.grants times).sum = 33333332 ∧
      (s.timerSteps.grants times).sum = 2 ∧
      (s.instructions.grants others).sum = (s.instructions.grants times).sum ∧
      (s.timerSteps.grants others).sum = (s.timerSteps.grants times).sum := by
  have h : (500000001 : UInt32).toNat ≤ 1000000000 := by decide
  have hprompt : Prompt (1000000000/60) 0 [16666666,16666666,33333332] :=
    ⟨by decide, by decide⟩
  have hothers : Prompt (1000000000/60) 0 [5,16666666,20000000,33333332] :=
    ⟨by decide, by decide⟩
  obtain ⟨hinstructions, htimer, hsame⟩ := granted_of_prompt h hprompt
  exact ⟨h, hprompt, hothers, hinstructions, htimer, hsame _ hothers rfl⟩

/-! ### Asking both paces -/

/-- A schedule after some requests for instructions and some for timer steps. Its two paces know
nothing of each other, so it does not matter how these requests follow one another. -/
def after (s : Schedule) (times timerTimes : List Nat) : Schedule :=
  ⟨s.instructions.after times, s.timerSteps.after timerTimes⟩

variable {s : Schedule} {now t : Nat}

lemma period_pos_after (h : ips.toNat ≤ 1000000000) (start : Nat) (times timerTimes : List Nat) :
    0 < ((new ips start).after times timerTimes).instructions.period ∧
      0 < ((new ips start).after times timerTimes).timerSteps.period := by
  simp only [after, Pace.period_after]
  exact ⟨instruction_period_pos h start, timer_period_pos ips start⟩

/-- Right after a request to both paces there is something to wait for. -/
lemma wait_pos (hi : 0 < s.instructions.period) (ht : 0 < s.timerSteps.period) (now : Nat) :
    0 < (s.after [now] [now]).wait now := by
  have hinstructions : now < (s.after [now] [now]).instructions.next := Pace.lt_next_grant hi now
  have htimer : now < (s.after [now] [now]).timerSteps.next := Pace.lt_next_grant ht now
  simp only [wait, Pace.wait]
  omega

lemma lt_next_of_lt_wait (h : 0 < s.wait now) (ht : t < now+s.wait now) :
    t < s.instructions.next ∧ t < s.timerSteps.next := by
  simp only [wait, Pace.wait] at h ht
  omega

lemma next_le_of_wait (h : 0 < s.wait now) :
    s.instructions.next ≤ now+s.wait now ∨ s.timerSteps.next ≤ now+s.wait now := by
  simp only [wait, Pace.wait] at h ⊢
  omega

end Schedule
end Chip8
