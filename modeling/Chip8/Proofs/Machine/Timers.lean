import Chip8.Proofs.Machine.Frame
import Chip8.Proofs.Machine.Run

/-! The two timers over whole runs. As long as no instruction sets a timer, both count the timer
steps of a run and nothing else, so that instructions may come in any number and at any place
between them. -/
namespace Chip8

/-- The instruction that an event executes, if it executes one. -/
def Event.executed? (e : Event) : Option Instruction :=
  match e.action with
  | .tick _ => e.before.instruction?
  | .pulse | .reset => none

/-- How many of some actions are timer steps. -/
def pulseCount (actions : List Action) : Nat := actions.countP fun a => a matches .pulse

lemma pulseCount_cons_pulse (actions : List Action) :
    pulseCount (.pulse :: actions) = pulseCount actions+1 := List.countP_cons_of_pos rfl

lemma pulseCount_cons_tick (held : Keypad) (actions : List Action) :
    pulseCount (.tick held :: actions) = pulseCount actions :=
  List.countP_cons_of_neg Bool.false_ne_true

namespace Machine

variable {m : Machine} {held : Keypad} {actions : List Action}

/-- A run without a reset, in which no instruction sets a timer. -/
def LeavesTimers (m : Machine) (actions : List Action) : Prop :=
  ∀ e ∈ m.log actions, e.action ≠ .reset ∧
    ∀ x, e.executed? ≠ some (.setDelay x) ∧ e.executed? ≠ some (.setSound x)

lemma LeavesTimers.later {a : Action} (h : m.LeavesTimers (a :: actions)) :
    (m.act a).LeavesTimers actions := fun e he => h e (List.mem_cons_of_mem _ he)

lemma LeavesTimers.first {later : List Action} (h : m.LeavesTimers (actions ++ later)) :
    m.LeavesTimers actions := fun e he => h e (by rw [log_append]; exact List.mem_append_left _ he)

lemma LeavesTimers.not_reset (h : m.LeavesTimers (.reset :: actions)) : False :=
  (h ⟨m, .reset⟩ (List.mem_cons_self ..)).1 rfl

/-- An instruction that does not set a timer leaves both alone. -/
lemma LeavesTimers.tick (h : m.LeavesTimers (.tick held :: actions)) :
    (m.step held).machine.delay = m.delay ∧ (m.step held).machine.sound = m.sound := by
  have hset := (h ⟨m, .tick held⟩ (List.mem_cons_self ..)).2
  have hwrites : ∀ i, m.instruction? = some i → Part.delay ∉ i.writes ∧ Part.sound ∉ i.writes := by
    intro i hi
    cases i with
    | setDelay x => exact absurd hi (hset x).1
    | setSound x => exact absurd hi (hset x).2
    | _ => simp [Instruction.writes]
  exact ⟨step_frame (p := .delay) held fun i hi => (hwrites i hi).1,
    step_frame (p := .sound) held fun i hi => (hwrites i hi).2⟩

/-! ### Counting down -/

lemma timers_acts (h : m.LeavesTimers actions) :
    (m.acts actions).delay.count.toNat = m.delay.count.toNat-pulseCount actions ∧
    (m.acts actions).sound.count.toNat = m.sound.count.toNat-pulseCount actions := by
  induction actions generalizing m with
  | nil => exact ⟨rfl, rfl⟩
  | cons a actions ih =>
    obtain ⟨hdelay, hsound⟩ := ih h.later
    rw [acts_cons, hdelay, hsound]
    cases a with
    | tick held =>
      obtain ⟨hd, hs⟩ := h.tick
      rw [pulseCount_cons_tick]
      simp only [act, hd, hs, and_self]
    | pulse =>
      rw [pulseCount_cons_pulse]
      simp only [act, pulse, Timer.toNat_step]
      omega
    | reset => exact h.not_reset.elim

/-- The timer steps that beep are the first ones, one fewer than the sound timer counts. -/
lemma beeps_handed (h : m.LeavesTimers actions) :
    (handed (m.log actions)).map Pulse.beep =
      (List.range (pulseCount actions)).map fun k => decide (k < m.sound.count.toNat-1) := by
  induction actions generalizing m with
  | nil => rfl
  | cons a actions ih =>
    cases a with
    | tick held =>
      rw [pulseCount_cons_tick, ← h.tick.2]
      exact ih h.later
    | pulse =>
      have hbeep : m.pulse.2.beep = decide (0 < m.sound.count.toNat-1) := by
        change decide (0 < m.sound.step.count) = _
        simp only [UInt8.lt_iff_toNat_lt, Timer.toNat_step]
        rfl
      have hlater := ih h.later
      rw [pulseCount_cons_pulse, List.range_succ_eq_map, List.map_cons, List.map_map]
      change m.pulse.2.beep :: (handed (m.pulse.1.log actions)).map Pulse.beep = _
      rw [hbeep]
      refine congrArg (_ :: ·) (hlater.trans (List.map_congr_left fun k _ => ?_))
      change decide (k < m.sound.step.count.toNat-1) = decide (k+1 < m.sound.count.toNat-1)
      rw [Timer.toNat_step]
      exact decide_eq_decide.mpr (by omega)
    | reset => exact h.not_reset.elim

lemma countP_range_lt (n bound : Nat) : (List.range n).countP (· < bound) = min n bound := by
  induction n with
  | zero => simp
  | succ n ih =>
    rw [List.range_succ, List.countP_append, ih, List.countP_singleton]
    split <;> simp_all <;> omega

lemma step_getDelay {x : Fin 16} (hi : m.instruction? = some (.getDelay x)) (held : Keypad) :
    (m.step held).machine.reg x = m.delay.count := by
  rw [step_of_some hi]
  simp [execute, reg, setReg, advance]

/-- The timers count timer steps and nothing else. After a run that leaves them to count, both are
lower by the number of its timer steps, but not below zero; of these the first ones beep, one fewer
than the sound timer counted, and no later one; and what an instruction reads of the delay timer is
its first value less the timer steps before that instruction. -/
theorem timers_count_pulses (h : m.LeavesTimers actions) :
    let n := pulseCount actions
    let delay := m.delay.count.toNat
    let sound := m.sound.count.toNat
    (m.acts actions).delay.count.toNat = delay-n ∧
    (m.acts actions).sound.count.toNat = sound-n ∧
    (handed (m.log actions)).map Pulse.beep =
      (List.range n).map (fun k => decide (k < sound-1)) ∧
    (handed (m.log actions)).countP Pulse.beep = min n (sound-1) ∧
    ∀ before held later x, actions = before ++ .tick held :: later →
      (m.acts before).instruction? = some (.getDelay x) →
      ((m.acts (before ++ [.tick held])).reg x).toNat = delay-pulseCount before := by
  intro n delay sound
  obtain ⟨hdelay, hsound⟩ := timers_acts h
  have hbeeps := beeps_handed h
  refine ⟨hdelay, hsound, hbeeps, ?_, fun before held later x hsplit hi => ?_⟩
  · rw [← countP_range_lt n (sound-1)]
    have hcount := congrArg (List.countP id) hbeeps
    rwa [List.countP_map, List.countP_map] at hcount
  · rw [hsplit] at h
    rw [acts_append, ← (timers_acts h.first).1]
    exact congrArg UInt8.toNat (step_getDelay hi held)

/-- A delay of two and a sound of three over three timer steps, the delay read after the first. -/
theorem timers_count_pulses_delay_read :
    let actions : List Action := [.pulse, .tick .released, .pulse, .pulse]
    ∃ m : Machine, m.delay = ⟨2⟩ ∧ m.sound = ⟨3⟩ ∧ m.LeavesTimers actions ∧
      (m.acts actions).delay = ⟨0⟩ ∧ (m.acts actions).sound = ⟨0⟩ ∧
      (handed (m.log actions)).map Pulse.beep = [true, true, false] ∧
      (m.acts [.pulse, .tick .released]).reg 1 = 1 := by
  intro actions
  -- of the machine only these facts are kept, so that nothing below unfolds its memory
  obtain ⟨m, hm, hpc, hd, hs⟩ : ∃ m : Machine, m.memory = .loaded Font.glyphs #[0xF1,0x07] ∧
      m.pc = 0x200 ∧ m.delay = ⟨2⟩ ∧ m.sound = ⟨3⟩ :=
    ⟨{ powerOn (.loaded Font.glyphs #[0xF1,0x07]) (.ofSeed 0) with delay := ⟨2⟩, sound := ⟨3⟩ },
      rfl, by decide, rfl, rfl⟩
  have hi : m.pulse.1.instruction? = some (.getDelay 1) :=
    instruction?_of_loaded (m := m.pulse.1) (k := 0) hm (congrArg UInt16.toNat hpc) (by decide)
      rfl rfl rfl
  have hleaves : m.LeavesTimers actions := by
    simp [LeavesTimers, actions, log, act, Event.executed?, hi]
  obtain ⟨hdelay, hsound, hbeeps, -, hread⟩ := timers_count_pulses hleaves
  have hreg := hread [.pulse] .released [.pulse, .pulse] 1 rfl hi
  rw [hd] at hdelay hreg
  rw [hs] at hsound hbeeps
  refine ⟨m, hd, hs, hleaves, ?_, ?_, hbeeps, UInt8.toNat_inj.mp hreg⟩
  · exact congrArg Timer.mk (UInt8.toNat_inj.mp hdelay)
  · exact congrArg Timer.mk (UInt8.toNat_inj.mp hsound)

end Machine
end Chip8
