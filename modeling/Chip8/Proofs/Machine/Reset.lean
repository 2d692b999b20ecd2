import Chip8.Proofs.Machine.Console
import Chip8.Proofs.Machine.Interleaving
import Chip8.Proofs.Machine.Presentation

/-! A reset against switching on. A machine that is reset differs from a new one with the same
memory and the same random stream in one bit, the mark of its display. No instruction looks at the
mark, so the two go the same way until a timer step hands the screen out and takes the mark away;
from then on they are the same machine. -/
namespace Chip8

namespace Machine

/-- The same machine with the mark set, as if its screen had changed. -/
def marked (m : Machine) : Machine := { m with display := { m.display with dirty := true } }

variable {m : Machine} {actions : List Action}

/-- No instruction looks at the mark, and none takes it away. -/
lemma step_marked (m : Machine) (held : Keypad) :
    m.marked.step held = { m.step held with machine := (m.step held).machine.marked } := by
  -- an instruction that uses none of the devices cannot see the display at all; the others are run
  by_cases h : ∃ i, m.instruction? = some i ∧ i.SharesWithPulse
  · obtain ⟨i, hi, hshares⟩ := h
    have hi' : m.marked.instruction? = some i := hi
    rw [step_of_some hi, step_of_some hi']
    cases i with
    | clearScreen | draw _ _ _ | getDelay _ | setDelay _ | setSound _ => rfl
    | _ => exact hshares.elim
  · have hfree : ∀ i, m.instruction? = some i → ¬ i.SharesWithPulse := fun i hi hs => h ⟨i, hi, hs⟩
    have hkept : ∀ p, p = .delay ∨ p = .sound ∨ p = .display → Agree m (m.step held).machine p :=
      fun p hp => step_frame held fun i hi => Instruction.not_mem_writes (hfree i hi) hp
    have hdelay : (m.step held).machine.delay = m.delay := hkept .delay (.inl rfl)
    have hsound : (m.step held).machine.sound = m.sound := hkept .sound (.inr (.inl rfl))
    have hdisplay : (m.step held).machine.display = m.display := hkept .display (.inr (.inr rfl))
    have hmarked : m.marked = m.withDevices m.delay m.sound { m.display with dirty := true } := rfl
    rw [hmarked, step_withDevices hfree]
    simp only [withDevices, marked, hdelay, hsound, hdisplay]

/-- An action leaves the mark where it was, or the two machines the same. -/
lemma act_marked (m : Machine) (a : Action) :
    m.marked.act a = (m.act a).marked ∨ m.marked.act a = m.act a := by
  cases a with
  | tick held => exact .inl (congrArg Step.machine (m.step_marked held))
  | pulse => exact .inr rfl
  | reset => exact .inr rfl

lemma acts_marked (m : Machine) (actions : List Action) :
    m.marked.acts actions = (m.acts actions).marked ∨ m.marked.acts actions = m.acts actions := by
  induction actions generalizing m with
  | nil => exact .inl rfl
  | cons a actions ih =>
    rw [acts_cons, acts_cons]
    rcases m.act_marked a with h | h
    · rw [h]
      exact ih _
    · rw [h]
      exact .inr rfl

/-- The mark is all that a run with it and a run without it may differ in. -/
lemma acts_marked_eq (m : Machine) (actions : List Action) :
    m.marked.acts actions = { m.acts actions with
      display := ⟨(m.acts actions).display.screen, (m.marked.acts actions).display.dirty⟩ } := by
  rcases m.acts_marked actions with h | h
  · rw [h]
    rfl
  · rw [h]

/-- Once a timer step was taken, nothing is left of the mark. -/
lemma acts_marked_of_pulse (h : .pulse ∈ actions) : m.marked.acts actions = m.acts actions := by
  obtain ⟨before, later, rfl⟩ := List.mem_iff_append.mp h
  rw [acts_append, acts_append, acts_cons, acts_cons]
  rcases m.acts_marked before with h | h
  · rw [h]
    rfl
  · rw [h]

/-- The timer steps among some events. -/
def timerSteps (events : List Event) : List Event := events.filter fun e => e.action matches .pulse

lemma handed_eq (events : List Event) :
    handed events = (timerSteps events).map fun e => e.before.pulse.2 := by
  induction events with
  | nil => rfl
  | cons e events ih =>
    obtain ⟨before, a⟩ := e
    cases a with
    | pulse => exact congrArg (before.pulse.2 :: ·) ih
    | tick held => exact ih
    | reset => exact ih

/-- A machine with the mark hands out its screen at the first timer step in any case, and then the
same as without. -/
lemma handed_marked (m : Machine) (actions : List Action) :
    handed (m.marked.log actions) =
      match timerSteps (m.log actions) with
      | [] => []
      | first :: later =>
        ⟨some first.before.display.screen, first.before.pulse.2.beep⟩ ::
          later.map fun e => e.before.pulse.2 := by
  induction actions generalizing m with
  | nil => rfl
  | cons a actions ih =>
    cases a with
    | tick held =>
      have hnext := ih (m.step held).machine
      have hs : (m.marked.step held).machine = (m.step held).machine.marked := by rw [step_marked]
      rw [← hs] at hnext
      exact hnext
    | pulse =>
      exact congrArg (Pulse.mk (some m.display.screen) m.pulse.2.beep :: ·)
        (handed_eq (m.pulse.1.log actions))
    | reset => exact ih m.reset

lemma pulse_mem_of_timerSteps (h : timerSteps (m.log actions) ≠ []) : .pulse ∈ actions := by
  obtain ⟨e, he⟩ := List.exists_mem_of_ne_nil _ h
  obtain ⟨hlog, haction⟩ := List.mem_filter.mp he
  have hmem := action_mem_of_mem_log hlog
  cases ha : e.action with
  | pulse => rwa [ha] at hmem
  | tick held => simp [ha] at haction
  | reset => simp [ha] at haction

lemma beeps_marked (m : Machine) (actions : List Action) :
    (handed (m.marked.log actions)).map Pulse.beep = (handed (m.log actions)).map Pulse.beep := by
  rw [handed_marked, handed_eq]
  cases timerSteps (m.log actions) with
  | nil => rfl
  | cons first later => rfl

lemma frames_marked {first : Event} {later : List Event}
    (h : timerSteps (m.log actions) = first :: later) :
    ∃ rest,
      (handed (m.log actions)).map Pulse.frame =
        (if first.before.display.dirty then some first.before.display.screen else none) :: rest ∧
      (handed (m.marked.log actions)).map Pulse.frame =
        some first.before.display.screen :: rest := by
  refine ⟨later.map fun e => e.before.pulse.2.frame, ?_, ?_⟩
  · rw [handed_eq, h, List.map_cons, List.map_cons, List.map_map]
    rfl
  · rw [handed_marked, h]
    simp only [List.map_cons, List.map_map]
    rfl

end Machine

namespace Console

variable {σ : Type} (ask : σ → Keypad × σ)

/-- The same console with the mark set. -/
def marked (c : Console σ) : Console σ := ⟨c.machine.marked, c.pad⟩

lemma step_marked (c : Console σ) :
    c.marked.step ask = ((c.step ask).1.marked, (c.step ask).2) := by
  have hs := c.machine.step_marked (ask c.pad).1
  simp only [step, marked, hs]

lemma stepsFrom_marked (n ran : Nat) (c : Console σ) :
    stepsFrom ask n ran c.marked =
      { stepsFrom ask n ran c with toConsole := (stepsFrom ask n ran c).marked } := by
  induction n generalizing ran c with
  | zero => rfl
  | succ n ih =>
    rw [stepsFrom_succ, stepsFrom_succ, step_marked]
    cases hr : (c.step ask).2 with
    | ok _ => exact ih _ _
    | error why => rfl

lemma steps_marked (c : Console σ) (n : Nat) :
    c.marked.steps ask n = { c.steps ask n with toConsole := (c.steps ask n).marked } :=
  stepsFrom_marked ask n 0 c

lemma row_marked (n : Nat) (c : Console σ) : row ask n c.marked = row ask n c := by
  induction n generalizing c with
  | zero => rfl
  | succ n ih =>
    simp only [row, step_marked]
    cases hr : (c.step ask).2 with
    | ok _ => exact congrArg (_ :: ·) (ih _)
    | error why => rfl

lemma actionsOf_marked (c : Console σ) (q : Request σ) :
    c.marked.actionsOf ask q = c.actionsOf ask q := by
  cases q with
  | catchUp schedule now => simp only [actionsOf, row_marked, steps_marked]
  | _ => rfl

/-- A request is answered the same with the mark and without. -/
lemma serve_marked (c : Console σ) (q : Request σ) :
    (c.marked.serve ask q).replies = (c.serve ask q).replies ∧
      (c.marked.serve ask q).console.pad = (c.serve ask q).console.pad := by
  cases q with
  | tick =>
    simp only [serve, step_marked, true_and]
    rfl
  | catchUp schedule now =>
    simp only [serve, catchUp, steps_marked]
    cases (c.steps ask (schedule.instructions.grant now).1).result <;> exact ⟨rfl, rfl⟩
  | _ => exact ⟨rfl, rfl⟩

/-- After a request the mark is still there, or the two consoles are the same. -/
lemma console_serve_marked (c : Console σ) (q : Request σ) :
    (c.marked.serve ask q).console = (c.serve ask q).console.marked ∨
      (c.marked.serve ask q).console = (c.serve ask q).console := by
  have hpad := (c.serve_marked ask q).2
  have hmarked : (c.marked.serve ask q).console.machine =
      c.machine.marked.acts (c.actionsOf ask q) := by
    rw [(c.marked.serve_eq ask q).1, actionsOf_marked]
    rfl
  have hplain := (c.serve_eq ask q).1
  rcases c.machine.acts_marked (c.actionsOf ask q) with h | h
  · rw [h, ← hplain] at hmarked
    exact .inl (congrArg₂ Console.mk hmarked hpad)
  · rw [h, ← hplain] at hmarked
    exact .inr (congrArg₂ Console.mk hmarked hpad)

lemma serveAll_marked (c : Console σ) (requests : List (Request σ)) :
    (c.marked.serveAll ask requests).replies = (c.serveAll ask requests).replies ∧
      (c.marked.serveAll ask requests).console.pad = (c.serveAll ask requests).console.pad ∧
      c.marked.actions ask requests = c.actions ask requests := by
  induction requests generalizing c with
  | nil => exact ⟨rfl, rfl, rfl⟩
  | cons q requests ih =>
    have hfirst := (c.serve_marked ask q).1
    have hactions := c.actionsOf_marked ask q
    simp only [serveAll, actions, hfirst, hactions]
    rcases c.console_serve_marked ask q with h | h
    · obtain ⟨hreplies, hpad, hlater⟩ := ih (c.serve ask q).console
      rw [h, hreplies, hpad, hlater]
      exact ⟨rfl, rfl, rfl⟩
    · rw [h]
      exact ⟨rfl, rfl, rfl⟩

/-- A console with the mark takes the actions of the one without. -/
lemma serveAll_marked_eq (c : Console σ) (requests : List (Request σ)) :
    let actions := c.actions ask requests
    (c.marked.serveAll ask requests).console.machine = c.machine.marked.acts actions ∧
      (c.marked.serveAll ask requests).pulses = Machine.handed (c.machine.marked.log actions) := by
  obtain ⟨hmachine, hpulses⟩ := c.marked.serveAll_eq ask requests
  have hactions := (c.serveAll_marked ask requests).2.2
  rw [history, hactions] at hpulses
  rw [hactions] at hmachine
  exact ⟨hmachine, hpulses⟩

/-- A reset is switching on again with the memory and the random stream kept. Whatever is asked of a
machine that was reset and of a new one with the same memory, random stream and pad, both give the
same replies and have the same parts, but for the mark of the display, and beep at the same timer
steps; the marks agree once a timer step was taken; and the same frames are handed out, but that the
first timer step hands out the screen of the machine that was reset in any case. A second reset
changes nothing. -/
theorem reset_eq_power_on (s : Machine) (pad : σ) (requests : List (Request σ)) :
    let fresh : Console σ := ⟨.powerOn s.memory s.random, pad⟩
    let f := fresh.serveAll ask requests
    let r := Console.serveAll ask ⟨s.reset, pad⟩ requests
    let steps := Machine.timerSteps (fresh.history ask requests)
    r.replies = f.replies ∧ r.console.pad = f.console.pad ∧
    r.console.machine = { f.console.machine with
      display := ⟨f.console.machine.display.screen, r.console.machine.display.dirty⟩ } ∧
    r.pulses.map Pulse.beep = f.pulses.map Pulse.beep ∧
    (steps ≠ [] → r.console.machine.display.dirty = f.console.machine.display.dirty) ∧
    (∀ first later, steps = first :: later → ∃ rest,
      f.pulses.map Pulse.frame =
        (if first.before.display.dirty then some first.before.display.screen else none) :: rest ∧
      r.pulses.map Pulse.frame = some first.before.display.screen :: rest) ∧
    s.reset.reset = s.reset := by
  intro fresh f r steps
  have hreset : (⟨s.reset, pad⟩ : Console σ) = fresh.marked := rfl
  obtain ⟨hreplies, hpad, -⟩ := fresh.serveAll_marked ask requests
  obtain ⟨hmachine, hpulses⟩ := fresh.serveAll_eq ask requests
  obtain ⟨hmachine', hpulses'⟩ := fresh.serveAll_marked_eq ask requests
  rw [← hreset] at hreplies hpad hmachine' hpulses'
  refine ⟨hreplies, hpad, ?_, ?_, fun h => ?_, fun first later h => ?_, rfl⟩
  · rw [hmachine', hmachine]
    exact fresh.machine.acts_marked_eq _
  · rw [hpulses', hpulses]
    exact fresh.machine.beeps_marked _
  · rw [hmachine', hmachine, Machine.acts_marked_of_pulse (Machine.pulse_mem_of_timerSteps h)]
  · rw [hpulses', hpulses]
    exact Machine.frames_marked h

/-- A reset after a return without a call. The first timer step shows the blank screen again, which
a new machine does not do, and the return fails as before. -/
theorem reset_eq_power_on_after_error :
    ∃ m s, Machine.boot Font.glyphs #[0x00,0xEE] (.ofSeed 0) = .ok m ∧
      m.step .released = ⟨s, .error (.error (.returnWithoutCall ⟨0x00EE⟩ 0x200)), 0⟩ ∧
      let ask : Unit → Keypad × Unit := fun _ => (.released, ())
      let f := serveAll ask ⟨.powerOn s.memory s.random, ()⟩ [.pulse, .tick]
      let r := serveAll ask ⟨s.reset, ()⟩ [.pulse, .tick]
      r.replies = f.replies ∧ r.console.machine.display.dirty = f.console.machine.display.dirty ∧
        f.pulses.map Pulse.frame = [none] ∧ r.pulses.map Pulse.frame = [some .blank] := by
  obtain ⟨m, hboot, hm, hpc, hstack⟩ : ∃ m,
      Machine.boot Font.glyphs #[0x00,0xEE] (.ofSeed 0) = .ok m ∧
        m.memory = .loaded Font.glyphs #[0x00,0xEE] ∧ m.pc = 0x200 ∧ m.stack = .empty :=
    ⟨_, Machine.boot_eq_ok_iff.mpr ⟨by decide, by decide, rfl⟩, rfl, by decide, rfl⟩
  have hf : m.fetch = ⟨0x00EE⟩ :=
    Machine.fetch_of_loaded (k := 0) hm (by rw [hpc]; rfl) (by decide) rfl rfl
  have hi : m.instruction? = some .ret := by
    rw [Machine.instruction?_eq, hf]
    rfl
  have hpop : m.advance.stack.pop? = none := by
    change m.stack.pop? = none
    rw [hstack]
    rfl
  have hs : m.step .released =
      ⟨m.advance, .error (.error (.returnWithoutCall ⟨0x00EE⟩ 0x200)), 0⟩ := by
    simp only [Machine.step_of_some hi, Machine.execute, hpop, hf, hpc]
  refine ⟨m, m.advance, hboot, hs, ?_⟩
  intro ask f r
  obtain ⟨hreplies, -, -, -, hdirty, hframes, -⟩ :=
    reset_eq_power_on ask m.advance () [.pulse, .tick]
  obtain ⟨rest, hnew, hshown⟩ := hframes _ _ rfl
  have hnone : f.pulses.map Pulse.frame = [none] := rfl
  have hrest : rest = [] := (List.cons.inj (hnone.symm.trans hnew)).2.symm
  rw [hrest] at hshown
  exact ⟨hreplies, hdirty (List.cons_ne_nil _ _), hnone, hshown⟩

end Console
end Chip8
