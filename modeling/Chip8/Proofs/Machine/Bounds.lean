import Chip8.Proofs.Machine.Console
import Chip8.Proofs.Machine.Outcome
import Chip8.Proofs.Machine.Subroutine
import Mathlib.Data.List.DropRight

/-! The control part of a machine over whole runs. Wherever the counter is written it is cut to
twelve bits, and only counters are put on the call stack; so both stay within the memory. A call
adds one frame, a return takes one away and nothing else but a reset touches the stack, which
therefore counts the calls that are still open. -/
namespace Chip8

/-- The events after the last reset among them. -/
def sinceReset (events : List Event) : List Event :=
  events.rtakeWhile fun e => !(e.action matches .reset)

/-- How many of some events are calls that succeed. -/
def callCount (events : List Event) : Nat :=
  events.countP fun e => e.completed? matches some (.call _)

/-- How many of some events are returns that succeed. -/
def returnCount (events : List Event) : Nat :=
  events.countP fun e => e.completed? matches some .ret

namespace Machine

/-- The counter and all return addresses lie within the memory. -/
structure Within (m : Machine) : Prop where
  pc_le : m.pc.toNat ≤ 0xFFF
  frames_le : ∀ address ∈ m.stack.frames, address.toNat ≤ 0xFFF

variable {m after : Machine} {held : Keypad}

lemma wrap_le (w : UInt16) : (wrap w).toNat ≤ 0xFFF := by
  rw [toNat_wrap]
  omega

lemma within_of_start (hpc : m.pc = start) (hs : m.stack = .empty) : m.Within := by
  refine ⟨?_, ?_⟩
  · rw [hpc]
    decide
  · rw [hs]
    exact nofun

lemma pc_le_skipIf (h : m.pc.toNat ≤ 0xFFF) (condition : Bool) :
    (m.skipIf condition).pc.toNat ≤ 0xFFF := by
  cases condition with
  | false => exact h
  | true => exact wrap_le _

/-- Wherever an instruction goes on, the counter is cut to the memory. -/
lemma pc_le_of_execute {opcode : Opcode} {origin : UInt16} {i : Instruction}
    (h : m.pc.toNat ≤ 0xFFF) (he : (m.execute opcode origin i).result? held = some after)
    (hret : i ≠ .ret) (hcall : ∀ nnn, i ≠ .call nnn) : after.pc.toNat ≤ 0xFFF := by
  cases i with
  | ret => exact absurd rfl hret
  | call nnn => exact absurd rfl (hcall nnn)
  | jump nnn =>
    cases he
    exact wrap_le nnn
  | skipEqualByte _ _ | skipUnequalByte _ _ | skipEqual _ _ | skipUnequal _ _ | skipHeld _
  | skipNotHeld _ =>
    cases he
    exact pc_le_skipIf h _
  | awaitKey x =>
    cases he
    dsimp only
    cases held.first? with
    | some key => exact h
    | none => exact wrap_le _
  | jumpOffset nnn =>
    obtain ⟨target, rfl⟩ := result?_ofChecked he
    exact wrap_le target
  | addIndex x | pointGlyph x =>
    obtain ⟨value, rfl⟩ := result?_ofChecked he
    exact h
  | _ =>
    cases he
    exact h

/-- What an instruction that succeeds does to the call stack: a return takes a frame away, a call
adds one, and all others leave it alone. -/
lemma step_stack_cases (hok : (m.step held).result = .ok ()) :
    (m.instruction? = some .ret ∧ ∃ address,
      m.stack.frames = address :: (m.step held).machine.stack.frames ∧
        (m.step held).machine.pc = wrap address) ∨
    (∃ nnn, m.instruction? = some (.call nnn) ∧
      (m.step held).machine.stack.frames = m.advance.pc :: m.stack.frames ∧
        (m.step held).machine.pc = wrap nnn) ∨
    (∃ i, m.instruction? = some i ∧ i ≠ .ret ∧ (∀ nnn, i ≠ .call nnn) ∧
      (m.step held).machine.stack = m.stack) := by
  obtain ⟨i, hi, -⟩ := step_ok_iff.mp hok
  by_cases hret : i = .ret
  · subst i
    exact .inl ⟨hi, step_ret hi hok⟩
  · by_cases hcall : ∃ nnn, i = .call nnn
    · obtain ⟨nnn, rfl⟩ := hcall
      exact .inr (.inl ⟨nnn, hi, step_call hi hok⟩)
    · have hother : ∀ nnn, i ≠ .call nnn := fun nnn hn => hcall ⟨nnn, hn⟩
      exact .inr (.inr ⟨i, hi, hret, hother, step_stack hi hret hother held⟩)

/-- A slot that fails leaves the counter where it was or moves it on, which cuts it too. -/
lemma Within.step (h : m.Within) (held : Keypad) : (m.step held).machine.Within := by
  cases hr : (m.step held).result with
  | ok _ =>
    rcases step_stack_cases hr with
      ⟨-, address, hframes, hpc⟩ | ⟨nnn, -, hframes, hpc⟩ | ⟨i, hi, hret, hcall, hstack⟩
    · refine ⟨hpc ▸ wrap_le address, fun a ha => h.frames_le a ?_⟩
      rw [hframes]
      exact List.mem_cons_of_mem _ ha
    · refine ⟨hpc ▸ wrap_le nnn, fun a ha => ?_⟩
      rw [hframes] at ha
      rcases List.mem_cons.mp ha with rfl | ha
      · exact wrap_le _
      · exact h.frames_le a ha
    · obtain ⟨j, hj, he⟩ := step_ok_iff.mp hr
      obtain rfl := Option.some.inj (hi.symm.trans hj)
      exact ⟨pc_le_of_execute (m := m.advance) (wrap_le _) he hret hcall, hstack ▸ h.frames_le⟩
  | error why =>
    have hf := failing_of_step hr
    generalize (m.step held).machine = after at hf ⊢
    cases hf with
    | unknownOpcode _ => exact h
    | returnWithoutCall _ _ => exact ⟨wrap_le _, h.frames_le⟩
    | callTooDeep _ _ => exact ⟨wrap_le _, h.frames_le⟩

lemma Within.act (h : m.Within) (a : Action) : (m.act a).Within := by
  cases a with
  | tick held => exact h.step held
  | pulse => exact ⟨h.pc_le, h.frames_le⟩
  | reset => exact within_of_start rfl rfl

theorem Within.acts (h : m.Within) (actions : List Action) : (m.acts actions).Within := by
  induction actions generalizing m with
  | nil => exact h
  | cons a actions ih => exact ih (h.act a)

theorem Reachable.within (h : m.Reachable) : m.Within := by
  induction h with
  | boot h =>
    obtain ⟨-, -, rfl⟩ := boot_eq_ok_iff.mp h
    exact within_of_start rfl rfl
  | act _ a ih => exact ih.act a

/-! ### Open calls -/

/-- What an instruction adds to the calls and to the returns it adds to the open calls. -/
lemma depth_step (m : Machine) (held : Keypad) :
    (m.step held).machine.stack.depth+returnCount [⟨m, .tick held⟩] =
      m.stack.depth+callCount [⟨m, .tick held⟩] := by
  cases hr : (m.step held).result with
  | error why =>
    have hnone : Event.completed? ⟨m, .tick held⟩ = none := by simp [Event.completed?, hr]
    have hstack : (m.step held).machine.stack = m.stack := by
      rw [(failing_of_step hr).machine_eq]
    simp [returnCount, callCount, hnone, hstack]
  | ok _ =>
    have hdone : ∀ {i}, m.instruction? = some i → Event.completed? ⟨m, .tick held⟩ = some i :=
      fun hi => Event.completed?_tick_iff.mpr ⟨hr, hi⟩
    rcases step_stack_cases hr with
      ⟨hi, address, hframes, -⟩ | ⟨nnn, hi, hframes, -⟩ | ⟨i, hi, hret, hcall, hstack⟩
    · simp [returnCount, callCount, hdone hi, CallStack.depth, hframes]
    · simp [returnCount, callCount, hdone hi, CallStack.depth, hframes]
    · rw [hstack]
      cases i <;> simp [returnCount, callCount, hdone hi] at hret hcall ⊢

/-- The open calls are the calls since the last reset less the returns since then. -/
theorem depth_acts (h : m.stack = .empty) (actions : List Action) :
    let recent := sinceReset (m.log actions)
    (m.acts actions).stack.depth+returnCount recent = callCount recent := by
  -- from the end of the run, because its last action decides whether the events before it count
  induction actions using List.reverseRecOn with
  | nil =>
    rw [acts_nil, h]
    rfl
  | append_singleton actions a ih =>
    have hlog : m.log (actions ++ [a]) = m.log actions ++ [⟨m.acts actions, a⟩] := log_append ..
    rw [acts_append, hlog, sinceReset]
    cases a with
    | reset =>
      rw [List.rtakeWhile_concat_neg _ _ _ (by simp)]
      rfl
    | pulse =>
      rw [List.rtakeWhile_concat_pos _ _ _ rfl]
      simp only [returnCount, callCount, List.countP_append, sinceReset] at ih ⊢
      exact ih
    | tick held =>
      have hstep := (m.acts actions).depth_step held
      rw [List.rtakeWhile_concat_pos _ _ _ rfl]
      simp only [returnCount, callCount, List.countP_append, sinceReset] at ih hstep ⊢
      change ((m.acts actions).step held).machine.stack.depth+_ = _
      omega

end Machine

/-- The invariant of running machines, whatever is asked of them and whatever the pad answers. The
counter lies within the memory, at most sixteen calls are open, every return address lies within the
memory, and the open calls are the calls that succeeded since the last reset less the returns that
did. -/
theorem Console.control_invariant {font rom : Array UInt8} {random : Random} {m : Machine}
    (h : Machine.boot font rom random = .ok m) {σ : Type} (ask : σ → Keypad × σ) (pad : σ)
    (requests : List (Request σ)) :
    let c : Console σ := ⟨m, pad⟩
    let after := (c.serveAll ask requests).console.machine
    let recent := sinceReset (c.history ask requests)
    after.pc.toNat ≤ 0xFFF ∧ after.stack.depth ≤ 16 ∧
    (∀ address ∈ after.stack.frames, address.toNat ≤ 0xFFF) ∧
    (after.stack.depth : Int) = callCount recent-returnCount recent := by
  obtain ⟨-, -, hm⟩ := Machine.boot_eq_ok_iff.mp h
  have hempty : m.stack = .empty := by rw [hm]; rfl
  have hwithin : m.Within := by
    rw [hm]
    exact Machine.within_of_start rfl rfl
  intro c after recent
  have hafter : after = m.acts (c.actions ask requests) := (c.serveAll_eq ask requests).1
  obtain ⟨hpc, hframes⟩ := hwithin.acts (c.actions ask requests)
  have hdepth := Machine.depth_acts hempty (c.actions ask requests)
  rw [← hafter] at hpc hframes hdepth
  refine ⟨hpc, after.stack.depth_le, hframes, ?_⟩
  change after.stack.depth+returnCount recent = callCount recent at hdepth
  omega

/-- A call, a timer step, and a jump with an offset that runs over the last address. -/
theorem Console.control_invariant_over_end :
    ∃ m, Machine.boot Font.glyphs #[0x22,0x02,0x60,0xFF,0xBF,0xFF] (.ofSeed 0) = .ok m ∧
      let ask : Nat → Keypad × Nat := fun n => (.ofList [n.toUInt8], n+1)
      let c : Console Nat := ⟨m, 0⟩
      let after := (c.serveAll ask [.tick, .tick, .pulse, .tick]).console.machine
      let recent := sinceReset (c.history ask [.tick, .tick, .pulse, .tick])
      after.pc = 0x0FE ∧ after.stack.frames = [0x202] ∧
      (∀ address ∈ after.stack.frames, address.toNat ≤ 0xFFF) ∧
      (callCount recent : Int)-returnCount recent = 1 := by
  -- of the machine only these four facts are kept, so that nothing below unfolds its memory
  obtain ⟨m, hboot, hm, hpc, hstack⟩ : ∃ m,
      Machine.boot Font.glyphs #[0x22,0x02,0x60,0xFF,0xBF,0xFF] (.ofSeed 0) = .ok m ∧
        m.memory = .loaded Font.glyphs #[0x22,0x02,0x60,0xFF,0xBF,0xFF] ∧
          m.pc = 0x200 ∧ m.stack = .empty :=
    ⟨_, Machine.boot_eq_ok_iff.mpr ⟨by decide, by decide, rfl⟩, rfl, by decide, rfl⟩
  let called : Machine := { m with stack := ⟨[0x202], by decide⟩, pc := Machine.wrap 0x202 }
  let loaded := called.advance.setReg 0 0xFF
  let jumped := loaded.pulse.1.advance.jump 0x10FE
  have hcall : m.instruction? = some (.call 0x202) :=
    Machine.instruction?_of_loaded (k := 0) hm (by rw [hpc]; rfl) (by decide) rfl rfl rfl
  have hset : called.instruction? = some (.setByte 0 0xFF) :=
    Machine.instruction?_of_loaded (m := called) (k := 2) hm rfl (by decide) rfl rfl rfl
  have hnext : loaded.pulse.1.pc = 0x204 := by
    change Machine.wrap (Machine.wrap 0x202+2) = 0x204
    decide
  have hjump : loaded.pulse.1.instruction? = some (.jumpOffset 0xFFF) :=
    Machine.instruction?_of_loaded (m := loaded.pulse.1) (k := 4) hm (by rw [hnext]; rfl)
      (by decide) rfl rfl rfl
  have hpush : m.stack.push? m.advance.pc = some called.stack := by
    rw [hstack, Machine.advance, hpc]
    rfl
  have hreg : loaded.pulse.1.advance.reg RegisterFile.first = 0xFF := by
    change (called.registers.set 0 0xFF).get 0 = 0xFF
    rw [RegisterFile.get_set, if_pos rfl]
  have hs : ∀ held, m.step held = ⟨called, .ok (), 0⟩ := Machine.step_of_push hcall hpush
  have hs' : ∀ held, called.step held = ⟨loaded, .ok (), 0⟩ := fun held => by
    rw [Machine.step_of_some hset]
    rfl
  have hs'' : ∀ held, loaded.pulse.1.step held = ⟨jumped, .ok (), 0⟩ := fun held => by
    rw [Machine.step_of_some hjump, Machine.execute_jumpOffset _ _ _ (by decide), hreg]
    rfl
  refine ⟨m, hboot, ?_⟩
  intro ask c after recent
  have hafter : after = jumped := by
    simp only [after, c, serveAll, serve, step, hs, hs', hs'']
  obtain ⟨-, -, hframes, hdepth⟩ :=
    control_invariant hboot ask 0 [.tick, .tick, .pulse, .tick]
  have hpc' : jumped.pc = 0x0FE := by
    change Machine.wrap 0x10FE = 0x0FE
    decide
  change ∀ address ∈ after.stack.frames, _ at hframes
  change (after.stack.depth : Int) = callCount recent-returnCount recent at hdepth
  refine ⟨by rw [hafter, hpc'], by rw [hafter]; rfl, hframes, ?_⟩
  rw [← hdepth, hafter]
  rfl

end Chip8
