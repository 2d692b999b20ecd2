import Chip8.Proofs.Machine.Failure

/-! What an instruction leaves alone. A machine is its counter and eight more parts; every
instruction changes the counter and at most two of the others. -/
namespace Chip8

/-- The parts of a machine besides its counter. -/
inductive Part
  | memory | registers | index | stack | delay | sound | display | random
  deriving DecidableEq

/-- The parts an instruction may change. -/
def Instruction.writes : Instruction → List Part
  | .clearScreen => [.display]
  | .ret | .call _ => [.stack]
  | .jump _ | .jumpOffset _ => []
  | .skipEqualByte _ _ | .skipUnequalByte _ _ | .skipEqual _ _ | .skipUnequal _ _ => []
  | .skipHeld _ | .skipNotHeld _ => []
  | .setByte _ _ | .addByte _ _ | .copy _ _ | .or _ _ | .and _ _ | .xor _ _ => [.registers]
  | .add _ _ | .subtract _ _ | .subtractFrom _ _ | .shiftRight _ _ | .shiftLeft _ _ => [.registers]
  | .getDelay _ | .awaitKey _ | .loadRegisters _ => [.registers]
  | .setIndex _ | .pointGlyph _ => [.index]
  | .addIndex _ => [.registers, .index]
  | .random _ _ => [.registers, .random]
  | .draw _ _ _ => [.registers, .display]
  | .setDelay _ => [.delay]
  | .setSound _ => [.sound]
  | .storeDecimal _ | .storeRegisters _ => [.memory]

namespace Machine

/-- Two machines have the same value in a part. -/
def Agree (m after : Machine) : Part → Prop
  | .memory => after.memory = m.memory
  | .registers => after.registers = m.registers
  | .index => after.index = m.index
  | .stack => after.stack = m.stack
  | .delay => after.delay = m.delay
  | .sound => after.sound = m.sound
  | .display => after.display = m.display
  | .random => after.random = m.random

variable {m after : Machine} {p : Part}

lemma agree_skipIf (m : Machine) (condition : Bool) (p : Part) :
    Agree m (m.skipIf condition) p := by
  cases condition <;> cases p <;> rfl

lemma result?_ofChecked {α : Type} {sum : Except Trap α} {use : α → Machine} {held : Keypad}
    (h : (Execution.ofChecked sum use).result? held = some after) : ∃ value, after = use value := by
  cases sum with
  | ok value =>
    cases h
    exact ⟨value, rfl⟩
  | error t => cases h

/-- An instruction leaves every part alone that it does not write. -/
theorem execute_frame {opcode : Opcode} {origin : UInt16} {i : Instruction} {held : Keypad}
    (h : (m.execute opcode origin i).result? held = some after) (hp : p ∉ i.writes) :
    Agree m after p := by
  cases i with
  | ret =>
    cases hs : m.stack.pop? with
    | none => simp [execute, hs, Execution.result?] at h
    | some top =>
      simp only [execute, hs] at h
      cases h
      cases p <;> first | rfl | simp [Instruction.writes] at hp
  | call nnn =>
    cases hs : m.stack.push? m.pc with
    | none => simp [execute, hs, Execution.result?] at h
    | some stack =>
      simp only [execute, hs] at h
      cases h
      cases p <;> first | rfl | simp [Instruction.writes] at hp
  | skipEqualByte _ _ | skipUnequalByte _ _ | skipEqual _ _ | skipUnequal _ _ | skipHeld _
  | skipNotHeld _ =>
    cases h
    exact m.agree_skipIf _ p
  | awaitKey x =>
    cases h
    dsimp only
    cases held.first? <;> cases p <;> first | rfl | simp [Instruction.writes] at hp
  | jumpOffset nnn =>
    obtain ⟨value, rfl⟩ := result?_ofChecked h
    cases p <;> rfl
  | addIndex x | pointGlyph x =>
    obtain ⟨value, rfl⟩ := result?_ofChecked h
    cases p <;> first | rfl | simp [Instruction.writes] at hp
  | _ =>
    cases h
    cases p <;> first | rfl | simp [Instruction.writes] at hp

/-- So does a slot, whether it succeeds or fails. -/
theorem step_frame (held : Keypad) (hp : ∀ i, m.instruction? = some i → p ∉ i.writes) :
    Agree m (m.step held).machine p := by
  have hadvance : Agree m m.advance p := by cases p <;> rfl
  cases hr : (m.step held).result with
  | error why =>
    have hf := failing_of_step hr
    generalize (m.step held).machine = after at hf ⊢
    cases hf with
    | unknownOpcode _ => cases p <;> rfl
    | returnWithoutCall _ _ => exact hadvance
    | callTooDeep _ _ => exact hadvance
  | ok _ =>
    obtain ⟨i, hi, he⟩ := step_ok_iff.mp hr
    have hframe := execute_frame he (hp i hi)
    cases p <;> exact hframe

end Machine
end Chip8
