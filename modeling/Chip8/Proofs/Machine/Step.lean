import Chip8.Machine.Step
import Chip8.Proofs.Opcode

/-! What one instruction slot can come to, said once: a machine stands on an instruction or on none,
and an instruction succeeds or halts for one of two causes. Checked arithmetic never stops a slot,
because addresses taken from a word have twelve bits. -/
namespace Chip8

namespace Instruction

/-- Decoding has an answer for every word. -/
theorem decode_eq (w : Opcode) : decode w = .ok (ofFields w.split) := by
  rw [decode, w.fields_eq]
  rfl

/-- The address operand of an instruction that has one. -/
def address? : Instruction → Option UInt16
  | .jump nnn | .call nnn | .setIndex nnn | .jumpOffset nnn => some nnn
  | _ => none

lemma address?_ofFields {f : Opcode.Fields} {i : Instruction} (h : ofFields f = some i)
    {nnn : UInt16} (ha : i.address? = some nnn) : nnn = f.nnn := by
  unfold ofFields at h
  split at h
  all_goals first
    | (cases h; simp_all [address?])
    | (split at h <;> cases h <;> simp_all [address?])

end Instruction

namespace Execution

/-- The machine an instruction leaves behind when it succeeds. -/
def result? (held : Keypad) : Execution → Option Machine
  | .done after => some after
  | .asking answer => some (answer held)
  | .halted _ => none

end Execution

namespace Machine

/-- The instruction a machine stands on, if it stands on one. -/
def instruction? (m : Machine) : Option Instruction :=
  match Instruction.decode m.fetch with
  | .ok i => i
  | .error _ => none

lemma decode_fetch (m : Machine) : Instruction.decode m.fetch = .ok m.instruction? := by
  rw [instruction?, Instruction.decode_eq]

lemma address_lt {m : Machine} {i : Instruction} (h : m.instruction? = some i) {nnn : UInt16}
    (ha : i.address? = some nnn) : nnn.toNat < 4096 := by
  rw [instruction?, Instruction.decode_eq] at h
  rw [Instruction.address?_ofFields h ha]
  exact m.fetch.split_nnn_lt

theorem step_of_none {m : Machine} (h : m.instruction? = none) (held : Keypad) :
    m.step held = ⟨m, .error (.error (.unknownOpcode m.fetch m.pc)), 0⟩ := by
  have hd := m.decode_fetch
  rw [h] at hd
  rw [step, hd]

theorem step_of_some {m : Machine} {i : Instruction} (h : m.instruction? = some i)
    (held : Keypad) :
    m.step held =
      match m.advance.execute m.fetch m.pc i with
      | .done after => ⟨after, .ok (), 0⟩
      | .asking answer => ⟨answer held, .ok (), 1⟩
      | .halted why => ⟨m.advance, .error why, 0⟩ := by
  have hd := m.decode_fetch
  rw [h] at hd
  cases he : m.advance.execute m.fetch m.pc i <;> simp only [step, hd, he]

lemma step_of_done {m after : Machine} {i : Instruction} (h : m.instruction? = some i)
    (he : m.advance.execute m.fetch m.pc i = .done after) (held : Keypad) :
    m.step held = ⟨after, .ok (), 0⟩ := by
  rw [step_of_some h, he]

/-- A slot succeeds exactly when an instruction stands there and runs to its end. -/
theorem step_ok_iff {m : Machine} {held : Keypad} :
    (m.step held).result = .ok () ↔
      ∃ i, m.instruction? = some i ∧
        (m.advance.execute m.fetch m.pc i).result? held = some (m.step held).machine := by
  cases hi : m.instruction? with
  | none =>
    rw [step_of_none hi]
    simp
  | some i =>
    rw [step_of_some hi]
    cases he : m.advance.execute m.fetch m.pc i <;> simp [he, Execution.result?]

/-! ### Checked sums -/

/-- A jump target from a word stays within sixteen bits, whatever is added to it. -/
lemma execute_jumpOffset (m : Machine) (opcode : Opcode) (origin : UInt16) {nnn : UInt16}
    (h : nnn.toNat < 4096) :
    m.execute opcode origin (.jumpOffset nnn) =
      .done (m.jump (nnn+(m.reg RegisterFile.first).toUInt16)) := by
  have hb := (m.reg RegisterFile.first).toNat_lt
  rw [execute, Checked.addWord_of_lt (by rw [UInt8.toNat_toUInt16]; omega)]
  rfl

lemma execute_addIndex (m : Machine) (opcode : Opcode) (origin : UInt16) (x : Fin 16) :
    m.execute opcode origin (.addIndex x) =
      let flagged := m.setFlag (0x0FFF < m.index.toUInt32+(m.reg x).toUInt32)
      .done (flagged.addIndex (flagged.reg x)) := by
  have hb := (m.reg x).toNat_lt
  have hi := m.index.toNat_lt
  rw [execute, Checked.addLong_of_lt (by rw [UInt16.toNat_toUInt32, UInt8.toNat_toUInt32]; omega)]
  rfl

lemma execute_pointGlyph (m : Machine) (opcode : Opcode) (origin : UInt16) (x : Fin 16) :
    m.execute opcode origin (.pointGlyph x) =
      .done (m.setIndex
        (Memory.fontStart.toUInt16+(m.reg x).toUInt16*Font.glyphHeight)) := by
  have hb := (m.reg x).toNat_lt
  have hheight : Font.glyphHeight.toNat = 5 := rfl
  have hstart : Memory.fontStart.toUInt16.toNat = 80 := rfl
  have hmul : (m.reg x).toUInt16.toNat*Font.glyphHeight.toNat < 1280 := by
    rw [UInt8.toNat_toUInt16, hheight]
    omega
  have hadd : Memory.fontStart.toUInt16.toNat+((m.reg x).toUInt16*Font.glyphHeight).toNat <
      65536 := by
    rw [UInt16.toNat_mul, Nat.mod_eq_of_lt (by omega), hstart]
    omega
  rw [execute, Checked.mulWord_of_lt (by omega)]
  change Execution.ofChecked (Checked.addWord _ _) _ = _
  rw [Checked.addWord_of_lt hadd]
  rfl

/-! ### Halting -/

/-- The only instructions that halt are a return with no call open and a call with no place left. -/
theorem execute_eq_halted_iff {m : Machine} {opcode : Opcode} {origin : UInt16} {i : Instruction}
    (hi : ∀ nnn, i.address? = some nnn → nnn.toNat < 4096) {why : Halt} :
    m.execute opcode origin i = .halted why ↔
      (i = .ret ∧ m.stack.pop? = none ∧ why = .error (.returnWithoutCall opcode origin)) ∨
      (∃ nnn, i = .call nnn) ∧ m.stack.push? m.pc = none ∧
        why = .error (.callTooDeep opcode origin) := by
  cases i with
  | ret => cases hp : m.stack.pop? <;> simp [execute, hp, eq_comm]
  | call nnn => cases hp : m.stack.push? m.pc <;> simp [execute, hp, eq_comm]
  | jumpOffset nnn => simp [execute_jumpOffset m opcode origin (hi nnn rfl)]
  | addIndex x => simp [execute_addIndex]
  | pointGlyph x => simp [execute_pointGlyph]
  | _ => simp [execute]

end Machine
end Chip8
