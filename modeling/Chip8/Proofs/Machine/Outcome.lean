import Chip8.Proofs.Instruction
import Chip8.Proofs.Machine.CatchUp
import Chip8.Proofs.Machine.Failure

/-! When a slot fails and what it reports. The word a machine stands on and its call stack decide
it: a word that is not assigned, a return with no frame to take and a call with no place left fail,
and nothing else does. -/
namespace Chip8

namespace Memory

/-- A word is the byte at its address and the one after it, each address taken modulo the size of
the memory. -/
lemma toNat_readWord (m : Memory) (w : UInt16) :
    (m.readWord w).toNat =
      256*(m.read (.ofNat 4096 w.toNat)).toNat+(m.read (.ofNat 4096 (w.toNat+1))).toNat := by
  have hone : (1 : UInt16).toNat = 1 := rfl
  have hleft : Address.ofWord w = .ofNat 4096 w.toNat := rfl
  have hright : Address.ofWord (w+1) = .ofNat 4096 (w.toNat+1) := by
    apply Fin.ext
    change (w+1).toNat % 4096 = (w.toNat+1) % 4096
    rw [UInt16.toNat_add, hone]
    omega
  rw [readWord, hleft, hright]
  generalize m.read _ = left
  generalize m.read _ = right
  have hl := left.toNat_lt
  have hshift : (left.toUInt16 <<< 8).toNat = left.toNat <<< 8 := by
    rw [UInt16.toNat_shiftLeft, UInt8.toNat_toUInt16]
    change left.toNat <<< 8 % 65536 = _
    rw [Nat.mod_eq_of_lt (by rw [Nat.shiftLeft_eq]; omega)]
  rw [UInt16.toNat_or, hshift, UInt8.toNat_toUInt16,
    ← Nat.shiftLeft_add_eq_or_of_lt right.toNat_lt, Nat.shiftLeft_eq]
  omega

end Memory

/-- Whether a halt reports an error that a program cannot go on from. -/
def Halt.isFatal : Halt → Bool
  | .error cause => cause.isFatal
  | .trap _ => false

namespace Machine

variable {m after : Machine} {held : Keypad} {why : Halt}

lemma Failing.isFatal (h : Failing m why after) : why.isFatal = true := by
  cases h <;> rfl

/-- A failing slot changes the counter at most. -/
lemma Failing.machine_eq (h : Failing m why after) : after = { m with pc := after.pc } := by
  cases h <;> rfl

/-! ### The three causes -/

/-- What a failing slot stands on, and what it reports. -/
theorem step_error_iff :
    (m.step held).result = .error why ↔
      (m.instruction? = none ∧ why = .error (.unknownOpcode m.fetch m.pc)) ∨
      ((m.instruction? = some .ret ∧ m.stack.frames = []) ∧
        why = .error (.returnWithoutCall m.fetch m.pc)) ∨
      (((∃ nnn, m.instruction? = some (.call nnn)) ∧ m.stack.depth = CallStack.capacity) ∧
        why = .error (.callTooDeep m.fetch m.pc)) := by
  constructor
  · intro h
    have hf := failing_of_step h
    generalize (m.step held).machine = after at hf
    cases hf with
    | unknownOpcode hi => exact .inl ⟨hi, rfl⟩
    | returnWithoutCall hi hs => exact .inr (.inl ⟨⟨hi, hs⟩, rfl⟩)
    | callTooDeep hi hs => exact .inr (.inr ⟨⟨⟨_, hi⟩, hs⟩, rfl⟩)
  · rintro (⟨hi, rfl⟩ | ⟨⟨hi, hs⟩, rfl⟩ | ⟨⟨⟨nnn, hi⟩, hs⟩, rfl⟩)
    · rw [step_of_none hi]
    · have hp : m.advance.stack.pop? = none := CallStack.pop?_eq_none_iff.mpr hs
      simp only [step_of_some hi, execute, hp]
    · have hp : m.advance.stack.push? m.advance.pc = none := CallStack.push?_eq_none_iff.mpr hs
      simp only [step_of_some hi, execute, hp]

theorem step_unknownOpcode_iff :
    (m.step held).result = .error (.error (.unknownOpcode m.fetch m.pc)) ↔
      ¬ m.fetch.split.Assigned := by
  rw [← Instruction.ofFields_eq_none_iff, ← instruction?_eq, step_error_iff]
  simp

/-- An unknown word is not moved past. -/
lemma machine_of_unknownOpcode
    (h : (m.step held).result = .error (.error (.unknownOpcode m.fetch m.pc))) :
    (m.step held).machine = m := by
  have hi : m.instruction? = none := by
    rw [instruction?_eq, Instruction.ofFields_eq_none_iff]
    exact step_unknownOpcode_iff.mp h
  rw [step_of_none hi]

theorem step_returnWithoutCall_iff :
    (m.step held).result = .error (.error (.returnWithoutCall m.fetch m.pc)) ↔
      (m.fetch.split.kind = 0x0 ∧ m.fetch.split.nn = 0xEE) ∧ m.stack.frames = [] := by
  rw [← Instruction.ofFields_eq_ret_iff, ← instruction?_eq, step_error_iff]
  simp

theorem step_callTooDeep_iff :
    (m.step held).result = .error (.error (.callTooDeep m.fetch m.pc)) ↔
      m.fetch.split.kind = 0x2 ∧ m.stack.depth = CallStack.capacity := by
  rw [← Instruction.ofFields_eq_call_iff, ← instruction?_eq, step_error_iff]
  simp

/-- Where none of the three causes is there, a slot succeeds. -/
theorem step_ok_iff_no_cause :
    (m.step held).result = .ok () ↔
      (m.step held).result ≠ .error (.error (.unknownOpcode m.fetch m.pc)) ∧
      (m.step held).result ≠ .error (.error (.returnWithoutCall m.fetch m.pc)) ∧
      (m.step held).result ≠ .error (.error (.callTooDeep m.fetch m.pc)) := by
  constructor
  · intro h
    simp [h]
  · rintro ⟨hword, hret, hcall⟩
    cases hr : (m.step held).result with
    | ok _ => rfl
    | error why =>
      rcases step_error_iff.mp hr with ⟨-, rfl⟩ | ⟨-, rfl⟩ | ⟨-, rfl⟩
      · exact absurd hr hword
      · exact absurd hr hret
      · exact absurd hr hcall

/-! ### Errors of running and of loading -/

/-- Catching up fails with the error of one of its instructions. -/
lemma isFatal_of_catchUp {σ : Type} {ask : σ → Keypad × σ} {c : Console σ} {schedule : Schedule}
    {now : Nat} (h : (c.catchUp ask schedule now).result = .error why) : why.isFatal = true := by
  obtain ⟨j, -, ⟨-, hfails⟩, -⟩ := Console.failsAfter_of_catchUp h
  have hstep : ((c.ticked ask j).machine.step (ask (c.ticked ask j).pad).1).result = .error why :=
    hfails
  exact (failing_of_step hstep).isFatal

lemma not_isFatal_of_boot {font rom : Array UInt8} {random : Random} {cause : Error}
    (h : boot font rom random = .error cause) : cause.isFatal = false := by
  rcases boot_eq_error_iff.mp h with ⟨-, rfl⟩ | ⟨-, -, rfl⟩ <;> rfl

/-- Exactly when a slot fails, what it reports and what it leaves. The word is made of the bytes at
the counter and behind it. A slot reports an unknown word for a word that is not assigned, a return
without a call for `0_EE` with no frame on the stack, and a call too deep for `2NNN` with sixteen
frames; otherwise it succeeds. Failing changes the counter at most, and not even that for an unknown
word. The errors of a running machine, caught up or not, are all fatal, whatever its pad answers,
and those of switching it on are not. -/
theorem step_fails_exactly (m : Machine) (held : Keypad) :
    let w := m.fetch
    let slot := m.step held
    let noFrame := (w.split.kind = 0x0 ∧ w.split.nn = 0xEE) ∧ m.stack.frames = []
    let noPlace := w.split.kind = 0x2 ∧ m.stack.depth = 16
    w.code.toNat = 256*(m.memory.read (.ofNat 4096 m.pc.toNat)).toNat+
      (m.memory.read (.ofNat 4096 (m.pc.toNat+1))).toNat ∧
    (slot.result = .error (.error (.unknownOpcode w m.pc)) ↔ ¬ w.split.Assigned) ∧
    (slot.result = .error (.error (.returnWithoutCall w m.pc)) ↔ noFrame) ∧
    (slot.result = .error (.error (.callTooDeep w m.pc)) ↔ noPlace) ∧
    (slot.result = .ok () ↔ w.split.Assigned ∧ ¬ noFrame ∧ ¬ noPlace) ∧
    (∀ why, slot.result = .error why →
      slot.machine = { m with pc := slot.machine.pc } ∧
      (why = .error (.unknownOpcode w m.pc) → slot.machine = m) ∧ why.isFatal = true) ∧
    (∀ {σ : Type} (ask : σ → Keypad × σ) pad schedule now why,
      (Console.catchUp ask ⟨m, pad⟩ schedule now).result = .error why → why.isFatal = true) ∧
    ∀ font rom random cause, boot font rom random = .error cause → cause.isFatal = false := by
  intro w slot noFrame noPlace
  refine ⟨m.memory.toNat_readWord m.pc, step_unknownOpcode_iff, step_returnWithoutCall_iff,
    step_callTooDeep_iff, ?_, fun why h => ?_, fun _ _ _ _ _ => isFatal_of_catchUp,
    fun _ _ _ _ => not_isFatal_of_boot⟩
  · have hok : (m.step held).result = .ok () ↔ _ := step_ok_iff_no_cause
    rwa [Ne, step_unknownOpcode_iff, Ne, step_returnWithoutCall_iff, Ne, step_callTooDeep_iff,
      Classical.not_not] at hok
  · have hf := failing_of_step h
    refine ⟨hf.machine_eq, fun hw => ?_, hf.isFatal⟩
    rw [hw] at h
    exact machine_of_unknownOpcode h

/-- A return at the end of the memory, its second byte at the start and its second digit not zero,
with no call open. -/
theorem step_fails_exactly_across_end :
    let m : Machine :=
      { powerOn ((Memory.blank.write 4095 0x0A).write 0 0xEE) (.ofSeed 0) with pc := 0xFFFF }
    m.fetch = ⟨0x0AEE⟩ ∧
      (m.step .released).result = .error (.error (.returnWithoutCall ⟨0x0AEE⟩ 0xFFFF)) ∧
      (m.step .released).machine = { m with pc := (m.step .released).machine.pc } := by
  intro m
  obtain ⟨hword, -, hret, -, -, hleft, -⟩ := step_fails_exactly m .released
  have hf : m.fetch = ⟨0x0AEE⟩ := by
    have hpc : m.pc.toNat = 65535 := rfl
    have hl : m.memory.read (.ofNat 4096 65535) = 0x0A := by
      have ha : (.ofNat 4096 65535 : Address) = 4095 := by decide
      rw [ha]
      simp [m, powerOn]
    have hr : m.memory.read (.ofNat 4096 65536) = 0xEE := by
      have ha : (.ofNat 4096 65536 : Address) = 0 := by decide
      rw [ha]
      simp [m, powerOn]
    rw [hpc] at hword
    rw [hl, hr] at hword
    exact congrArg Opcode.mk (UInt16.toNat_inj.mp hword)
  rw [hf] at hret
  have hresult := hret.mpr ⟨by decide, rfl⟩
  exact ⟨hf, hresult, (hleft _ hresult).1⟩

end Machine
end Chip8
