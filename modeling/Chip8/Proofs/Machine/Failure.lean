import Chip8.Proofs.Machine.Boot

/-! Failing slots. A slot fails on a word without an instruction, on a return with no call open and
on a call with no place left. The first of these leaves the machine as it was, so that trying again
fails the same way; the other two have already moved the counter behind the instruction. -/
namespace Chip8

/-- The counter an error of a running program names. -/
def Halt.origin? : Halt → Option UInt16
  | .error (.unknownOpcode _ pc) => some pc
  | .error (.returnWithoutCall _ pc) => some pc
  | .error (.callTooDeep _ pc) => some pc
  | _ => none

namespace Machine

/-- Everything a failing slot can be: its cause and the machine it leaves. -/
inductive Failing (m : Machine) : Halt → Machine → Prop
  | unknownOpcode (h : m.instruction? = none) :
      Failing m (.error (.unknownOpcode m.fetch m.pc)) m
  | returnWithoutCall (h : m.instruction? = some .ret) (hs : m.stack.frames = []) :
      Failing m (.error (.returnWithoutCall m.fetch m.pc)) m.advance
  | callTooDeep {nnn : UInt16} (h : m.instruction? = some (.call nnn))
      (hs : m.stack.depth = CallStack.capacity) :
      Failing m (.error (.callTooDeep m.fetch m.pc)) m.advance

theorem failing_of_step {m : Machine} {held : Keypad} {why : Halt}
    (h : (m.step held).result = .error why) : Failing m why (m.step held).machine := by
  cases hi : m.instruction? with
  | none =>
    rw [step_of_none hi] at h ⊢
    cases h
    exact .unknownOpcode hi
  | some i =>
    rw [step_of_some hi] at h ⊢
    cases he : m.advance.execute m.fetch m.pc i with
    | done after => simp [he] at h
    | asking answer => simp [he] at h
    | halted cause =>
      simp only [he, Except.error.injEq] at h ⊢
      subst cause
      have hcause := (execute_eq_halted_iff fun nnn ha => address_lt hi ha).mp he
      rcases hcause with ⟨rfl, hp, rfl⟩ | ⟨⟨nnn, rfl⟩, hp, rfl⟩
      · exact .returnWithoutCall hi (CallStack.pop?_eq_none_iff.mp hp)
      · exact .callTooDeep hi (CallStack.push?_eq_none_iff.mp hp)

/-- An error names the counter its word was fetched from, not the one that was moved on. -/
theorem Failing.origin {m after : Machine} {why : Halt} (h : Failing m why after) :
    why.origin? = some m.pc := by
  cases h <;> rfl

/-- Moving on never ends where it began. -/
lemma advance_pc_ne (m : Machine) : m.advance.pc ≠ m.pc := by
  intro h
  have htwo : (2 : UInt16).toNat = 2 := rfl
  have hn : (m.pc+2).toNat % 4096 = m.pc.toNat := by
    rw [← toNat_wrap]
    exact congrArg UInt16.toNat h
  rw [UInt16.toNat_add, htwo] at hn
  omega

lemma advance_ne (m : Machine) : m.advance ≠ m := fun h => m.advance_pc_ne (congrArg pc h)

/-- Once the counter has moved on, no slot fails with the same report. -/
lemma Failing.step_advance_ne {m : Machine} {why : Halt} (h : Failing m why m.advance)
    (again : Keypad) : (m.advance.step again).result ≠ .error why := by
  intro hagain
  have hpc := (failing_of_step hagain).origin
  rw [h.origin] at hpc
  exact m.advance_pc_ne (Option.some.inj hpc).symm

/-- A failing slot leaves the machine as it was, and fails the same way when it is tried again, for
a word without an instruction and for no other cause. For the other two causes it moves the counter
on and changes nothing else. -/
theorem failed_step_unchanged_iff {m : Machine} {held : Keypad} {why : Halt}
    (h : (m.step held).result = .error why) :
    ((m.step held).machine = m ↔ why = .error (.unknownOpcode m.fetch m.pc)) ∧
    (∀ again, ((m.step held).machine.step again).result = .error why ↔
      why = .error (.unknownOpcode m.fetch m.pc)) ∧
    (why ≠ .error (.unknownOpcode m.fetch m.pc) →
      (why = .error (.returnWithoutCall m.fetch m.pc) ∨
        why = .error (.callTooDeep m.fetch m.pc)) ∧
      (m.step held).machine = { m with pc := wrap (m.pc+2) }) := by
  have hf := failing_of_step h
  generalize hafter : (m.step held).machine = after at hf ⊢
  cases hf with
  | unknownOpcode hi =>
    refine ⟨by simp, fun again => ?_, fun hne => absurd rfl hne⟩
    rw [step_of_none hi]
    simp
  | returnWithoutCall hi hs =>
    have hf := Failing.returnWithoutCall hi hs
    refine ⟨by simp [m.advance_ne], fun again => ?_, fun _ => ⟨.inl rfl, rfl⟩⟩
    simp [hf.step_advance_ne again]
  | callTooDeep hi hs =>
    have hf := Failing.callTooDeep hi hs
    refine ⟨by simp [m.advance_ne], fun again => ?_, fun _ => ⟨.inr rfl, rfl⟩⟩
    simp [hf.step_advance_ne again]

/-- A program that calls itself over and over, with every place of the call stack taken. -/
theorem failed_step_unchanged_iff_call_too_deep :
    let m : Machine :=
      { powerOn (.loaded Font.glyphs #[0x22,0x00]) (.ofSeed 0) with
        stack := ⟨List.replicate 16 0x202, by decide⟩ }
    (m.step .released).result = .error (.error (.callTooDeep ⟨0x2200⟩ 0x200)) ∧
      (m.step .released).machine ≠ m ∧ (m.step .released).machine = { m with pc := 0x202 } := by
  intro m
  have hm : m.memory = .loaded Font.glyphs #[0x22,0x00] := rfl
  have hf : m.fetch = ⟨0x2200⟩ := fetch_of_loaded (k := 0) hm (by decide) (by decide) rfl rfl
  have hi : m.instruction? = some (.call 0x200) := by
    rw [instruction?_eq, hf]
    rfl
  have hr : (m.step .released).result = .error (.error (.callTooDeep ⟨0x2200⟩ 0x200)) := by
    rw [step_of_some hi, hf]
    rfl
  obtain ⟨hsame, -, hmoved⟩ := failed_step_unchanged_iff hr
  refine ⟨hr, ?_, ?_⟩
  · rw [Ne, hsame]
    simp
  · have hpc : wrap (m.pc+2) = 0x202 := by decide
    rw [(hmoved (by simp)).2, hpc]

/-- A return with no call open is passed over: the slot after it runs the next instruction. -/
theorem return_without_call_passed_over :
    ∃ m, boot Font.glyphs #[0x00,0xEE,0x60,0x12] (.ofSeed 0) = .ok m ∧
      (m.step .released).result = .error (.error (.returnWithoutCall ⟨0x00EE⟩ 0x200)) ∧
      (m.step .released).machine ≠ m ∧ (m.step .released).machine.pc = 0x202 ∧
      ((m.step .released).machine.step .released).result = .ok () := by
  let m := powerOn (.loaded Font.glyphs #[0x00,0xEE,0x60,0x12]) (.ofSeed 0)
  have hm : m.memory = .loaded Font.glyphs #[0x00,0xEE,0x60,0x12] := rfl
  have hf : m.fetch = ⟨0x00EE⟩ := fetch_of_loaded (k := 0) hm (by decide) (by decide) rfl rfl
  have hi : m.instruction? = some .ret := by
    rw [instruction?_eq, hf]
    rfl
  have hs : m.step .released =
      ⟨m.advance, .error (.error (.returnWithoutCall ⟨0x00EE⟩ 0x200)), 0⟩ := by
    rw [step_of_some hi, hf]
    rfl
  have hm' : m.advance.memory = .loaded Font.glyphs #[0x00,0xEE,0x60,0x12] := rfl
  have hf' : m.advance.fetch = ⟨0x6012⟩ :=
    fetch_of_loaded (k := 2) hm' (by decide) (by decide) rfl rfl
  have hi' : m.advance.instruction? = some (.setByte 0 0x12) := by
    rw [instruction?_eq, hf']
    rfl
  refine ⟨m, boot_eq_ok_iff.mpr ⟨by decide, by decide, rfl⟩, ?_⟩
  rw [hs]
  have hpc : m.advance.pc = 0x202 := by decide
  refine ⟨rfl, m.advance_ne, hpc, ?_⟩
  rw [step_of_some hi']
  rfl

end Machine
end Chip8
