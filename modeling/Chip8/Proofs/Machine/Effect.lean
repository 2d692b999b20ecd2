import Chip8.Proofs.Machine.Frame
import Chip8.Proofs.Machine.Outcome
import Chip8.Proofs.Machine.Run

/-! What an instruction may change, down to single registers and single bytes. The parts of a
machine that are not listed for an instruction stay as they are, and so do the registers and the
bytes that are not listed where a part is. -/
namespace Chip8

namespace Instruction

/-- The registers an instruction may change. -/
def targets : Instruction → List (Fin 16)
  | .setByte x _ | .addByte x _ | .copy x _ | .or x _ | .and x _ | .xor x _ => [x]
  | .random x _ | .getDelay x | .awaitKey x => [x]
  | .add x _ | .subtract x _ | .subtractFrom x _ | .shiftRight x _ | .shiftLeft x _ =>
    [x, RegisterFile.flag]
  | .draw _ _ _ | .addIndex _ => [RegisterFile.flag]
  | .loadRegisters x => Machine.upTo x
  | _ => []

/-- How many bytes from the index on an instruction may change. -/
def span : Instruction → Nat
  | .storeDecimal _ => 3
  | .storeRegisters x => x.val+1
  | _ => 0

end Instruction

lemma RegisterFile.get_foldl_set {ks : List (Fin 16)} {value : Fin 16 → UInt8} {r : Fin 16}
    (h : r ∉ ks) (v : RegisterFile) :
    (ks.foldl (fun v k => v.set k (value k)) v).get r = v.get r := by
  induction ks generalizing v with
  | nil => rfl
  | cons k ks ih =>
    rw [List.mem_cons, not_or] at h
    rw [List.foldl_cons, ih h.2, get_set, if_neg (Ne.symm h.1)]

lemma Memory.read_foldl_write {ks : List (Fin 16)} {place : Fin 16 → Address}
    {value : Fin 16 → UInt8} {a : Address} (h : ∀ k ∈ ks, place k ≠ a) (memory : Memory) :
    (ks.foldl (fun memory k => memory.write (place k) (value k)) memory).read a =
      memory.read a := by
  induction ks generalizing memory with
  | nil => rfl
  | cons k ks ih =>
    obtain ⟨hne, hks⟩ := List.forall_mem_cons.mp h
    rw [List.foldl_cons, ih hks, read_write, if_neg hne]

namespace Machine

variable {m after : Machine} {held : Keypad} {i : Instruction}

lemma mem_upTo {x k : Fin 16} : k ∈ upTo x ↔ k ≤ x := by
  simp [upTo]

/-- The sum of an address wraps at sixteen bits first, which its last twelve bits do not show. -/
lemma val_indexed (m : Machine) (k : UInt16) :
    (m.indexed k).val = (m.index.toNat+k.toNat) % 4096 := by
  rw [indexed, Address.val_ofWord, UInt16.toNat_add]
  omega

/-- The address `k` bytes from where the index points, around the end of the memory. -/
def place (m : Machine) (k : Nat) : Address := .ofNat 4096 (m.index.toNat+k)

lemma indexed_toUInt16 (m : Machine) {k : Nat} (hk : k < 65536) :
    m.indexed k.toUInt16 = m.place k := by
  apply Fin.ext
  rw [val_indexed, Nat.toUInt16_eq, UInt16.toNat_ofNat', Nat.mod_eq_of_lt hk]
  rfl

/-- An instruction leaves every register alone that it does not list. -/
lemma execute_reg {opcode : Opcode} {origin : UInt16} {r : Fin 16}
    (h : (m.execute opcode origin i).result? held = some after) (hr : r ∉ i.targets) :
    after.reg r = m.reg r := by
  by_cases hw : Part.registers ∈ i.writes
  · cases i with
    | setByte x _ | addByte x _ | copy x _ | or x _ | and x _ | xor x _ | random x _ | getDelay x =>
      have hx : x ≠ r := by simpa [Instruction.targets, eq_comm] using hr
      cases h
      simp [reg, setReg, hx]
    | awaitKey x =>
      have hx : x ≠ r := by simpa [Instruction.targets, eq_comm] using hr
      cases h
      dsimp only
      cases held.first? with
      | some key => simp [reg, setReg, hx]
      | none => rfl
    | add x _ | subtract x _ | subtractFrom x _ | shiftRight x _ | shiftLeft x _ =>
      have hx : x ≠ r ∧ RegisterFile.flag ≠ r := by
        simpa [Instruction.targets, eq_comm] using hr
      cases h
      simp [reg, setReg, setFlag, hx]
    | draw x y n =>
      have hx : RegisterFile.flag ≠ r := by simpa [Instruction.targets, eq_comm] using hr
      cases h
      simp [draw, reg, setFlag, hx]
    | addIndex x =>
      have hx : RegisterFile.flag ≠ r := by simpa [Instruction.targets, eq_comm] using hr
      obtain ⟨sum, rfl⟩ := result?_ofChecked h
      simp [addIndex, reg, setFlag, hx]
    | loadRegisters x =>
      cases h
      exact RegisterFile.get_foldl_set hr m.registers
    | _ => simp [Instruction.writes] at hw
  · have hsame : after.registers = m.registers := execute_frame (p := .registers) h hw
    rw [reg, hsame, reg]

/-- An instruction leaves every byte alone that it does not list. -/
lemma execute_read {opcode : Opcode} {origin : UInt16} {a : Address}
    (h : (m.execute opcode origin i).result? held = some after)
    (ha : ∀ k < i.span, a.val ≠ (m.index.toNat+k) % 4096) :
    after.memory.read a = m.memory.read a := by
  have hplace : ∀ k : UInt16, k.toNat < i.span → m.indexed k ≠ a := fun k hk he =>
    ha k.toNat hk (he ▸ m.val_indexed k)
  by_cases hw : Part.memory ∈ i.writes
  · cases i with
    | storeDecimal x =>
      have h0 : m.indexed 0 ≠ a := hplace 0 (Nat.succ_pos 2)
      have h1 : m.indexed 1 ≠ a := hplace 1 (Nat.lt_add_one_of_lt (Nat.lt_add_one 1))
      have h2 : m.indexed 2 ≠ a := hplace 2 (Nat.lt_add_one 2)
      cases h
      simp [storeDecimal, h0, h1, h2]
    | storeRegisters x =>
      cases h
      refine Memory.read_foldl_write (fun k hk => hplace _ ?_) m.memory
      have hle : k.val ≤ x.val := mem_upTo.mp hk
      have hk16 : k.val.toUInt16.toNat = k.val := by
        rw [Nat.toUInt16_eq, UInt16.toNat_ofNat']
        omega
      rw [hk16, Instruction.span]
      omega
    | _ => simp [Instruction.writes] at hw
  · have hsame : after.memory = m.memory := execute_frame (p := .memory) h hw
    rw [hsame]

/-! ### Questions for the held keys -/

lemma step_asked (hi : m.instruction? = some i) (held : Keypad) :
    (m.step held).asked =
      if i matches .skipHeld _ | .skipNotHeld _ | .awaitKey _ then 1 else 0 := by
  rw [step_of_some hi]
  cases i with
  | ret =>
    simp only [execute]
    cases m.advance.stack.pop? <;> rfl
  | call nnn =>
    simp only [execute]
    cases m.advance.stack.push? m.advance.pc <;> rfl
  | jumpOffset nnn =>
    rw [execute_jumpOffset _ _ _ (address_lt hi rfl)]
    rfl
  | addIndex x =>
    rw [execute_addIndex]
    rfl
  | pointGlyph x =>
    rw [execute_pointGlyph]
    rfl
  | _ => rfl

/-- A slot in which nobody asks is the same whatever keys are held. -/
lemma step_eq_of_asked (h : (m.step held).asked = 0) (other : Keypad) :
    m.step other = m.step held := by
  cases hi : m.instruction? with
  | none => rw [step_of_none hi, step_of_none hi]
  | some i =>
    rw [step_of_some hi] at h ⊢
    rw [step_of_some hi]
    cases he : m.advance.execute m.fetch m.pc i with
    | done after => rfl
    | asking answer => simp [he] at h
    | halted why => rfl

/-! ### All effects together -/

/-- A failing slot changes no register and no byte. -/
lemma step_reg (hi : m.instruction? = some i) (held : Keypad) {r : Fin 16} (hr : r ∉ i.targets) :
    (m.step held).machine.reg r = m.reg r := by
  cases hs : (m.step held).result with
  | ok _ =>
    obtain ⟨j, hj, he⟩ := step_ok_iff.mp hs
    obtain rfl := Option.some.inj (hi.symm.trans hj)
    exact execute_reg (m := m.advance) he hr
  | error why =>
    rw [reg, (failing_of_step hs).machine_eq]
    rfl

lemma step_read (hi : m.instruction? = some i) (held : Keypad) {a : Address}
    (ha : ∀ k < i.span, a.val ≠ (m.index.toNat+k) % 4096) :
    (m.step held).machine.memory.read a = m.memory.read a := by
  cases hs : (m.step held).result with
  | ok _ =>
    obtain ⟨j, hj, he⟩ := step_ok_iff.mp hs
    obtain rfl := Option.some.inj (hi.symm.trans hj)
    exact execute_read (m := m.advance) he ha
  | error why => rw [(failing_of_step hs).machine_eq]

/-- An instruction changes nothing but its counter and what is listed for it here, whether it
succeeds or fails. The registers are the ones it targets, the bytes are those from the index on that
it spans, wrapped at the end of the memory; nothing goes to the devices; and the held keys are asked
for by three instructions only, once by each, so that the others do not depend on them. -/
theorem changes_confined (hi : m.instruction? = some i) (held : Keypad) :
    let after := (m.step held).machine
    (∀ r ∉ i.targets, after.reg r = m.reg r) ∧
    (∀ a : Address, (∀ k < i.span, a.val ≠ (m.index.toNat+k) % 4096) →
      after.memory.read a = m.memory.read a) ∧
    (after.index = m.index ∨ i matches .setIndex _ | .addIndex _ | .pointGlyph _) ∧
    (after.stack = m.stack ∨ i matches .call _ | .ret) ∧
    (after.delay = m.delay ∨ i matches .setDelay _) ∧
    (after.sound = m.sound ∨ i matches .setSound _) ∧
    (after.display = m.display ∨ i matches .clearScreen | .draw _ _ _) ∧
    (after.random = m.random ∨ i matches .random _ _) ∧
    handed (m.log [.tick held]) = [] ∧
    (m.step held).asked =
      (if i matches .skipHeld _ | .skipNotHeld _ | .awaitKey _ then 1 else 0) ∧
    ((m.step held).asked = 0 → ∀ other, m.step other = m.step held) := by
  have hpart : ∀ p, Agree m (m.step held).machine p ∨ p ∈ i.writes := by
    intro p
    by_cases hp : p ∈ i.writes
    · exact .inr hp
    · exact .inl (step_frame held fun j hj => by rwa [← Option.some.inj (hi.symm.trans hj)])
  intro after
  refine ⟨fun r => step_reg hi held, fun a => step_read hi held,
    (hpart .index).imp_right fun h => ?_, (hpart .stack).imp_right fun h => ?_,
    (hpart .delay).imp_right fun h => ?_, (hpart .sound).imp_right fun h => ?_,
    (hpart .display).imp_right fun h => ?_, (hpart .random).imp_right fun h => ?_, rfl,
    step_asked hi held, step_eq_of_asked⟩
  -- a part that is written is one of those its column of the table lists
  all_goals cases i <;> simp [Instruction.writes] at h ⊢

/-- Two registers stored from an index with sixteen bits on: the last byte of the memory and the
first one change, and all others stay. -/
theorem changes_confined_across_end :
    let m : Machine :=
      { powerOn (.loaded Font.glyphs #[0xF1,0x55]) (.ofSeed 0) with
        registers := (RegisterFile.zero.set 0 7).set 1 9, index := 0xFFFF }
    let after := (m.step .released).machine
    m.instruction? = some (.storeRegisters 1) ∧
      after.memory.read 4095 = 7 ∧ after.memory.read 0 = 9 ∧
      (∀ a : Address, a ≠ 4095 → a ≠ 0 → after.memory.read a = m.memory.read a) ∧
      (∀ r, after.reg r = m.reg r) ∧ after.index = 0xFFFF ∧ (m.step .released).asked = 0 := by
  intro m after
  have hm : m.memory = .loaded Font.glyphs #[0xF1,0x55] := rfl
  have hi : m.instruction? = some (.storeRegisters 1) :=
    instruction?_of_loaded (k := 0) hm (by decide) (by decide) rfl rfl rfl
  have hafter : after = m.advance.storeRegisters 1 := by
    change (m.step .released).machine = _
    rw [step_of_some hi]
    rfl
  have hupTo : upTo 1 = [0,1] := by decide
  have hlast : m.indexed 0 = 4095 := by decide
  have hfirst : m.indexed 1 = 0 := by decide
  have hmemory : after.memory = (m.memory.write 4095 7).write 0 9 := by
    rw [hafter, storeRegisters, hupTo, ← hlast, ← hfirst]
    rfl
  obtain ⟨hregs, hbytes, hindex, -, -, -, -, -, -, hasked, -⟩ := changes_confined hi .released
  have hplaces : ∀ a : Address, a ≠ 4095 → a ≠ 0 →
      ∀ k < (Instruction.storeRegisters 1).span, a.val ≠ (m.index.toNat+k) % 4096 := by
    intro a ha ha' k hk
    have hspan : (Instruction.storeRegisters 1).span = 2 := rfl
    have hpos : m.index.toNat = 65535 := rfl
    rw [hspan] at hk
    rw [hpos]
    have hne : a.val ≠ 4095 := fun h => ha (Fin.ext h)
    have hne' : a.val ≠ 0 := fun h => ha' (Fin.ext h)
    omega
  refine ⟨hi, ?_, ?_, fun a ha ha' => hbytes a (hplaces a ha ha'), fun r => hregs r nofun, ?_,
    hasked⟩
  · simp [hmemory]
  · simp [hmemory]
  · exact hindex.resolve_right Bool.false_ne_true

end Machine
end Chip8
