import Chip8.Proofs.Machine.Effect

/-! Registers put into memory and taken back. Wherever the index points, the sixteen addresses from
there on are different ones, so that a row of registers and its row of bytes determine each other. A
byte that is put there in decimal comes back as its three digits. -/
namespace Chip8

lemma RegisterFile.get_foldl_set_of_mem {ks : List (Fin 16)} {value : Fin 16 → UInt8} {r : Fin 16}
    (h : r ∈ ks) (v : RegisterFile) :
    (ks.foldl (fun v k => v.set k (value k)) v).get r = value r := by
  induction ks generalizing v with
  | nil => cases h
  | cons k ks ih =>
    rw [List.foldl_cons]
    by_cases hr : r ∈ ks
    · exact ih hr _
    · obtain rfl : r = k := (List.mem_cons.mp h).resolve_right hr
      rw [get_foldl_set hr, get_set, if_pos rfl]

/-- Bytes written to different places are all there in the end. -/
lemma Memory.read_foldl_write_of_mem {ks : List (Fin 16)} {place : Fin 16 → Address}
    {value : Fin 16 → UInt8} (hplace : Function.Injective place) {r : Fin 16} (h : r ∈ ks)
    (memory : Memory) :
    (ks.foldl (fun memory k => memory.write (place k) (value k)) memory).read (place r) =
      value r := by
  induction ks generalizing memory with
  | nil => cases h
  | cons k ks ih =>
    rw [List.foldl_cons]
    by_cases hr : r ∈ ks
    · exact ih hr _
    · obtain rfl : r = k := (List.mem_cons.mp h).resolve_right hr
      have hlater : ∀ k ∈ ks, place k ≠ place r := by
        intro k hk he
        exact hr (hplace he ▸ hk)
      rw [read_foldl_write hlater, read_write, if_pos rfl]

namespace Machine

variable {m later : Machine} {x k : Fin 16} {a : Address}

lemma indexed_eq_place (m : Machine) (k : Fin 16) : m.indexed k.val.toUInt16 = m.place k :=
  m.indexed_toUInt16 (by omega)

lemma place_injective (m : Machine) : Function.Injective fun k : Fin 16 => m.place k := by
  intro k l h
  apply Fin.ext
  have hval : (m.index.toNat+k.val) % 4096 = (m.index.toNat+l.val) % 4096 := congrArg Fin.val h
  omega

lemma memory_storeRegisters (m : Machine) (x : Fin 16) :
    (m.storeRegisters x).memory =
      (upTo x).foldl (fun memory k => memory.write (m.place k) (m.reg k)) m.memory := by
  simp only [storeRegisters, indexed_eq_place]

lemma read_storeRegisters (hk : k ≤ x) :
    (m.storeRegisters x).memory.read (m.place k) = m.reg k := by
  rw [memory_storeRegisters]
  exact Memory.read_foldl_write_of_mem m.place_injective (mem_upTo.mpr hk) m.memory

lemma read_storeRegisters_of_ne (ha : ∀ k ≤ x, a ≠ m.place k) :
    (m.storeRegisters x).memory.read a = m.memory.read a := by
  rw [memory_storeRegisters]
  exact Memory.read_foldl_write (fun k hk => (ha k (mem_upTo.mp hk)).symm) m.memory

lemma registers_loadRegisters (m : Machine) (x : Fin 16) :
    (m.loadRegisters x).registers =
      (upTo x).foldl (fun v k => v.set k (m.memory.read (m.place k))) m.registers := by
  simp only [loadRegisters, indexed_eq_place]

lemma reg_loadRegisters (hk : k ≤ x) : (m.loadRegisters x).reg k = m.memory.read (m.place k) := by
  rw [reg, registers_loadRegisters]
  exact RegisterFile.get_foldl_set_of_mem (mem_upTo.mpr hk) m.registers

lemma reg_loadRegisters_of_lt (hk : x < k) : (m.loadRegisters x).reg k = m.reg k := by
  rw [reg, registers_loadRegisters]
  refine RegisterFile.get_foldl_set (fun h => ?_) m.registers
  exact Nat.not_le_of_lt hk (mem_upTo.mp h)

/-- The three digits of a byte, at three different places. -/
lemma read_storeDecimal (m : Machine) (value : UInt8) :
    (m.storeDecimal value).memory.read (m.place 0) = value / 100 ∧
      (m.storeDecimal value).memory.read (m.place 1) = value / 10 % 10 ∧
      (m.storeDecimal value).memory.read (m.place 2) = value % 10 := by
  have hplaces : m.indexed 0 = m.place 0 ∧ m.indexed 1 = m.place 1 ∧ m.indexed 2 = m.place 2 :=
    ⟨m.indexed_eq_place 0, m.indexed_eq_place 1, m.indexed_eq_place 2⟩
  have hne : ∀ k l : Fin 16, k ≠ l → m.place k ≠ m.place l := fun _ _ => m.place_injective.ne
  have h10 : m.place 1 ≠ m.place 0 := hne 1 0 (by decide)
  have h20 : m.place 2 ≠ m.place 0 := hne 2 0 (by decide)
  have h21 : m.place 2 ≠ m.place 1 := hne 2 1 (by decide)
  simp [storeDecimal, hplaces, h10, h20, h21]

lemma decimal_eq (value : UInt8) :
    (value / 100 < 10 ∧ value / 10 % 10 < 10 ∧ value % 10 < 10) ∧
      100*(value / 100).toNat+10*(value / 10 % 10).toNat+(value % 10).toNat = value.toNat := by
  have hlt := value.toNat_lt
  have hten : (10 : UInt8).toNat = 10 := rfl
  have hhundred : (100 : UInt8).toNat = 100 := rfl
  simp only [UInt8.lt_iff_toNat_lt, UInt8.toNat_div, UInt8.toNat_mod, hten, hhundred]
  omega

/-- Two machines with the same memory and the same index into it; all else may differ. -/
structure SamePlaces (m later : Machine) : Prop where
  memory : later.memory = m.memory
  index : later.index = m.index

lemma SamePlaces.place_eq (h : m.SamePlaces later) (k : Nat) : later.place k = m.place k := by
  rw [place, h.index, place]

/-! ### One block after the other -/

lemma reg_load_after_store {x' : Fin 16} (h : (m.storeRegisters x).SamePlaces later) (hx : x' ≤ x)
    (hk : k ≤ x') : (later.loadRegisters x').reg k = m.reg k := by
  rw [reg_loadRegisters hk, h.memory, h.place_eq]
  exact read_storeRegisters (Fin.le_trans hk hx)

lemma memory_store_after_load {x' : Fin 16} (h : (m.loadRegisters x).SamePlaces later)
    (hr : later.registers = (m.loadRegisters x).registers) (hx : x' ≤ x) :
    (later.storeRegisters x').memory = m.memory := by
  have hmemory : later.memory = m.memory := h.memory
  ext a
  by_cases ha : ∃ k ≤ x', a = later.place k
  · obtain ⟨k, hk, rfl⟩ := ha
    have hreg : later.reg k = (m.loadRegisters x).reg k := by rw [reg, hr, reg]
    have hplace : later.place k = m.place k := h.place_eq k
    rw [read_storeRegisters hk, hreg, reg_loadRegisters (Fin.le_trans hk hx), hplace]
  · rw [read_storeRegisters_of_ne fun k hk he => ha ⟨k, hk, he⟩, hmemory]

lemma reg_load_after_decimal {value : UInt8} (h : (m.storeDecimal value).SamePlaces later) :
    (later.loadRegisters 2).reg 0 = value / 100 ∧
      (later.loadRegisters 2).reg 1 = value / 10 % 10 ∧
      (later.loadRegisters 2).reg 2 = value % 10 := by
  rw [reg_loadRegisters (by decide), reg_loadRegisters (by decide), reg_loadRegisters (by decide),
    h.memory, h.place_eq, h.place_eq, h.place_eq]
  exact m.read_storeDecimal value

/-! ### The instructions -/

lemma step_of_storeRegisters (hw : m.fetch = .ofDigits 0xF x 5 5) (held : Keypad) :
    m.step held = ⟨m.advance.storeRegisters x, .ok (), 0⟩ :=
  step_of_done (instruction?_of_digits hw) rfl held

lemma step_of_loadRegisters (hw : m.fetch = .ofDigits 0xF x 6 5) (held : Keypad) :
    m.step held = ⟨m.advance.loadRegisters x, .ok (), 0⟩ :=
  step_of_done (instruction?_of_digits hw) rfl held

lemma step_of_storeDecimal (hw : m.fetch = .ofDigits 0xF x 3 3) (held : Keypad) :
    m.step held = ⟨m.advance.storeDecimal (m.reg x), .ok (), 0⟩ :=
  step_of_done (instruction?_of_digits hw) rfl held

/-- Storing and loading undo each other, wherever the index points. Storing writes each register to
its place and changes nothing else; loading as many or fewer afterwards brings these back, whatever
the registers came to hold in between, and no others; storing what was loaded leaves the memory as
it is; and a byte stored in decimal is loaded as its three digits. Between the two instructions
memory and index stay, and the second may stand anywhere. -/
theorem store_load_inverse (m : Machine) (held : Keypad) {x x' : Fin 16} (hx : x' ≤ x) :
    let slot := m.step held
    let after := slot.machine
    (m.fetch = .ofDigits 0xF x 5 5 →
      slot.result = .ok () ∧ (∀ k ≤ x, after.memory.read (m.place k) = m.reg k) ∧
      (∀ a, (∀ k ≤ x, a ≠ m.place k) → after.memory.read a = m.memory.read a) ∧
      after.registers = m.registers ∧ after.index = m.index ∧
      ∀ later again, after.SamePlaces later → later.fetch = .ofDigits 0xF x' 6 5 →
        let last := later.step again
        last.result = .ok () ∧ (∀ k ≤ x', last.machine.reg k = m.reg k) ∧
          ∀ k, x' < k → last.machine.reg k = later.reg k) ∧
    (m.fetch = .ofDigits 0xF x 6 5 →
      slot.result = .ok () ∧
      ∀ later again, after.SamePlaces later → later.registers = after.registers →
        later.fetch = .ofDigits 0xF x' 5 5 →
        let last := later.step again
        last.result = .ok () ∧ last.machine.memory = m.memory) ∧
    (m.fetch = .ofDigits 0xF x 3 3 →
      slot.result = .ok () ∧
      ∀ later again, after.SamePlaces later → later.fetch = .ofDigits 0xF 2 6 5 →
        let last := later.step again
        last.result = .ok () ∧
          (last.machine.reg 0 < 10 ∧ last.machine.reg 1 < 10 ∧ last.machine.reg 2 < 10) ∧
          100*(last.machine.reg 0).toNat+10*(last.machine.reg 1).toNat+
            (last.machine.reg 2).toNat = (m.reg x).toNat) := by
  intro slot after
  refine ⟨fun hw => ?_, fun hw => ?_, fun hw => ?_⟩
  · have hslot : slot = ⟨m.advance.storeRegisters x, .ok (), 0⟩ := step_of_storeRegisters hw held
    have hafter : after = m.advance.storeRegisters x := congrArg Step.machine hslot
    rw [hslot, hafter]
    refine ⟨rfl, fun k hk => ?_, fun a ha => ?_, rfl, rfl, fun later again h hw' => ?_⟩
    · exact read_storeRegisters (m := m.advance) hk
    · exact read_storeRegisters_of_ne (m := m.advance) ha
    · have h' : (m.advance.storeRegisters x).SamePlaces later.advance := ⟨h.memory, h.index⟩
      rw [step_of_loadRegisters hw']
      refine ⟨rfl, fun k hk => ?_, fun k hk => ?_⟩
      · exact reg_load_after_store (m := m.advance) h' hx hk
      · exact reg_loadRegisters_of_lt (m := later.advance) hk
  · have hslot : slot = ⟨m.advance.loadRegisters x, .ok (), 0⟩ := step_of_loadRegisters hw held
    have hafter : after = m.advance.loadRegisters x := congrArg Step.machine hslot
    rw [hslot, hafter]
    refine ⟨rfl, fun later again h hr hw' => ?_⟩
    have h' : (m.advance.loadRegisters x).SamePlaces later.advance := ⟨h.memory, h.index⟩
    rw [step_of_storeRegisters hw']
    exact ⟨rfl, memory_store_after_load (m := m.advance) h' hr hx⟩
  · have hslot : slot = ⟨m.advance.storeDecimal (m.reg x), .ok (), 0⟩ :=
      step_of_storeDecimal hw held
    have hafter : after = m.advance.storeDecimal (m.reg x) := congrArg Step.machine hslot
    rw [hslot, hafter]
    refine ⟨rfl, fun later again h hw' => ?_⟩
    have h' : (m.advance.storeDecimal (m.reg x)).SamePlaces later.advance := ⟨h.memory, h.index⟩
    rw [step_of_loadRegisters hw']
    obtain ⟨h0, h1, h2⟩ := reg_load_after_decimal h'
    refine ⟨rfl, ?_⟩
    simp only [h0, h1, h2]
    exact decimal_eq (m.reg x)

/-- Three registers stored over the end of the memory, with an index that points past it, and two of
them loaded after all registers were cleared. -/
theorem store_load_inverse_across_end :
    ∃ m : Machine, m.memory = .loaded Font.glyphs #[0xF2,0x55,0xF1,0x65] ∧ m.index = 0x1FFE ∧
      m.reg 0 = 7 ∧ m.reg 1 = 9 ∧ m.reg 2 = 11 ∧ m.fetch = .ofDigits 0xF 2 5 5 ∧
      let after := (m.step .released).machine
      let later := { after with registers := .zero, pc := 0x202 }
      let last := (later.step .released).machine
      after.memory.read 4095 = 9 ∧ after.memory.read 0 = 11 ∧
      later.fetch = .ofDigits 0xF 1 6 5 ∧ last.reg 0 = 7 ∧ last.reg 1 = 9 ∧ last.reg 2 = 0 := by
  -- of the machine only these facts are kept, so that nothing below unfolds its memory
  obtain ⟨m, hm, hpc, hindex, h0, h1, h2⟩ : ∃ m : Machine,
      m.memory = .loaded Font.glyphs #[0xF2,0x55,0xF1,0x65] ∧ m.pc = 0x200 ∧ m.index = 0x1FFE ∧
        m.reg 0 = 7 ∧ m.reg 1 = 9 ∧ m.reg 2 = 11 := by
    refine ⟨{ powerOn (.loaded Font.glyphs #[0xF2,0x55,0xF1,0x65]) (.ofSeed 0) with
      registers := ((RegisterFile.zero.set 0 7).set 1 9).set 2 11, index := 0x1FFE },
      rfl, by decide, rfl, ?_⟩
    simp [reg]
  have hw : m.fetch = .ofDigits 0xF 2 5 5 :=
    (fetch_of_start hm hpc rfl rfl).trans (by decide)
  obtain ⟨-, hstored, hothers, -, -, hloaded⟩ :=
    (store_load_inverse m .released (show (1 : Fin 16) ≤ 2 by decide)).1 hw
  have hplaces : m.place 0 = 4094 ∧ m.place 1 = 4095 ∧ m.place 2 = 0 := by
    rw [place, place, place, hindex]
    decide
  have hbehind : ∀ a : Address, 2 < a.val → a.val < 4094 →
      (m.step .released).machine.memory.read a = m.memory.read a := by
    intro a hlow hhigh
    refine hothers a fun k _ he => ?_
    have hval : a.val = (m.index.toNat+k.val) % 4096 := congrArg Fin.val he
    have hpos : m.index.toNat = 8190 := by rw [hindex]; rfl
    omega
  let later : Machine := { (m.step .released).machine with registers := .zero, pc := 0x202 }
  have hsame : (m.step .released).machine.SamePlaces later := ⟨rfl, rfl⟩
  have hw' : later.fetch = .ofDigits 0xF 1 6 5 := by
    have hleft := hbehind (.ofWord 0x202) (by decide) (by decide)
    have hright := hbehind (.ofWord (0x202+1)) (by decide) (by decide)
    change Opcode.mk ((m.step .released).machine.memory.readWord 0x202) = _
    rw [Memory.readWord, hleft, hright, ← Memory.readWord, hm,
      Memory.readWord_loaded (k := 2) rfl (by decide) rfl rfl]
    decide
  obtain ⟨-, hlow, hhigh⟩ := hloaded later .released hsame hw'
  refine ⟨m, hm, hindex, h0, h1, h2, hw, ?_, ?_, hw', (hlow 0 (by decide)).trans h0,
    (hlow 1 (by decide)).trans h1, ?_⟩
  · rw [← hplaces.2.1]
    exact (hstored 1 (by decide)).trans h1
  · rw [← hplaces.2.2]
    exact (hstored 2 (by decide)).trans h2
  · rw [hhigh 2 (by decide), reg, RegisterFile.get_zero]

end Machine
end Chip8
