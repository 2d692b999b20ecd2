import Chip8.Proofs.Machine.Step

/-! Machines as they are switched on: exactly the images that fit give one, and its memory is read
from them. -/
namespace Chip8

namespace Memory

/-- The memory two images leave behind. -/
def loaded (font rom : Array UInt8) : Memory :=
  (blank.overlay fontStart font).overlay programStart rom

theorem withImages_eq_ok_iff {font rom : Array UInt8} {memory : Memory} :
    withImages font rom = .ok memory ↔
      font.size ≤ fontLimit ∧ rom.size ≤ romLimit ∧ memory = loaded font rom := by
  unfold withImages loadFont
  by_cases hf : font.size ≤ fontLimit
  · by_cases hr : rom.size ≤ romLimit
    · simp [hf, hr, loadRom, loaded, bind, Except.bind, eq_comm]
    · simp [hf, hr, loadRom, bind, Except.bind]
  · simp [hf, bind, Except.bind]

theorem withImages_eq_error_iff {font rom : Array UInt8} {cause : Error} :
    withImages font rom = .error cause ↔
      fontLimit < font.size ∧ cause = .fontTooLarge font.size fontLimit ∨
      font.size ≤ fontLimit ∧ romLimit < rom.size ∧ cause = .romTooLarge rom.size romLimit := by
  unfold withImages loadFont
  by_cases hf : font.size ≤ fontLimit
  · have hf' : ¬ fontLimit < font.size := Nat.not_lt_of_le hf
    by_cases hr : rom.size ≤ romLimit
    · have hr' : ¬ romLimit < rom.size := Nat.not_lt_of_le hr
      simp [hf, hr, hf', hr', loadRom, bind, Except.bind]
    · have hr' : romLimit < rom.size := Nat.lt_of_not_le hr
      simp [hf, hr, hf', hr', loadRom, bind, Except.bind, eq_comm]
  · have hf' : fontLimit < font.size := Nat.lt_of_not_le hf
    simp [hf, hf', bind, Except.bind, eq_comm]

/-- A byte of the program. -/
lemma read_loaded {font rom : Array UInt8} {a : Address} {k : Nat} {value : UInt8}
    (ha : a.val = programStart+k) (h : rom[k]? = some value) :
    (loaded font rom).read a = value := by
  have hle : programStart ≤ a.val := by omega
  have hsub : a.val-programStart = k := by omega
  rw [loaded, read_overlay, if_pos hle, hsub, h]
  rfl

/-- A word of the program. -/
lemma readWord_loaded {font rom : Array UInt8} {w : UInt16} {k : Nat} {left right : UInt8}
    (hw : w.toNat = programStart+k) (hk : programStart+k+1 < size) (hl : rom[k]? = some left)
    (hr : rom[k+1]? = some right) :
    (loaded font rom).readWord w = left.toUInt16 <<< 8 ||| right.toUInt16 := by
  have hone : (1 : UInt16).toNat = 1 := rfl
  have hsize : size = 4096 := rfl
  have h1 : (Address.ofWord w).val = programStart+k := by
    rw [Address.val_ofWord]
    omega
  have h2 : (Address.ofWord (w+1)).val = programStart+(k+1) := by
    rw [Address.val_ofWord, UInt16.toNat_add, hone]
    omega
  rw [readWord, read_loaded h1 hl, read_loaded h2 hr]

end Memory

namespace Machine

theorem boot_eq_ok_iff {font rom : Array UInt8} {random : Random} {m : Machine} :
    boot font rom random = .ok m ↔
      font.size ≤ Memory.fontLimit ∧ rom.size ≤ Memory.romLimit ∧
        m = powerOn (.loaded font rom) random := by
  have hboot : boot font rom random = .ok m ↔
      ∃ memory, Memory.withImages font rom = .ok memory ∧ m = powerOn memory random := by
    unfold boot
    cases Memory.withImages font rom with
    | error cause => simp [bind, Except.bind]
    | ok memory => simp [bind, Except.bind, pure, Except.pure, eq_comm]
  rw [hboot]
  constructor
  · rintro ⟨memory, hm, rfl⟩
    obtain ⟨hf, hr, rfl⟩ := Memory.withImages_eq_ok_iff.mp hm
    exact ⟨hf, hr, rfl⟩
  · rintro ⟨hf, hr, rfl⟩
    exact ⟨_, Memory.withImages_eq_ok_iff.mpr ⟨hf, hr, rfl⟩, rfl⟩

/-- Switching on fails for an image that does not fit. Of two such images the font is reported. -/
theorem boot_eq_error_iff {font rom : Array UInt8} {random : Random} {cause : Error} :
    boot font rom random = .error cause ↔
      Memory.fontLimit < font.size ∧ cause = .fontTooLarge font.size Memory.fontLimit ∨
      font.size ≤ Memory.fontLimit ∧ Memory.romLimit < rom.size ∧
        cause = .romTooLarge rom.size Memory.romLimit := by
  rw [← Memory.withImages_eq_error_iff]
  unfold boot
  cases Memory.withImages font rom with
  | error why => simp [bind, Except.bind]
  | ok memory => simp [bind, Except.bind, pure, Except.pure]

/-- A machine at a word of its program. -/
lemma fetch_of_loaded {m : Machine} {font rom : Array UInt8} (hm : m.memory = .loaded font rom)
    {k : Nat} (hpc : m.pc.toNat = Memory.programStart+k)
    (hk : Memory.programStart+k+1 < Memory.size) {left right : UInt8}
    (hl : rom[k]? = some left) (hr : rom[k+1]? = some right) :
    m.fetch = ⟨left.toUInt16 <<< 8 ||| right.toUInt16⟩ := by
  rw [fetch, hm, Memory.readWord_loaded hpc hk hl hr]

/-- A machine at the first word of its program. -/
lemma fetch_of_start {m : Machine} {font rom : Array UInt8} (hm : m.memory = .loaded font rom)
    (hpc : m.pc = 0x200) {left right : UInt8} (hl : rom[0]? = some left)
    (hr : rom[1]? = some right) : m.fetch = ⟨left.toUInt16 <<< 8 ||| right.toUInt16⟩ :=
  fetch_of_loaded (k := 0) hm (congrArg UInt16.toNat hpc) (by decide) hl hr

/-- What a machine stands on is decided by the word there. -/
lemma instruction?_eq (m : Machine) : m.instruction? = Instruction.ofFields m.fetch.split := by
  rw [instruction?, Instruction.decode_eq]

/-- The instruction a machine stands on, read off the digits of the word there. -/
lemma instruction?_of_digits {m : Machine} {kind x y n : Fin 16}
    (hw : m.fetch = .ofDigits kind x y n) :
    m.instruction? = Instruction.ofFields
      ⟨kind, x, y, n, .ofNat (16*y.val+n.val), .ofNat (16^2*x.val+16*y.val+n.val)⟩ := by
  rw [instruction?_eq, hw, Opcode.split_ofDigits]

/-- The instruction a machine stands on, read off two bytes of its program. -/
lemma instruction?_of_loaded {m : Machine} {font rom : Array UInt8}
    (hm : m.memory = .loaded font rom) {k : Nat} (hpc : m.pc.toNat = Memory.programStart+k)
    (hk : Memory.programStart+k+1 < Memory.size) {left right : UInt8}
    (hl : rom[k]? = some left) (hr : rom[k+1]? = some right) {i : Option Instruction}
    (hi : Instruction.ofFields (Opcode.split ⟨left.toUInt16 <<< 8 ||| right.toUInt16⟩) = i) :
    m.instruction? = i := by
  rw [instruction?_eq, fetch_of_loaded hm hpc hk hl hr, hi]

end Machine
end Chip8
