import Chip8.Host.Key
import Mathlib.Algebra.Group.Nat.Defs
import Mathlib.Tactic.Lemma

/-! The held keys as a set. A key is its bit in the mask, so neither order nor repetition of what is
held can be seen in it. -/
namespace Chip8

namespace Keypad

variable {k : Keypad} {key other : UInt8}

/-- The keys of the pad are the numbers below 16. -/
lemma le_iff_lt : key ≤ 0xF ↔ key.toNat < 16 :=
  UInt8.le_iff_toNat_le.trans Nat.lt_succ_iff.symm

lemma toNat_bit (key : UInt8) : (bit key).toNat = 2^(key.toNat%16) := by
  have hone : (1 : UInt16).toNat = 1 := rfl
  have hfifteen : (0xF : UInt8).toNat = 2^4-1 := rfl
  have hlt : key.toNat%16 < 16 := Nat.mod_lt _ (by decide)
  have hpow : 2^(key.toNat%16) < 2^16 := Nat.pow_lt_pow_right (by decide) hlt
  rw [bit, UInt16.toNat_shiftLeft, UInt8.toNat_toUInt16, UInt8.toNat_and, hfifteen,
    Nat.and_two_pow_sub_one_eq_mod, hone, Nat.one_shiftLeft, Nat.mod_eq_of_lt hlt,
    Nat.mod_eq_of_lt hpow]

/-- Masking with a single bit leaves something exactly if that bit is set. -/
lemma and_two_pow_ne_zero_iff {mask i : Nat} : mask &&& 2^i ≠ 0 ↔ mask.testBit i = true := by
  constructor
  · intro h
    obtain ⟨j, hj⟩ := Nat.exists_testBit_of_ne_zero h
    simp only [Nat.testBit_and, Nat.testBit_two_pow, Bool.and_eq_true, decide_eq_true_eq] at hj
    rw [hj.2]
    exact hj.1
  · intro h hzero
    have hbit : (mask &&& 2^i).testBit i = true := by
      rw [Nat.testBit_and, h, Nat.testBit_two_pow_self]
      rfl
    rw [hzero, Nat.zero_testBit] at hbit
    cases hbit

theorem isHeld_iff : k.isHeld key = true ↔ key ≤ 0xF ∧ k.mask.toNat.testBit key.toNat = true := by
  have hmask : key ≤ 0xF → (k.mask &&& bit key ≠ 0 ↔ k.mask.toNat.testBit key.toNat = true) := by
    intro hle
    have hmod : key.toNat%16 = key.toNat := Nat.mod_eq_of_lt (le_iff_lt.mp hle)
    have hzero : (0 : UInt16).toNat = 0 := rfl
    rw [Ne, ← UInt16.toNat_inj, UInt16.toNat_and, toNat_bit, hmod, hzero]
    exact and_two_pow_ne_zero_iff
  simp only [isHeld, Bool.and_eq_true, decide_eq_true_eq, bne_iff_ne]
  exact and_congr_right hmask

@[simp] lemma isHeld_released (key : UInt8) : released.isHeld key = false := by
  rw [← Bool.not_eq_true, isHeld_iff]
  simp [released]

lemma toNat_toUInt8 {i : Nat} (hi : i < 16) : i.toUInt8.toNat = i :=
  UInt8.toNat_ofNat_of_lt' (Nat.lt_trans hi (by decide))

/-- A bit of the mask is a key of the pad. -/
lemma isHeld_toUInt8 {i : Nat} (hi : i < 16) :
    k.isHeld i.toUInt8 = true ↔ k.mask.toNat.testBit i = true := by
  have hkey : i.toUInt8.toNat = i := toNat_toUInt8 hi
  rw [isHeld_iff, le_iff_lt, hkey]
  exact and_iff_right hi

/-- Pads on which the same keys are held are the same. -/
@[ext] theorem ext {j k : Keypad} (h : ∀ key, j.isHeld key = k.isHeld key) : j = k := by
  obtain ⟨j⟩ := j
  obtain ⟨k⟩ := k
  congr 1
  apply UInt16.toNat_inj.mp
  apply Nat.eq_of_testBit_eq
  intro i
  by_cases hi : i < 16
  · apply Bool.eq_iff_iff.mpr
    rw [← isHeld_toUInt8 (k := ⟨j⟩) hi, ← isHeld_toUInt8 (k := ⟨k⟩) hi, h]
  · have hpow : 2^16 ≤ 2^i := Nat.pow_le_pow_right (by decide) (Nat.le_of_not_lt hi)
    rw [Nat.testBit_lt_two_pow (Nat.lt_of_lt_of_le j.toNat_lt hpow),
      Nat.testBit_lt_two_pow (Nat.lt_of_lt_of_le k.toNat_lt hpow)]

lemma mask_eq_zero_iff : k.mask = 0 ↔ ∀ key, k.isHeld key = false := by
  constructor
  · intro h key
    rw [← Bool.not_eq_true, isHeld_iff, h]
    simp
  · intro h
    have hk : k = released := Keypad.ext fun key => (h key).trans (isHeld_released key).symm
    rw [hk]
    rfl

/-- A key that goes down is held, and nothing else changes. -/
lemma isHeld_hold :
    (k.hold key).isHeld other = true ↔ k.isHeld other = true ∨ key.toNat%16 = other.toNat := by
  have hmod : key.toNat%16 < 16 := Nat.mod_lt _ (by decide)
  have htest : (k.hold key).mask.toNat.testBit other.toNat = true ↔
      k.mask.toNat.testBit other.toNat = true ∨ key.toNat%16 = other.toNat := by
    rw [hold, UInt16.toNat_or, toNat_bit, Nat.testBit_or, Nat.testBit_two_pow, Bool.or_eq_true,
      decide_eq_true_eq]
  rw [isHeld_iff, isHeld_iff, htest]
  constructor
  · rintro ⟨hother, h | h⟩
    · exact .inl ⟨hother, h⟩
    · exact .inr h
  · rintro (⟨hother, h⟩ | h)
    · exact ⟨hother, .inl h⟩
    · exact ⟨le_iff_lt.mpr (h ▸ hmod), .inr h⟩

/-- A key that comes up is not held, and nothing else changes. -/
lemma isHeld_release :
    (k.release key).isHeld other = true ↔ k.isHeld other = true ∧ key.toNat%16 ≠ other.toNat := by
  have htest (hother : other ≤ 0xF) : (k.release key).mask.toNat.testBit other.toNat = true ↔
      k.mask.toNat.testBit other.toNat = true ∧ key.toNat%16 ≠ other.toNat := by
    have hnot : (~~~ bit key).toNat.testBit other.toNat = !(bit key).toNat.testBit other.toNat := by
      have hbits := (bit key).toBitVec.getLsbD_not (i := other.toNat)
      rwa [decide_eq_true (le_iff_lt.mp hother), Bool.true_and] at hbits
    rw [release, UInt16.toNat_and, Nat.testBit_and, hnot, toNat_bit, Nat.testBit_two_pow]
    simp
  rw [isHeld_iff, isHeld_iff, and_assoc]
  exact and_congr_right htest

lemma isHeld_foldl_hold (keys : List UInt8) :
    (keys.foldl hold k).isHeld other = true ↔
      k.isHeld other = true ∨ other.toNat ∈ keys.map (·.toNat%16) := by
  induction keys generalizing k with
  | nil => simp
  | cons key keys ih =>
    rw [List.foldl_cons, ih, isHeld_hold, List.map_cons, List.mem_cons, or_assoc,
      eq_comm (a := other.toNat)]

/-- Of a list of keys only their low digits count, neither their order nor how often they come. -/
lemma isHeld_ofList {keys : List UInt8} :
    (ofList keys).isHeld other = true ↔ other.toNat ∈ keys.map (·.toNat%16) := by
  rw [ofList, isHeld_foldl_hold]
  simp

end Keypad

lemma HostKey.pad?_le {h : HostKey} {key : UInt8} (hp : h.pad? = some key) : key ≤ 0xF := by
  cases h <;> cases hp <;> decide

namespace Keypad

variable {k : Keypad} {held : List HostKey} {key : UInt8}

/-- What is held on the pad is what the host keys held stand for. -/
theorem isHeld_ofHostKeys :
    (ofHostKeys held).isHeld key = true ↔ key ∈ held.filterMap HostKey.pad? := by
  have hmod : ∀ code ∈ held.filterMap HostKey.pad?, code.toNat%16 = code.toNat := by
    intro code hcode
    obtain ⟨h, -, hp⟩ := List.mem_filterMap.mp hcode
    exact Nat.mod_eq_of_lt (le_iff_lt.mp (HostKey.pad?_le hp))
  rw [ofHostKeys, isHeld_ofList, List.map_congr_left hmod]
  constructor
  · intro h
    obtain ⟨code, hcode, heq⟩ := List.mem_map.mp h
    rwa [← UInt8.toNat_inj.mp heq]
  · exact List.mem_map_of_mem

lemma mem_toList : key ∈ k.toList ↔ k.isHeld key = true := by
  rw [toList, List.mem_filter]
  refine ⟨fun h => h.2, fun h => ⟨List.mem_map.mpr ⟨key.toNat, ?_, UInt8.ofNat_toNat⟩, h⟩⟩
  exact List.mem_range.mpr (le_iff_lt.mp (isHeld_iff.mp h).1)

lemma pairwise_toList (k : Keypad) : k.toList.Pairwise (· < ·) :=
  List.Pairwise.filter k.isHeld (by decide)

/-- The key that is waited for is the lowest one held. -/
theorem first?_eq_some_iff :
    k.first? = some key ↔
      k.isHeld key = true ∧ ∀ other, k.isHeld other = true → key ≤ other := by
  have hsorted := k.pairwise_toList
  simp only [first?, ← mem_toList]
  generalize k.toList = keys at hsorted ⊢
  cases keys with
  | nil => simp
  | cons low higher =>
    have hlow : ∀ other ∈ higher, low ≤ other := fun other hother =>
      UInt8.le_of_lt (List.rel_of_pairwise_cons hsorted hother)
    rw [List.head?_cons, Option.some.injEq]
    constructor
    · rintro rfl
      refine ⟨List.mem_cons_self .., fun other hother => ?_⟩
      rcases List.mem_cons.mp hother with rfl | hother
      · exact UInt8.le_refl _
      · exact hlow other hother
    · rintro ⟨hkey, hleast⟩
      rcases List.mem_cons.mp hkey with rfl | hkey
      · rfl
      · exact UInt8.le_antisymm (hlow key hkey) (hleast low (List.mem_cons_self ..))

/-- There is no lowest key exactly if none is held. -/
theorem first?_eq_none_iff : k.first? = none ↔ k.mask = 0 := by
  rw [first?, List.head?_eq_none_iff, List.eq_nil_iff_forall_not_mem, mask_eq_zero_iff]
  simp only [mem_toList, Bool.not_eq_true]

end Keypad
end Chip8
