import Chip8.Opcode
import Mathlib.Algebra.Group.Nat.Defs
import Mathlib.Tactic.Lemma

/-! The digits of a word as quotients and remainders. A run of digits that lies within its word
always has a value, so cutting a word into its fields never stops. A run that leaves its word stops
at the subtraction that notices, and only the empty run before the first digit gets past all of
them, to a shift by the whole width of the word. -/
namespace Chip8

namespace Checked

lemma subByte_of_le {a b : UInt8} (h : b.toNat ≤ a.toNat) : subByte a b = .ok (a-b) := by
  rw [subByte, if_pos (UInt8.le_iff_toNat_le.mpr h)]

lemma subByte_of_lt {a b : UInt8} (h : a.toNat < b.toNat) :
    subByte a b = .error .subtractOverflow := by
  rw [subByte, if_neg fun hle => Nat.not_le_of_lt h (UInt8.le_iff_toNat_le.mp hle)]

lemma mulByte_of_lt {a b : UInt8} (h : a.toNat*b.toNat < 256) : mulByte a b = .ok (a*b) := by
  rw [mulByte, if_pos h]

lemma subLong_of_le {a b : UInt32} (h : b.toNat ≤ a.toNat) : subLong a b = .ok (a-b) := by
  rw [subLong, if_pos (UInt32.le_iff_toNat_le.mpr h)]

lemma shiftLeftLong_of_lt {a : UInt32} {p : UInt8} (h : p.toNat < 32) :
    shiftLeftLong a p = .ok (a <<< p.toUInt32) := by
  rw [shiftLeftLong, if_pos (UInt8.lt_iff_toNat_lt.mpr h)]

lemma shiftRightWord_of_lt {a : UInt16} {p : UInt8} (h : p.toNat < 16) :
    shiftRightWord a p = .ok (a >>> p.toUInt16) := by
  rw [shiftRightWord, if_pos (UInt8.lt_iff_toNat_lt.mpr h)]

lemma addWord_of_lt {a b : UInt16} (h : a.toNat+b.toNat < 65536) : addWord a b = .ok (a+b) := by
  rw [addWord, if_pos h]

lemma mulWord_of_lt {a b : UInt16} (h : a.toNat*b.toNat < 65536) : mulWord a b = .ok (a*b) := by
  rw [mulWord, if_pos h]

lemma addLong_of_lt {a b : UInt32} (h : a.toNat+b.toNat < 4294967296) :
    addLong a b = .ok (a+b) := by
  rw [addLong, if_pos h]

end Checked

namespace Opcode

/-- A word moved right by whole digits and cut down to its last `count` digits. -/
lemma toNat_shift_and (code : UInt16) {places : UInt8} {mask : UInt32} {after count : Nat}
    (hp : places.toNat = 4*after) (ha : after < 4) (hm : mask.toNat = 2^(4*count)-1)
    (hc : count ≤ 4) :
    (code >>> places.toUInt16 &&& mask.toUInt16).toNat = code.toNat / 16^after % 16^count := by
  have hpow : 2^(4*count) ≤ 2^16 := Nat.pow_le_pow_right (by decide) (by omega)
  have hmask : mask.toUInt16.toNat = 2^(4*count)-1 := by
    rw [UInt32.toNat_toUInt16, hm]
    exact Nat.mod_eq_of_lt (by omega)
  have hplaces : places.toUInt16.toNat % 16 = 4*after := by
    rw [UInt8.toNat_toUInt16, hp]
    exact Nat.mod_eq_of_lt (by omega)
  rw [UInt16.toNat_and, hmask, UInt16.toNat_shiftRight, hplaces, Nat.shiftRight_eq_div_pow,
    Nat.and_two_pow_sub_one_eq_mod, Nat.pow_mul, Nat.pow_mul]

lemma toNat_four_sub (count : UInt8) (h : count.toNat ≤ 4) :
    ((4 : UInt8)-count).toNat = 4-count.toNat :=
  UInt8.toNat_sub_of_le _ _ (UInt8.le_iff_toNat_le.mpr h)

lemma toNat_sub_one {first : UInt8} (h : 0 < first.toNat) : (first-1).toNat = first.toNat-1 :=
  UInt8.toNat_sub_of_le _ _ (UInt8.le_iff_toNat_le.mpr h)

/-- A run of digits that lies within the word is read by division, be it empty or not. -/
theorem digits_eq_ok (w : Opcode) (first count : UInt8) (hf : 0 < first.toNat)
    (hc : 1 < first.toNat+count.toNat) (hw : first.toNat+count.toNat ≤ 5) :
    ∃ value, w.digits first count = .ok value ∧
      value.toNat = w.code.toNat / 16^(5-first.toNat-count.toNat) % 16^count.toNat := by
  have hroom := toNat_four_sub count (by omega)
  have hbefore := toNat_sub_one hf
  have hafter : ((4 : UInt8)-count-(first-1)).toNat = 5-first.toNat-count.toNat := by
    rw [UInt8.toNat_sub_of_le _ _ (UInt8.le_iff_toNat_le.mpr (by omega)), hroom, hbefore]
    omega
  have hplaces : ((4-count-(first-1))*4 : UInt8).toNat = 4*(5-first.toNat-count.toNat) := by
    rw [UInt8.toNat_mul, hafter]
    change _*4 % 256 = _
    omega
  have hwidth : (count*4 : UInt8).toNat = 4*count.toNat := by
    rw [UInt8.toNat_mul]
    change _*4 % 256 = _
    omega
  have hshift : ((1 : UInt32) <<< (count*4).toUInt32).toNat = 2^(4*count.toNat) := by
    have hpow : 2^(4*count.toNat) < 2^32 := Nat.pow_lt_pow_right (by decide) (by omega)
    rw [UInt32.toNat_shiftLeft, UInt8.toNat_toUInt32, hwidth,
      Nat.mod_eq_of_lt (by omega : 4*count.toNat < 32), UInt32.toNat_one, Nat.one_shiftLeft,
      Nat.mod_eq_of_lt hpow]
  have hone : (1 : UInt32).toNat ≤ ((1 : UInt32) <<< (count*4).toUInt32).toNat := by
    rw [hshift]
    exact Nat.one_le_two_pow
  refine ⟨w.code >>> ((4-count-(first-1))*4).toUInt16 &&&
    ((1 : UInt32) <<< (count*4).toUInt32-1).toUInt16, ?_, ?_⟩
  · have hfour : (4 : UInt8).toNat = 4 := rfl
    have h1 := Checked.subByte_of_le (a := 4) (b := count) (by omega)
    have h2 := Checked.subByte_of_le (a := first) (b := 1) hf
    have h3 := Checked.subByte_of_le (a := 4-count) (b := first-1) (by omega)
    have h4 := Checked.mulByte_of_lt (a := 4-count-(first-1)) (b := 4) (by rw [hfour]; omega)
    have h5 := Checked.mulByte_of_lt (a := count) (b := 4) (by rw [hfour]; omega)
    have h6 := Checked.shiftLeftLong_of_lt (a := 1) (p := count*4) (by omega)
    have h7 := Checked.subLong_of_le hone
    have h8 := Checked.shiftRightWord_of_lt (a := w.code) (p := (4-count-(first-1))*4)
      (by omega)
    simp only [digits, h1, h2, h3, h4, h5, h6, h7, h8, bind, Except.bind, pure, Except.pure]
  · refine toNat_shift_and _ hplaces (by omega) ?_ (by omega)
    rw [UInt32.toNat_sub_of_le _ _ (UInt32.le_iff_toNat_le.mpr hone), hshift]
    rfl

/-- A run that starts before the word or ends behind it stops at a subtraction. -/
lemma digits_eq_subtractOverflow (w : Opcode) {first count : UInt8}
    (h : ¬ (0 < first.toNat ∧ first.toNat+count.toNat ≤ 5)) :
    w.digits first count = .error .subtractOverflow := by
  have hfour : (4 : UInt8).toNat = 4 := rfl
  have hone : (1 : UInt8).toNat = 1 := rfl
  by_cases hc : count.toNat ≤ 4
  · have h1 := Checked.subByte_of_le (a := 4) (b := count) hc
    by_cases hf : 0 < first.toNat
    · have h2 := Checked.subByte_of_le (a := first) (b := 1) hf
      have hroom := toNat_four_sub count hc
      have hbefore := toNat_sub_one hf
      have h3 := Checked.subByte_of_lt (a := 4-count) (b := first-1) (by omega)
      simp only [digits, h1, h2, h3, bind, Except.bind]
    · have h2 := Checked.subByte_of_lt (a := first) (b := 1) (by omega)
      simp only [digits, h1, h2, bind, Except.bind]
  · have h1 := Checked.subByte_of_lt (a := 4) (b := count) (by omega)
    simp only [digits, h1, bind, Except.bind]

/-- Every run of digits, wherever it starts and whatever its length. -/
theorem digits_eq (w : Opcode) (first count : UInt8) :
    (w.digits first count).map UInt16.toNat =
      if first.toNat = 1 ∧ count.toNat = 0 then .error .shiftRightOverflow
      else if 0 < first.toNat ∧ first.toNat+count.toNat ≤ 5 then
        .ok (w.code.toNat / 16^(5-first.toNat-count.toNat) % 16^count.toNat)
      else .error .subtractOverflow := by
  by_cases hempty : first.toNat = 1 ∧ count.toNat = 0
  · have hfirst : first = 1 := UInt8.toNat_inj.mp hempty.1
    have hcount : count = 0 := UInt8.toNat_inj.mp hempty.2
    rw [if_pos hempty, hfirst, hcount]
    rfl
  · rw [if_neg hempty]
    by_cases hw : 0 < first.toNat ∧ first.toNat+count.toNat ≤ 5
    · obtain ⟨value, hv, hn⟩ := w.digits_eq_ok first count hw.1 (by omega) hw.2
      rw [if_pos hw, hv, ← hn]
      rfl
    · rw [if_neg hw, w.digits_eq_subtractOverflow hw]
      rfl

lemma exists_digits_iff (w : Opcode) {first count : UInt8} :
    (∃ value, w.digits first count = .ok value) ↔
      0 < first.toNat ∧ first.toNat+count.toNat ≤ 5 ∧
        ¬ (first.toNat = 1 ∧ count.toNat = 0) := by
  constructor
  · rintro ⟨value, hv⟩
    have hcut := w.digits_eq first count
    rw [hv] at hcut
    split at hcut
    case isTrue => cases hcut
    case isFalse hempty =>
      split at hcut
      case isTrue hw => exact ⟨hw.1, hw.2, hempty⟩
      case isFalse => cases hcut
  · rintro ⟨hf, hw, hempty⟩
    obtain ⟨value, hv, -⟩ := w.digits_eq_ok first count hf (by omega) hw
    exact ⟨value, hv⟩

/-- The fields of a word by division. -/
def split (w : Opcode) : Fields where
  kind := ⟨w.code.toNat / 16^3 % 16, Nat.mod_lt _ (by decide)⟩
  x := ⟨w.code.toNat / 16^2 % 16, Nat.mod_lt _ (by decide)⟩
  y := ⟨w.code.toNat / 16 % 16, Nat.mod_lt _ (by decide)⟩
  n := ⟨w.code.toNat % 16, Nat.mod_lt _ (by decide)⟩
  nn := .ofNat (w.code.toNat % 16^2)
  nnn := .ofNat (w.code.toNat % 16^3)

lemma digit_eq_ok (w : Opcode) (place : UInt8) (hp : 0 < place.toNat) (h : place.toNat ≤ 4) :
    w.digit place =
      .ok ⟨w.code.toNat / 16^(4-place.toNat) % 16, Nat.mod_lt _ (by decide)⟩ := by
  have hone : (1 : UInt8).toNat = 1 := rfl
  obtain ⟨value, hv, hn⟩ := w.digits_eq_ok place 1 hp (by omega) (by omega)
  rw [hone, Nat.pow_one, show 5-place.toNat-1 = 4-place.toNat by omega] at hn
  simp only [digit, hv, hn, Nat.mod_mod, bind, Except.bind, pure, Except.pure]

/-- Every word has its fields. -/
theorem fields_eq (w : Opcode) : w.fields = .ok w.split := by
  obtain ⟨nn, hnn, hn⟩ := w.digits_eq_ok 3 2 (by decide) (by decide) (by decide)
  obtain ⟨nnn, hnnn, hn'⟩ := w.digits_eq_ok 2 3 (by decide) (by decide) (by decide)
  have h1 := w.digit_eq_ok 1 (by decide) (by decide)
  have h2 := w.digit_eq_ok 2 (by decide) (by decide)
  have h3 := w.digit_eq_ok 3 (by decide) (by decide)
  have h4 := w.digit_eq_ok 4 (by decide) (by decide)
  have hbyte : nn.toUInt8 = .ofNat (w.code.toNat % 16^2) := by
    apply UInt8.toNat_inj.mp
    rw [UInt16.toNat_toUInt8, hn, UInt8.toNat_ofNat']
    simp
  have hword : nnn = .ofNat (w.code.toNat % 16^3) := by
    apply UInt16.toNat_inj.mp
    have hlt : w.code.toNat % 16^3 < 16^3 := Nat.mod_lt _ (by decide)
    rw [hn', UInt16.toNat_ofNat', Nat.mod_eq_of_lt (by omega : w.code.toNat % 16^3 < 2^16)]
    simp
  simp only [fields, h1, h2, h3, h4, hnn, hnnn, hbyte, hword, bind, Except.bind, pure,
    Except.pure]
  simp [split]

lemma toNat_split_nn (w : Opcode) : w.split.nn.toNat = w.code.toNat % 16^2 := by
  have hlt : w.code.toNat % 16^2 < 2^8 := Nat.mod_lt _ (by decide)
  rw [split, UInt8.toNat_ofNat', Nat.mod_eq_of_lt hlt]

lemma toNat_split_nnn (w : Opcode) : w.split.nnn.toNat = w.code.toNat % 16^3 := by
  have hlt : w.code.toNat % 16^3 < 16^3 := Nat.mod_lt _ (by decide)
  rw [split, UInt16.toNat_ofNat', Nat.mod_eq_of_lt (by omega : w.code.toNat % 16^3 < 2^16)]

/-- Addresses have twelve bits. -/
lemma split_nnn_lt (w : Opcode) : w.split.nnn.toNat < 4096 := by
  rw [toNat_split_nnn]
  exact Nat.mod_lt _ (by decide)

/-- The word with the given digits. -/
def ofDigits (kind x y n : Fin 16) : Opcode :=
  ⟨.ofNat (16^3*kind.val+16^2*x.val+16*y.val+n.val)⟩

/-- A word is cut into the digits it is written with. -/
theorem split_ofDigits (kind x y n : Fin 16) :
    (ofDigits kind x y n).split =
      ⟨kind, x, y, n, .ofNat (16*y.val+n.val), .ofNat (16^2*x.val+16*y.val+n.val)⟩ := by
  have hcode : (ofDigits kind x y n).code.toNat = 16^3*kind.val+16^2*x.val+16*y.val+n.val := by
    rw [ofDigits, UInt16.toNat_ofNat']
    omega
  simp only [split, hcode, Fields.mk.injEq, Fin.ext_iff]
  refine ⟨by omega, by omega, by omega, by omega, ?_, ?_⟩
  · exact congrArg UInt8.ofNat (by omega)
  · exact congrArg UInt16.ofNat (by omega)

/-- The fields are the runs of digits they are named for, none of them cut down to fit. -/
structure Fields.CutFrom (f : Fields) (w : Opcode) : Prop where
  kind : (w.digits 1 1).map UInt16.toNat = .ok f.kind.val
  x : (w.digits 2 1).map UInt16.toNat = .ok f.x.val
  y : (w.digits 3 1).map UInt16.toNat = .ok f.y.val
  n : (w.digits 4 1).map UInt16.toNat = .ok f.n.val
  nn : (w.digits 3 2).map UInt16.toNat = .ok f.nn.toNat
  nnn : (w.digits 2 3).map UInt16.toNat = .ok f.nnn.toNat

lemma split_cutFrom (w : Opcode) : w.split.CutFrom w where
  kind := w.digits_eq 1 1
  x := w.digits_eq 2 1
  y := (w.digits_eq 3 1).trans (by rw [split]; rfl)
  n := (w.digits_eq 4 1).trans (by simp [split])
  nn := (w.digits_eq 3 2).trans (by rw [toNat_split_nn]; simp)
  nnn := (w.digits_eq 2 3).trans (by rw [toNat_split_nnn]; simp)

/-- A run of digits has a value exactly if it starts in the word and ends no later than the word
does, save for the empty run before the first digit, and its value is the word divided by the digits
behind the run, modulo the run's own size. All other runs stop at a subtraction, and that empty one
at the shift. So the fields of a word can always be told, and they make up the word again. -/
theorem digits_by_division (w : Opcode) :
    (∀ first count : UInt8,
      let n := first.toNat
      let m := count.toNat
      let cut := w.digits first count
      ((∃ value, cut = .ok value) ↔ 0 < n ∧ n+m ≤ 5 ∧ ¬ (n = 1 ∧ m = 0)) ∧
      (cut.map UInt16.toNat).mapError Trap.message =
        if n = 1 ∧ m = 0 then .error "attempt to shift right with overflow"
        else if 0 < n ∧ n+m ≤ 5 then .ok (w.code.toNat / 16^(5-n-m) % 16^m)
        else .error "attempt to subtract with overflow") ∧
    ∃ f, w.fields = .ok f ∧ f.CutFrom w ∧
      w.code.toNat = 4096*f.kind.val+f.nnn.toNat ∧
      f.nnn.toNat = 256*f.x.val+f.nn.toNat ∧
      f.nn.toNat = 16*f.y.val+f.n.val := by
  refine ⟨fun first count => ⟨?_, ?_⟩, w.split, w.fields_eq, w.split_cutFrom, ?_, ?_, ?_⟩
  · exact w.exists_digits_iff
  · rw [digits_eq]
    by_cases hempty : first.toNat = 1 ∧ count.toNat = 0
    · rw [if_pos hempty, if_pos hempty]
      rfl
    · rw [if_neg hempty, if_neg hempty]
      by_cases hw : 0 < first.toNat ∧ first.toNat+count.toNat ≤ 5
      · rw [if_pos hw, if_pos hw]
        rfl
      · rw [if_neg hw, if_neg hw]
        rfl
  · rw [toNat_split_nnn]
    have hcode := w.code.toNat_lt
    simp only [split]
    omega
  · rw [toNat_split_nnn, toNat_split_nn]
    simp only [split]
    omega
  · rw [toNat_split_nn]
    simp only [split]
    omega

end Opcode
end Chip8
