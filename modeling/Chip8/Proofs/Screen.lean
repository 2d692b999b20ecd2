import Chip8.Screen
import Mathlib.Algebra.BigOperators.Fin
import Mathlib.Algebra.Group.Nat.Even
import Mathlib.Tactic.Lemma

/-! Toggling cells and the cells of a sprite. What is left on a screen is settled by how often each
cell comes up: whether that is odd tells whether its pixel has changed, and whether a lit one went
out on the way needs no more than that either. -/
namespace Chip8

namespace Screen

/-- A pixel changes if its cell comes up an odd number of times. -/
theorem isLit_toggleAll (s : Screen) (cells : List Cell) (c : Cell) :
    (s.toggleAll cells).1.isLit c = (s.isLit c ^^ decide (Odd (cells.count c))) := by
  induction cells generalizing s with
  | nil => simp [toggleAll]
  | cons d cells ih =>
    change ((s.toggle d).toggleAll cells).1.isLit c = _
    rw [ih, isLit_toggle, List.count_cons]
    by_cases hd : d = c
    · subst hd
      simp only [beq_self_eq_true, if_true, Nat.odd_add_one, decide_not, Bool.not_xor, Bool.xor_not]
    · simp [hd]

/-- A lit pixel goes out if the cell of one comes up, or if any cell comes up again. -/
theorem toggleAll_hit_iff (s : Screen) (cells : List Cell) :
    (s.toggleAll cells).2 = true ↔
      ∃ c, (1 ≤ cells.count c ∧ s.isLit c = true) ∨ 2 ≤ cells.count c := by
  induction cells generalizing s with
  | nil => simp [toggleAll]
  | cons d cells ih =>
    change (s.isLit d || ((s.toggle d).toggleAll cells).2) = true ↔ _
    rw [Bool.or_eq_true, ih]
    constructor
    · rintro (hlit | ⟨c, hc⟩)
      · exact ⟨d, .inl ⟨by simp, hlit⟩⟩
      · refine ⟨c, ?_⟩
        rw [isLit_toggle] at hc
        rw [List.count_cons]
        by_cases hd : d = c
        · -- the cell toggled first comes up again
          subst hd
          right
          simp only [beq_self_eq_true, if_true]
          omega
        · simpa [hd] using hc
    · rintro ⟨c, hc⟩
      rw [List.count_cons] at hc
      by_cases hd : d = c
      · subst hd
        simp only [beq_self_eq_true, if_true] at hc
        cases hlit : s.isLit d with
        | true => exact .inl rfl
        | false =>
          refine .inr ⟨d, .inl ⟨?_, by simp [hlit]⟩⟩
          simp only [hlit, Bool.false_eq_true, and_false, false_or] at hc
          omega
      · refine .inr ⟨c, ?_⟩
        rw [isLit_toggle, if_neg hd]
        simpa [hd] using hc

/-- Of cells that come up once each, exactly the pixels change. -/
lemma isLit_toggleAll_of_nodup {cells : List Cell} (h : cells.Nodup) (s : Screen) (c : Cell) :
    (s.toggleAll cells).1.isLit c = (s.isLit c ^^ decide (c ∈ cells)) := by
  rw [isLit_toggleAll, h.count]
  by_cases hc : c ∈ cells <;> simp [hc]

lemma toggleAll_hit_of_nodup {cells : List Cell} (h : cells.Nodup) (s : Screen) :
    (s.toggleAll cells).2 = true ↔ ∃ c ∈ cells, s.isLit c = true := by
  have hle : ∀ c, ¬ 2 ≤ cells.count c := fun c => by
    have := List.nodup_iff_count_le_one.mp h c
    omega
  simp only [toggleAll_hit_iff, hle, or_false, List.one_le_count_iff]

lemma toggleAll_append (s : Screen) (cells later : List Cell) :
    (s.toggleAll (cells ++ later)).1 = ((s.toggleAll cells).1.toggleAll later).1 := by
  induction cells generalizing s with
  | nil => rfl
  | cons d cells ih => exact ih (s.toggle d)

/-- The order of the cells makes no difference to the screen. -/
theorem toggleAll_perm {cells others : List Cell} (h : cells.Perm others) (s : Screen) :
    (s.toggleAll cells).1 = (s.toggleAll others).1 := by
  ext c
  rw [isLit_toggleAll, isLit_toggleAll, h.count_eq]

/-- Cells toggled once more in any order are as they were. -/
theorem toggleAll_twice {cells others : List Cell} (h : cells.Perm others) (s : Screen) :
    ((s.toggleAll cells).1.toggleAll others).1 = s := by
  ext c
  rw [isLit_toggleAll, isLit_toggleAll, h.count_eq, Bool.xor_assoc, Bool.xor_self, Bool.xor_false]

end Screen

namespace Sprite

lemma litColumns_eq_nil_iff {row : UInt8} : litColumns row = [] ↔ row = 0 := by
  constructor
  · intro h
    have hbit : ∀ j < 8, row.toNat.testBit (7-j) = false := by
      intro j hj
      have := List.filter_eq_nil_iff.mp h j (List.mem_range.mpr hj)
      simpa using this
    refine UInt8.toNat_inj.mp (Nat.eq_of_testBit_eq fun j => ?_)
    have hzero : (0 : UInt8).toNat = 0 := rfl
    rw [hzero, Nat.zero_testBit]
    by_cases hj : j < 8
    · have hflip : 7-(7-j) = j := by omega
      have := hbit (7-j) (by omega)
      rwa [hflip] at this
    · refine Nat.testBit_lt_two_pow ?_
      have hlt : row.toNat < 2^8 := row.toNat_lt
      exact Nat.lt_of_lt_of_le hlt (Nat.pow_le_pow_right (by decide) (Nat.le_of_not_lt hj))
  · rintro rfl
    decide

/-- A sprite has a cell to light exactly if one of its bits is set. -/
theorem cells_eq_nil_iff {x y : UInt8} {rows : List UInt8} :
    cells x y rows = [] ↔ ∀ row ∈ rows, row = 0 := by
  simp only [cells, List.flatMap_eq_nil_iff, List.map_eq_nil_iff, litColumns_eq_nil_iff]
  constructor
  · intro h row hrow
    obtain ⟨i, hi, rfl⟩ := List.mem_iff_getElem.mp hrow
    exact h (rows[i],i) (List.mem_zipIdx_iff_getElem?.mpr (List.getElem?_eq_getElem hi))
  · intro h entry hentry
    exact h entry.1 (List.fst_mem_of_mem_zipIdx hentry)

/-- How many set bits of a sprite with its corner at `(x, y)` fall on a cell. -/
def hits (x y : UInt8) (rows : List UInt8) (c : Cell) : Nat :=
  (Finset.univ.filter fun p : Fin rows.length × Fin 8 =>
    rows[p.1].toNat.testBit (7-p.2) = true ∧
      (y.toNat+p.1) % 32 = c.row ∧ (x.toNat+p.2) % 64 = c.col).card

lemma wrap_eq_iff {x y : Nat} {c : Cell} : Cell.wrap x y = c ↔ y % 32 = c.row ∧ x % 64 = c.col := by
  obtain ⟨row, col⟩ := c
  simp [Cell.wrap, Fin.ext_iff]

lemma zipIdx_eq_ofFn {α : Type} (l : List α) :
    l.zipIdx = List.ofFn fun i : Fin l.length => (l[i], i.val) := by
  refine List.ext_getElem (by simp) fun i hi hi' => ?_
  simp

lemma countP_range (p : Nat → Bool) (n : Nat) :
    (List.range n).countP p = ∑ j : Fin n, if p j = true then 1 else 0 := by
  induction n with
  | zero => rfl
  | succ n ih =>
    rw [List.range_succ, List.countP_append, List.countP_singleton, ih, Fin.sum_univ_castSucc]
    rfl

/-- The set bits of one row that fall on a cell. -/
lemma count_row (x y : Nat) (row : UInt8) (c : Cell) :
    ((litColumns row).map fun j => Cell.wrap (x+j) y).count c =
      ∑ j : Fin 8, if row.toNat.testBit (7-j) = true ∧ y % 32 = c.row ∧ (x+j) % 64 = c.col
        then 1 else 0 := by
  rw [litColumns, List.count, List.countP_map, List.countP_filter, countP_range]
  refine Finset.sum_congr rfl fun j _ => if_congr ?_ rfl rfl
  rw [Bool.and_eq_true, Function.comp_apply, beq_iff_eq, wrap_eq_iff, and_comm]

/-- A cell comes up as often among the cells of a sprite as bits of it fall there. -/
theorem count_cells (x y : UInt8) (rows : List UInt8) (c : Cell) :
    (cells x y rows).count c = hits x y rows c := by
  rw [cells, List.count_flatMap, zipIdx_eq_ofFn, List.map_ofFn, List.sum_ofFn, hits,
    Finset.card_filter, Fintype.sum_prod_type]
  exact Finset.sum_congr rfl fun i _ => count_row ..

/-- A cell is lit by the bits of a sprite that fall on it. -/
lemma mem_cells_iff {x y : UInt8} {rows : List UInt8} {c : Cell} :
    c ∈ cells x y rows ↔ ∃ k, ∃ hk : k < rows.length, ∃ j < 8,
      rows[k].toNat.testBit (7-j) = true ∧
        c.row.val = (y.toNat+k) % 32 ∧ c.col.val = (x.toNat+j) % 64 := by
  rw [← List.one_le_count_iff, count_cells, hits, Finset.one_le_card]
  constructor
  · rintro ⟨p, hp⟩
    obtain ⟨hbit, hrow, hcol⟩ := (Finset.mem_filter.mp hp).2
    exact ⟨p.1, p.1.isLt, p.2, p.2.isLt, hbit, hrow.symm, hcol.symm⟩
  · rintro ⟨k, hk, j, hj, hbit, hrow, hcol⟩
    refine ⟨(⟨k, hk⟩, ⟨j, hj⟩), Finset.mem_filter.mpr ⟨Finset.mem_univ _, ?_⟩⟩
    exact ⟨hbit, hrow.symm, hcol.symm⟩

/-- A sprite that is not higher than the screen does not fall on itself. -/
lemma nodup_cells {rows : List UInt8} (h : rows.length ≤ 32) (x y : UInt8) :
    (cells x y rows).Nodup := by
  refine List.nodup_iff_count_le_one.mpr fun c => ?_
  rw [count_cells]
  refine Finset.card_le_one.mpr fun p hp q hq => ?_
  obtain ⟨-, hrow, hcol⟩ := (Finset.mem_filter.mp hp).2
  obtain ⟨-, hrow', hcol'⟩ := (Finset.mem_filter.mp hq).2
  refine Prod.ext (Fin.ext ?_) (Fin.ext ?_) <;> omega

end Sprite
end Chip8
