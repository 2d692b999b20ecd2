/-! Tables of a fixed size. They are read and written at numbers below their size, so no access can
miss and none carries a proof. -/
namespace Chip8

abbrev Table (α : Type) (n : Nat) := Vector α n

namespace Table

variable {α : Type} {n : Nat}

@[inline] def get (t : Table α n) (i : Fin n) : α := Vector.get t i

@[inline] def set (t : Table α n) (i : Fin n) (a : α) : Table α n := Vector.set t i.val a i.isLt

def fill (n : Nat) (a : α) : Table α n := Vector.replicate n a

def ofFn (f : Fin n → α) : Table α n := Vector.ofFn f

theorem get_eq_getElem (t : Table α n) (i : Fin n) : get t i = t[i.val] := rfl

theorem ext {t u : Table α n} (h : ∀ i, get t i = get u i) : t = u :=
  Vector.ext fun i hi => h ⟨i, hi⟩

@[simp] theorem get_set (t : Table α n) (i j : Fin n) (a : α) :
    get (set t i a) j = if i = j then a else get t j := by
  simp [get_eq_getElem, set, Vector.getElem_set, Fin.ext_iff]

@[simp] theorem get_fill (i : Fin n) (a : α) : get (fill n a) i = a := by
  simp [get_eq_getElem, fill]

@[simp] theorem get_ofFn (f : Fin n → α) (i : Fin n) : get (ofFn f) i = f i := by
  simp [get_eq_getElem, ofFn]

end Table
end Chip8
