import Chip8.Table

/-! The sixteen byte registers `V0` to `VF`. The last one doubles as the flag of the instructions
that report a carry, a borrow, a lost bit or a collision. -/
namespace Chip8

structure RegisterFile where
  values : Table UInt8 16
  deriving DecidableEq, Repr

namespace RegisterFile

/-- The flag register `VF`. -/
def flag : Fin 16 := ⟨15, by decide⟩

/-- The register `V0`, the offset of an indexed jump. -/
def first : Fin 16 := ⟨0, by decide⟩

def zero : RegisterFile := ⟨.fill 16 0⟩

def get (v : RegisterFile) (x : Fin 16) : UInt8 := v.values.get x

def set (v : RegisterFile) (x : Fin 16) (value : UInt8) : RegisterFile :=
  ⟨v.values.set x value⟩

def setFlag (v : RegisterFile) (raised : Bool) : RegisterFile :=
  v.set flag (if raised then 1 else 0)

/-- The sum wraps and no flag is touched. -/
def add (v : RegisterFile) (x : Fin 16) (value : UInt8) : RegisterFile :=
  v.set x (v.get x + value)

def toList (v : RegisterFile) : List UInt8 := v.values.toList

@[ext] theorem ext {v w : RegisterFile} (h : ∀ x, v.get x = w.get x) : v = w := by
  obtain ⟨v⟩ := v
  obtain ⟨w⟩ := w
  congr 1
  exact Table.ext h

@[simp] theorem get_zero (x : Fin 16) : zero.get x = 0 := by
  simp [zero, get]

@[simp] theorem get_set (v : RegisterFile) (x y : Fin 16) (value : UInt8) :
    (v.set x value).get y = if x = y then value else v.get y := by
  simp [set, get]

@[simp] theorem get_setFlag (v : RegisterFile) (raised : Bool) (y : Fin 16) :
    (v.setFlag raised).get y = if flag = y then (if raised then 1 else 0) else v.get y := by
  simp [setFlag]

@[simp] theorem get_add (v : RegisterFile) (x y : Fin 16) (value : UInt8) :
    (v.add x value).get y = if x = y then v.get x + value else v.get y := by
  simp [add]

end RegisterFile
end Chip8
