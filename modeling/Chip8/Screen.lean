import Chip8.Table

/-! The monochrome screen: 32 rows of 64 pixels. A sprite is a list of rows of eight pixels; its lit
cells wrap around both edges, and painting toggles them one after the other. -/
namespace Chip8

structure Cell where
  row : Fin 32
  col : Fin 64
  deriving DecidableEq, Repr

namespace Cell

/-- The cell under column `x` and row `y`, both wrapped. -/
def wrap (x y : Nat) : Cell where
  row := ⟨y % 32, Nat.mod_lt _ (by decide)⟩
  col := ⟨x % 64, Nat.mod_lt _ (by decide)⟩

/-- Cells are numbered along the rows. -/
def index (c : Cell) : Fin 2048 :=
  ⟨c.row.val * 64 + c.col.val, by omega⟩

def ofIndex (k : Fin 2048) : Cell := ⟨⟨k.val / 64, by omega⟩, ⟨k.val % 64, by omega⟩⟩

@[simp] theorem index_ofIndex (k : Fin 2048) : (ofIndex k).index = k := by
  ext
  simp [ofIndex, index]
  omega

@[simp] theorem ofIndex_index (c : Cell) : ofIndex c.index = c := by
  obtain ⟨r, k⟩ := c
  simp only [ofIndex, index, mk.injEq, Fin.ext_iff]
  omega

theorem index_inj {c d : Cell} : c.index = d.index ↔ c = d :=
  ⟨fun h => by rw [← ofIndex_index c, h, ofIndex_index], fun h => h ▸ rfl⟩

end Cell

structure Screen where
  pixels : Table Bool 2048
  deriving DecidableEq

namespace Screen

def width : Nat := 64
def height : Nat := 32

def blank : Screen := ⟨.fill 2048 false⟩

def isLit (s : Screen) (c : Cell) : Bool := s.pixels.get c.index

def toggle (s : Screen) (c : Cell) : Screen :=
  ⟨s.pixels.set c.index (!s.isLit c)⟩

/-- Toggles cell after cell; the answer tells whether one of them was lit when its turn came. -/
def toggleAll (s : Screen) : List Cell → Screen × Bool
  | [] => (s, false)
  | c :: rest =>
    let lit := s.isLit c
    let (after, hit) := (s.toggle c).toggleAll rest
    (after, lit || hit)

def litCount (s : Screen) : Nat := s.pixels.count true

@[ext] theorem ext {s t : Screen} (h : ∀ c, s.isLit c = t.isLit c) : s = t := by
  obtain ⟨s⟩ := s
  obtain ⟨t⟩ := t
  congr 1
  exact Table.ext fun k => by simpa [isLit] using h (Cell.ofIndex k)

@[simp] theorem isLit_blank (c : Cell) : blank.isLit c = false := by
  simp [blank, isLit]

@[simp] theorem isLit_toggle (s : Screen) (c d : Cell) :
    (s.toggle c).isLit d = if c = d then !s.isLit c else s.isLit d := by
  simp only [toggle, isLit, Table.get_set, Cell.index_inj]

end Screen

namespace Sprite

/-- The columns of a row's set bits, the most significant bit being column zero. -/
def litColumns (row : UInt8) : List Nat :=
  (List.range 8).filter fun j => row.toNat.testBit (7 - j)

/-- The cells a sprite lights with its corner at `(x, y)`, row by row from the left. -/
def cells (x y : UInt8) (rows : List UInt8) : List Cell :=
  rows.zipIdx.flatMap fun (row, i) =>
    (litColumns row).map fun j => Cell.wrap (x.toNat + j) (y.toNat + i)

end Sprite
end Chip8
