import Chip8.Host.Picture
import Mathlib.Data.List.OfFn
import Mathlib.Tactic.Lemma

/-! How a screen is written over a buffer. Row by row, every row over a line of the buffer and every
pixel over a colour of the line, a writing stops wherever one of the two runs out: in the last line
if that is short, or with the last row if there are more lines. In the end this is the same as
writing all pixels in one go, so a buffer of any size takes the colours that fit, each where its row
and column put it. -/
namespace Chip8

/-- The pixels row by row. -/
def Screen.rows (screen : Screen) : List (List Bool) :=
  List.ofFn fun row => List.ofFn fun col => screen.isLit ⟨row,col⟩

lemma Screen.length_of_mem_rows {screen : Screen} {row : List Bool} (h : row ∈ screen.rows) :
    row.length = width := by
  obtain ⟨r, rfl⟩ := List.mem_ofFn.mp h
  exact List.length_ofFn

lemma Screen.flatten_rows (screen : Screen) :
    screen.rows.flatten = List.ofFn fun k => screen.isLit (Cell.ofIndex k) := by
  refine Eq.trans ?_ (List.ofFn_mul (m := 32) (n := 64) _).symm
  refine congrArg List.flatten (congrArg List.ofFn (funext fun row => ?_))
  refine congrArg List.ofFn (funext fun col => ?_)
  have hcell : Cell.ofIndex (Cell.index ⟨row,col⟩) = ⟨row,col⟩ := Cell.ofIndex_index _
  rw [← hcell]
  rfl

namespace Picture

/-- Writes a row over a line, as far as both go. -/
def overLine : List Bool → List UInt32 → List UInt32
  | on :: row, _ :: line => ofPixel on :: overLine row line
  | [], line => line
  | _ :: _, [] => []

/-- Writes rows over the lines of a buffer, as far as there are both. -/
def overLines : List (List Bool) → List UInt32 → List UInt32
  | [], buffer => buffer
  | row :: rows, buffer =>
    overLine row (buffer.take Screen.width) ++ overLines rows (buffer.drop Screen.width)

lemma overLine_nil_right (row : List Bool) : overLine row [] = [] := by
  cases row <;> rfl

lemma getElem?_overLine (row : List Bool) (colours : List UInt32) (k : Nat) :
    (overLine row colours)[k]? =
      colours[k]?.map fun old => (row[k]?.map ofPixel).getD old := by
  induction row generalizing colours k with
  | nil => simp [overLine]
  | cons on row ih =>
    cases colours with
    | nil => simp [overLine]
    | cons old colours =>
      cases k with
      | zero => rfl
      | succ k =>
        simp only [overLine, List.getElem?_cons_succ]
        exact ih colours k

/-- Two rows are written over a line one behind the other. -/
lemma overLine_append (row row' : List Bool) (line : List UInt32) :
    overLine (row ++ row') line =
      overLine row (line.take row.length) ++ overLine row' (line.drop row.length) := by
  induction row generalizing line with
  | nil => rfl
  | cons on row ih =>
    cases line with
    | nil => simp only [List.take_nil, List.drop_nil, overLine_nil_right, List.append_nil]
    | cons old line =>
      simp only [List.cons_append, overLine, List.length_cons, List.take_succ_cons,
        List.drop_succ_cons, ih]

/-- Whole rows are written as if they were one. -/
lemma overLines_eq_overLine {rows : List (List Bool)} (h : ∀ row ∈ rows, row.length = Screen.width)
    (buffer : List UInt32) : overLines rows buffer = overLine rows.flatten buffer := by
  induction rows generalizing buffer with
  | nil => rfl
  | cons row rows ih =>
    obtain ⟨hrow, hrows⟩ := List.forall_mem_cons.mp h
    rw [overLines, ih hrows, List.flatten_cons, overLine_append, hrow]

lemma getElem?_pixels (screen : Screen) {k : Nat} (hk : k < 2048) :
    screen.pixels[k]? = some (screen.isLit (Cell.ofIndex ⟨k,hk⟩)) := by
  rw [Screen.isLit, Cell.index_ofIndex, Table.get_eq_getElem]
  exact Vector.getElem?_eq_getElem hk

/-- A screen is written over a buffer row by row. -/
theorem toList_cover (screen : Screen) (buffer : Array UInt32) :
    (cover screen buffer).toList = overLines screen.rows buffer.toList := by
  have hpixels : ∀ k : Nat, screen.rows.flatten[k]? = screen.pixels[k]? := by
    intro k
    rw [Screen.flatten_rows, List.getElem?_ofFn]
    split
    case isTrue hk => exact (getElem?_pixels screen hk).symm
    case isFalse hk => exact (Vector.getElem?_eq_none (Nat.le_of_not_lt hk)).symm
  rw [overLines_eq_overLine fun row => Screen.length_of_mem_rows]
  refine List.ext_getElem? fun k => ?_
  rw [getElem?_overLine, hpixels, Array.getElem?_toList, Array.getElem?_toList, cover,
    Array.getElem?_mapIdx]

lemma getElem?_cover {screen : Screen} {buffer : Array UInt32} {k : Nat} (hk : k < 2048)
    (hlt : k < buffer.size) :
    (cover screen buffer)[k]? = some (ofPixel (screen.isLit (Cell.ofIndex ⟨k,hk⟩))) := by
  rw [cover, Array.getElem?_mapIdx, Array.getElem?_eq_getElem hlt, Option.map_some,
    getElem?_pixels screen hk]
  rfl

lemma getElem?_cover_behind (screen : Screen) (buffer : Array UInt32) {k : Nat} (hk : 2048 ≤ k) :
    (cover screen buffer)[k]? = buffer[k]? := by
  have hnone : screen.pixels[k]? = none := Vector.getElem?_eq_none hk
  simp only [cover, Array.getElem?_mapIdx, hnone, Option.map_none, Option.getD_none, Option.map_id']

lemma ofPixel_injective : Function.Injective ofPixel := by
  unfold Function.Injective
  decide

/-- A buffer that takes a whole screen tells what the screen was. -/
lemma cover_injective {screen screen' : Screen} {buffer buffer' : Array UInt32}
    (hroom : 2048 ≤ buffer.size) (h : cover screen buffer = cover screen' buffer') :
    screen = screen' := by
  have hsize : buffer.size = buffer'.size := by
    rw [← size_cover screen buffer, h, size_cover]
  refine Screen.ext fun c => ofPixel_injective ?_
  have hk := c.index.isLt
  have hsame := congrArg (·[c.index.val]?) h
  rw [getElem?_cover hk (by omega), getElem?_cover hk (by omega), Cell.ofIndex_index] at hsame
  exact Option.some.inj hsame

/-- A screen over a buffer of any size. It is written row by row and line by line, as far as there
are both. In the end every entry that belongs to a pixel has the colour of the pixel in its row and
column; entries behind the screen keep what they were, and there are as many entries as before. So
two screens that leave the same behind in a buffer with room for a whole one are equal. -/
theorem cover_row_by_row (screen : Screen) (buffer : Array UInt32) :
    (cover screen buffer).toList = overLines screen.rows buffer.toList ∧
    (cover screen buffer).size = buffer.size ∧
    (∀ k, k < buffer.size → ∀ hk : k < 2048, (cover screen buffer)[k]? =
      some (if screen.isLit (Cell.ofIndex ⟨k,hk⟩) then 0x007FFF else 0)) ∧
    (∀ k, 2048 ≤ k → (cover screen buffer)[k]? = buffer[k]?) ∧
    ∀ screen' buffer', 2048 ≤ buffer.size →
      cover screen buffer = cover screen' buffer' → screen = screen' := by
  refine ⟨toList_cover screen buffer, size_cover screen buffer, fun k hlt hk => ?_,
    fun k hk => getElem?_cover_behind screen buffer hk,
    fun screen' buffer' hroom h => cover_injective hroom h⟩
  have hcolours : lit = 0x007FFF ∧ unlit = 0 := by decide
  rw [getElem?_cover hk hlt, ofPixel, hcolours.1, hcolours.2]

/-- A pixel in the fourth column of the second row. A buffer of seventy colours holds it in a short
line, and one of 2050 keeps the last two colours. -/
theorem cover_row_by_row_ragged :
    let screen := Screen.blank.toggle ⟨1,3⟩
    let short := Array.replicate 70 (5 : UInt32)
    let long := Array.replicate 2050 (5 : UInt32)
    (cover screen short).size = 70 ∧ (cover screen short)[67]? = some 0x007FFF ∧
      (cover screen short)[69]? = some 0 ∧ (cover screen long)[67]? = some 0x007FFF ∧
      (cover screen long)[2047]? = some 0 ∧ (cover screen long)[2049]? = some 5 ∧
      cover .blank long ≠ cover screen long := by
  intro screen short long
  have hshort : short.size = 70 := Array.size_replicate
  have hlong : long.size = 2050 := Array.size_replicate
  have hpixel : ∀ c, screen.isLit c = decide (⟨1,3⟩ = c) := by
    intro c
    rw [Screen.isLit_toggle, Screen.isLit_blank, Screen.isLit_blank]
    simp
  obtain ⟨-, hsize, hentry, -, -⟩ := cover_row_by_row screen short
  obtain ⟨-, -, hentry', hbehind, hequal⟩ := cover_row_by_row screen long
  refine ⟨hsize.trans hshort, ?_, ?_, ?_, ?_, ?_, fun h => ?_⟩
  · rw [hentry 67 (by omega) (by decide), hpixel]
    rfl
  · rw [hentry 69 (by omega) (by decide), hpixel]
    rfl
  · rw [hentry' 67 (by omega) (by decide), hpixel]
    rfl
  · rw [hentry' 2047 (by omega) (by decide), hpixel]
    rfl
  · rw [hbehind 2049 (by decide), Array.getElem?_replicate]
    rfl
  · have hcell := hpixel ⟨1,3⟩
    rw [hequal .blank long (by omega) h.symm, Screen.isLit_blank] at hcell
    exact absurd hcell (by decide)

end Picture
end Chip8
