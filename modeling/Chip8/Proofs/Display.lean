import Chip8.Display
import Chip8.Proofs.Screen

/-! What drawing does to a display, told without the order in which the cells are toggled: by how
often each pixel is hit. From this follows that sprites can be drawn in any order, though which of
them puts out a lit pixel depends on it. -/
namespace Chip8

namespace Display

/-- Drawing by the number of hits. Every pixel changes if it is hit an odd number of times; a lit
pixel goes out exactly if a lit one is hit or some pixel is hit twice; and the mark is set exactly
if the sprite is not blank. -/
theorem draw_by_hits (d : Display) (x y : UInt8) (rows : List UInt8) :
    let (after, collision) := d.draw x y rows
    (∀ c, after.screen.isLit c =
      (d.screen.isLit c ^^ decide (Odd (Sprite.hits x y rows c)))) ∧
    (collision = true ↔
      ∃ c, (1 ≤ Sprite.hits x y rows c ∧ d.screen.isLit c = true) ∨ 2 ≤ Sprite.hits x y rows c) ∧
    (after.dirty = true ↔ d.dirty = true ∨ ∃ row ∈ rows, row ≠ 0) := by
  simp only [← Sprite.count_cells]
  refine ⟨d.screen.isLit_toggleAll _, d.screen.toggleAll_hit_iff _, ?_⟩
  have hblank : Sprite.cells x y rows = [] ↔ ∀ row ∈ rows, row = 0 := Sprite.cells_eq_nil_iff
  rw [draw, Bool.or_eq_true, Bool.not_eq_true', List.isEmpty_eq_false_iff, Ne, hblank]
  simp only [not_forall, exists_prop, ne_eq]

/-- The last row of a sprite one row higher than the screen falls on its first. -/
example : Sprite.hits 0 0 (List.replicate 33 0x80) (.wrap 0 0) = 2 := by decide +kernel

end Display

/-- A sprite with the place of its corner. -/
structure Stamp where
  x : UInt8
  y : UInt8
  rows : List UInt8

namespace Stamp

def cells (s : Stamp) : List Cell := Sprite.cells s.x s.y s.rows

/-- The same sprite a number of whole screens to the side, up or down. -/
def Aligned (s t : Stamp) : Prop :=
  (∃ k : Int, (t.x.toNat : Int) = s.x.toNat+64*k) ∧
    (∃ k : Int, (t.y.toNat : Int) = s.y.toNat+32*k) ∧ t.rows = s.rows

lemma Aligned.cells_eq {s t : Stamp} (h : s.Aligned t) : t.cells = s.cells := by
  obtain ⟨⟨k, hx⟩, ⟨l, hy⟩, hrows⟩ := h
  unfold cells Sprite.cells
  rw [hrows]
  congr 1
  funext ⟨row, i⟩
  refine congrArg (List.map · (Sprite.litColumns row)) (funext fun j => ?_)
  rw [Sprite.wrap_eq_iff]
  simp only [Cell.wrap]
  omega

end Stamp

namespace Display

/-- Draws one stamp after another; the answers tell each time whether a lit pixel went out. -/
def drawAll (d : Display) : List Stamp → Display × List Bool
  | [] => (d, [])
  | s :: stamps =>
    let (after, hit) := d.draw s.x s.y s.rows
    let (last, hits) := after.drawAll stamps
    (last, hit :: hits)

/-- Stamps leave what their cells toggled in a row leave. -/
lemma drawAll_eq (d : Display) (stamps : List Stamp) :
    (d.drawAll stamps).1 =
      ⟨(d.screen.toggleAll (stamps.flatMap Stamp.cells)).1,
        d.dirty || !(stamps.flatMap Stamp.cells).isEmpty⟩ := by
  induction stamps generalizing d with
  | nil => simp [drawAll, Screen.toggleAll]
  | cons s stamps ih =>
    change ((d.draw s.x s.y s.rows).1.drawAll stamps).1 = _
    rw [ih, List.flatMap_cons, Screen.toggleAll_append]
    cases hs : s.cells with
    | nil =>
      simp only [Stamp.cells] at hs
      simp [draw, hs, Screen.toggleAll]
    | cons c cells =>
      simp only [Stamp.cells] at hs
      simp [draw, hs]

lemma drawAll_aligned {stamps moved : List Stamp} (h : List.Forall₂ Stamp.Aligned stamps moved)
    (d : Display) : d.drawAll moved = d.drawAll stamps := by
  induction h generalizing d with
  | nil => rfl
  | cons hs _ ih =>
    have hcells := hs.cells_eq
    simp only [Stamp.cells] at hcells
    simp only [drawAll, draw, hcells, ih]

/-- Drawing knows no order. Stamps drawn in any other order leave the same screen and the same mark;
stamps drawn a second time in any order restore the screen pixel by pixel; and a stamp moved by
whole screens is the same stamp, also in what its drawing answers. -/
theorem drawing_unordered (d : Display) {stamps shuffled moved : List Stamp}
    (h : stamps.Perm shuffled) (hm : List.Forall₂ Stamp.Aligned stamps moved) :
    (d.drawAll shuffled).1 = (d.drawAll stamps).1 ∧
      ((d.drawAll stamps).1.drawAll shuffled).1.screen = d.screen ∧
      d.drawAll moved = d.drawAll stamps := by
  have hcells : (stamps.flatMap Stamp.cells).Perm (shuffled.flatMap Stamp.cells) :=
    h.flatMap_right Stamp.cells
  refine ⟨?_, ?_, drawAll_aligned hm d⟩
  · rw [drawAll_eq, drawAll_eq, Screen.toggleAll_perm hcells, hcells.isEmpty_eq]
  · rw [drawAll_eq, drawAll_eq]
    exact Screen.toggleAll_twice hcells _

/-- Two stamps that overlap and cross both edges, on a screen with one lit pixel. What the first of
them answers depends on the order, but nothing that is left on the screen does. -/
theorem drawing_unordered_across_edges :
    let first : Stamp := ⟨60, 31, [0xFF,0x81]⟩
    let second : Stamp := ⟨63, 31, [0xC0]⟩
    let moved : Stamp := ⟨124, 255, [0xFF,0x81]⟩
    let d : Display := ⟨Screen.blank.toggle (.wrap 1 31), false⟩
    [first, second].Perm [second, first] ∧
      List.Forall₂ Stamp.Aligned [first, second] [moved, second] ∧
      (d.drawAll [first, second]).2 = [true, true] ∧
      (d.drawAll [second, first]).2 = [false, true] ∧
      (d.drawAll [second, first]).1 = (d.drawAll [first, second]).1 ∧
      ((d.drawAll [first, second]).1.drawAll [second, first]).1.screen = d.screen ∧
      d.drawAll [moved, second] = d.drawAll [first, second] := by
  intro first second moved d
  have hfirst : Sprite.cells 60 31 [0xFF,0x81] =
      [.wrap 60 31, .wrap 61 31, .wrap 62 31, .wrap 63 31, .wrap 0 31, .wrap 1 31, .wrap 2 31,
        .wrap 3 31, .wrap 60 0, .wrap 3 0] := by decide
  have hsecond : Sprite.cells 63 31 [0xC0] = [.wrap 63 31, .wrap 0 31] := by decide
  have hperm : [first, second].Perm [second, first] := .swap ..
  have hmoved : List.Forall₂ Stamp.Aligned [first, second] [moved, second] :=
    .cons ⟨⟨1, rfl⟩, ⟨7, rfl⟩, rfl⟩ (.cons ⟨⟨0, rfl⟩, ⟨0, rfl⟩, rfl⟩ .nil)
  refine ⟨hperm, hmoved, ?_, ?_, drawing_unordered d hperm hmoved⟩
  · simp [drawAll, draw, hfirst, hsecond, first, second, d, Screen.toggleAll, Cell.wrap]
  · simp [drawAll, draw, hfirst, hsecond, first, second, d, Screen.toggleAll, Cell.wrap]

end Display
end Chip8
