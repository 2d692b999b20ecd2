import Chip8.Host.Session
import Chip8.Proofs.Host.Picture
import Chip8.Proofs.Machine.Presentation

/-! Pictures of screens. A picture of the right size shows a screen after it was written over, and a
pane that is handed some frames shows the last of them. -/
namespace Chip8

/-- A picture shows a screen if every colour is that of the pixel with the same number. -/
def Picture.Shows (picture : Array UInt32) (screen : Screen) : Prop :=
  picture.size = 2048 ∧ ∀ k : Fin 2048,
    picture[k.val]? = some (ofPixel (screen.isLit (Cell.ofIndex k)))

namespace Picture

lemma shows_blank : Shows blank .blank := by
  refine ⟨Array.size_replicate, fun k => ?_⟩
  rw [blank, Array.getElem?_replicate, if_pos k.isLt, Screen.isLit_blank]
  rfl

lemma shows_cover {screen : Screen} {buffer : Array UInt32} (h : buffer.size = 2048) :
    Shows (cover screen buffer) screen := by
  refine ⟨(size_cover screen buffer).trans h, fun k => getElem?_cover k.isLt ?_⟩
  rw [h]
  exact k.isLt

end Picture

namespace Pane

/-- Frames change the picture and nothing else. -/
lemma drawAll_eq (p : Pane) (pulses : List Pulse) :
    p.drawAll pulses = { p with picture := (p.drawAll pulses).picture } := by
  induction pulses generalizing p with
  | nil => rfl
  | cons pulse pulses ih =>
    rw [drawAll, List.foldl_cons]
    refine (ih _).trans ?_
    cases pulse.frame <;> rfl

@[simp] lemma held_drawAll (p : Pane) (pulses : List Pulse) : (p.drawAll pulses).held = p.held := by
  rw [drawAll_eq]

@[simp] lemma reset_drawAll (p : Pane) (pulses : List Pulse) :
    (p.drawAll pulses).reset = p.reset := by
  rw [drawAll_eq]

@[simp] lemma isRunning_drawAll (p : Pane) (pulses : List Pulse) :
    (p.drawAll pulses).isRunning = p.isRunning := by
  rw [drawAll_eq]

/-- A pane shows the frame it was handed last. -/
theorem shows_drawAll {p : Pane} {shown : Screen} (h : Picture.Shows p.picture shown)
    (pulses : List Pulse) :
    Picture.Shows (p.drawAll pulses).picture (lastFrame shown pulses) := by
  induction pulses generalizing p shown with
  | nil => exact h
  | cons pulse pulses ih =>
    rw [drawAll, List.foldl_cons, lastFrame_cons]
    refine ih ?_
    cases pulse.frame with
    | none => exact h
    | some screen => exact Picture.shows_cover h.1

end Pane
end Chip8
