import Chip8.Screen

/-! The screen together with a mark that it has changed since it was last shown. Drawing only sets
the mark; showing hands out the screen once and takes the mark away. -/
namespace Chip8

structure Display where
  screen : Screen
  /-- Whether there may be something to show. -/
  dirty : Bool
  deriving DecidableEq

namespace Display

def blank : Display := ⟨.blank, false⟩

/-- A clear screen counts as a change even if it was clear before. -/
def clear (_ : Display) : Display := ⟨.blank, true⟩

/-- Toggles a sprite's cells; the answer tells whether a lit pixel went out. -/
def draw (d : Display) (x y : UInt8) (rows : List UInt8) : Display × Bool :=
  let cells := Sprite.cells x y rows
  let (screen, hit) := d.screen.toggleAll cells
  (⟨screen, d.dirty || !cells.isEmpty⟩, hit)

/-- The screen if it has to be shown. -/
def refresh (d : Display) : Display × Option Screen :=
  ({ d with dirty := false }, if d.dirty then some d.screen else none)

end Display
end Chip8
