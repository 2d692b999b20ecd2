import Chip8.Screen

/-! The screen as colours for a window, row by row. -/
namespace Chip8.Picture

/-- A colour from its red, green and blue parts. -/
def colour (red green blue : UInt8) : UInt32 :=
  red.toUInt32 <<< 16 ||| green.toUInt32 <<< 8 ||| blue.toUInt32

def lit : UInt32 := colour 0 127 255
def unlit : UInt32 := colour 0 0 0

def ofPixel (on : Bool) : UInt32 := if on then lit else unlit

/-- Writes a screen over the start of a buffer; a short buffer takes what fits, and what lies behind
the screen stays. -/
def cover (screen : Screen) (buffer : Array UInt32) : Array UInt32 :=
  buffer.mapIdx fun k old => (screen.pixels[k]?.map ofPixel).getD old

def blank : Array UInt32 := Array.replicate 2048 unlit

example : lit = 0x007FFF ∧ unlit = 0 := by decide

@[simp] theorem size_cover (screen : Screen) (buffer : Array UInt32) :
    (cover screen buffer).size = buffer.size := by
  simp [cover]

end Chip8.Picture
