import Chip8.Host.DeviceError
import Chip8.Host.Key
import Chip8.Host.Picture

/-! The window as a program sees it: what it was asked to do, what it reports back at an update, and
what is remembered between updates. -/
namespace Chip8

/-- The enlargements a window can have. -/
inductive Scale
  | x1 | x2 | x4 | x8 | x16 | x32
  deriving DecidableEq, Repr

namespace Scale

def name : Scale → String
  | x1 => "X1"
  | x2 => "X2"
  | x4 => "X4"
  | x8 => "X8"
  | x16 => "X16"
  | x32 => "X32"

/-- The smallest enlargement that reaches a factor, or the largest there is. -/
def ofFactor (factor : UInt32) : Scale :=
  if factor ≤ 1 then x1
  else if factor ≤ 2 then x2
  else if factor ≤ 4 then x4
  else if factor ≤ 8 then x8
  else if factor ≤ 16 then x16
  else x32

end Scale

/-- A request to the window. -/
inductive WindowCall
  | create (title : String) (width height : Nat) (scale : Scale)
  | moveTo (x y : Nat)
  | removeRateLimit
  | setTitle (title : String)
  | update (picture : Array UInt32)
  deriving DecidableEq

/-- What a window reports at an update. -/
structure Report where
  held : List HostKey
  /-- The held keys that were not held at the update before. -/
  pressed : List HostKey
  isOpen : Bool
  deriving DecidableEq

/-- Turns presses into requests: any number of presses before a request is taken make one. -/
structure PressLatch where
  pending : Bool
  deriving DecidableEq, Repr

namespace PressLatch

def note (l : PressLatch) (pressed : Bool) : PressLatch := ⟨l.pending || pressed⟩

def collect (l : PressLatch) : Bool × PressLatch := (l.pending, ⟨false⟩)

end PressLatch

structure Pane where
  picture : Array UInt32
  held : Keypad
  reset : PressLatch
  isRunning : Bool
  deriving DecidableEq

namespace Pane

/-- A new window shows nothing and holds no key. -/
def new : Pane := ⟨Picture.blank, .released, ⟨false⟩, true⟩

/-- The requests that set a window up. The last lifts the window's own limit on updates: whoever
drives the machine keeps the time. -/
def setup : List WindowCall := [.moveTo 500 300, .removeRateLimit]

def creation (title : String) (scale : Scale) : WindowCall :=
  .create title Screen.width Screen.height scale

def draw (p : Pane) (screen : Screen) : Pane :=
  { p with picture := Picture.cover screen p.picture }

/-- Takes in what an update reported: the held pad keys, a press of the reset key, and whether to go
on, which ends when the window is closed and while Escape has just gone down. -/
def receive (p : Pane) (report : Report) : Pane :=
  { p with
    held := .ofHostKeys report.held
    reset := p.reset.note (report.pressed.contains .backspace)
    isRunning := report.isOpen && !report.pressed.contains .escape }

def collectReset (p : Pane) : Bool × Pane :=
  let (asked, latch) := p.reset.collect
  (asked, { p with reset := latch })

end Pane
end Chip8
