import Chip8.CallStack
import Chip8.Display
import Chip8.Font
import Chip8.Journal
import Chip8.Keypad
import Chip8.Memory
import Chip8.Random
import Chip8.RegisterFile
import Chip8.Timer

/-! The whole machine as one value, and the small moves that instructions are made of. Devices are
not part of it: held keys come in as an argument, and frames and beeps go out as results. -/
namespace Chip8

structure Machine where
  memory : Memory
  registers : RegisterFile
  /-- Twelve bits in every state a run can reach; fetching masks it all the same. -/
  pc : UInt16
  /-- All sixteen bits count, so that a sum past the last address can be noticed. -/
  index : UInt16
  stack : CallStack
  delay : Timer
  sound : Timer
  display : Display
  random : Random
  deriving DecidableEq

namespace Machine

/-- Low twelve bits of a word. -/
def wrap (w : UInt16) : UInt16 := w &&& 0x0FFF

@[simp] theorem toNat_wrap (w : UInt16) : (wrap w).toNat = w.toNat % 4096 := by
  simpa [wrap] using Nat.and_two_pow_sub_one_eq_mod w.toNat 12

def start : UInt16 := Memory.programStart.toUInt16

/-- Power-on state around a given memory. -/
def powerOn (memory : Memory) (random : Random) : Machine where
  memory := memory
  registers := .zero
  pc := start
  index := 0
  stack := .empty
  delay := ⟨0⟩
  sound := ⟨0⟩
  display := .blank
  random := random

/-- A machine with both images loaded. -/
def boot (font rom : Array UInt8) (random : Random) : Except Error Machine := do
  return powerOn (← Memory.withImages font rom) random

def fontEntry (font : Array UInt8) : Entry :=
  ⟨.debug, s!"loaded {font.size} byte font at {Hex.marked 3 Memory.fontStart}"⟩

def romEntry (rom : Array UInt8) : Entry :=
  ⟨.debug, s!"loaded {rom.size} byte rom at {Hex.marked 3 Memory.programStart}"⟩

/-- What loading tells: a line for each image that fits, up to the first that does not. -/
def bootEntries (font rom : Array UInt8) : List Entry :=
  if font.size ≤ Memory.fontLimit then
    fontEntry font :: if rom.size ≤ Memory.romLimit then [romEntry rom] else []
  else []

/-! ### Loading -/

/-- Takes over the memory that loading came to. Loading that failed changes nothing. -/
def install (m : Machine) : Except Error Memory → Machine × Except Error Unit
  | .ok memory => ({ m with memory := memory }, .ok ())
  | .error cause => (m, .error cause)

/-- Loads a font into a machine that is on already. -/
def loadFont (m : Machine) (font : Array UInt8) : Machine × Except Error Unit :=
  m.install (m.memory.loadFont font)

/-- Loads a program into a machine that is on already. -/
def loadRom (m : Machine) (rom : Array UInt8) : Machine × Except Error Unit :=
  m.install (m.memory.loadRom rom)

/-! ### Program counter -/

def fetch (m : Machine) : Opcode := ⟨m.memory.readWord m.pc⟩

def jump (m : Machine) (target : UInt16) : Machine := { m with pc := wrap target }

/-- On to the next instruction. -/
def advance (m : Machine) : Machine := { m with pc := wrap (m.pc + 2) }

/-- Back onto the instruction just passed. -/
def rewind (m : Machine) : Machine := { m with pc := wrap (m.pc - 2) }

def skipIf (m : Machine) (condition : Bool) : Machine := if condition then m.advance else m

/-! ### Registers and index -/

def reg (m : Machine) (x : Fin 16) : UInt8 := m.registers.get x

def setReg (m : Machine) (x : Fin 16) (value : UInt8) : Machine :=
  { m with registers := m.registers.set x value }

def setFlag (m : Machine) (raised : Bool) : Machine :=
  { m with registers := m.registers.setFlag raised }

def setIndex (m : Machine) (address : UInt16) : Machine := { m with index := address }

/-- The address `k` past the index. -/
def indexed (m : Machine) (k : UInt16) : Address := .ofWord (m.index + k)

/-- The sum wraps at sixteen bits. -/
def addIndex (m : Machine) (value : UInt8) : Machine :=
  { m with index := m.index + value.toUInt16 }

/-- Whether the index points past the last address. -/
def indexIsOut (m : Machine) : Bool := 0x0FFF < m.index

/-! ### Reset -/

/-- Power-on counter, index and call stack. -/
def resetControl (m : Machine) : Machine := { m with pc := start, index := 0, stack := .empty }

/-- Power-on state with a cleared screen; memory and the random stream stay as they are. -/
def reset (m : Machine) : Machine :=
  { m.resetControl with
    registers := .zero
    delay := ⟨0⟩
    sound := ⟨0⟩
    display := m.display.clear }

def resetEntry : Entry := ⟨.debug, "cpu reset"⟩

end Machine
end Chip8
