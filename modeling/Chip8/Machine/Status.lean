import Chip8.Machine.Basic

/-! A reading of the machine for people: a status line, an overlay of the registers and a full
listing. -/
namespace Chip8

structure Status where
  pc : UInt16
  sound : UInt8
  delay : UInt8
  /-- Return addresses, oldest first. -/
  stack : List UInt16
  registers : RegisterFile
  index : UInt16
  deriving DecidableEq

namespace Status

def line (s : Status) : String :=
  s!"PC {Hex.upper 3 s.pc.toNat}  I {Hex.upper 3 s.index.toNat}  " ++
    s!"DT {Hex.upper 2 s.delay.toNat}  ST {Hex.upper 2 s.sound.toNat}  SP {s.stack.length}"

/-- One line a register. -/
def overlay (s : Status) : String :=
  String.join (s.registers.toList.zipIdx.map fun (value, x) =>
    s!"V{Hex.upper 1 x}: {Hex.upper 2 value.toNat}\n")

def bracketed (numbers : List Nat) : String :=
  "[" ++ ", ".intercalate (numbers.map toString) ++ "]"

/-- Every field under its name, numbers in decimal. -/
def listing (s : Status) : String :=
  "DebugSnapshot \x7b " ++
    s!"pc: {s.pc.toNat}, sound_timer: {s.sound.toNat}, delay_timer: {s.delay.toNat}, " ++
    s!"stack: {bracketed (s.stack.map UInt16.toNat)}, " ++
    s!"registers: {bracketed (s.registers.toList.map UInt8.toNat)}, index: {s.index.toNat} " ++
    "\x7d"

end Status

def Machine.status (m : Machine) : Status where
  pc := m.pc
  sound := m.sound.count
  delay := m.delay.count
  stack := m.stack.oldestFirst
  registers := m.registers
  index := m.index

end Chip8
