import Chip8.Checked
import Chip8.Text.Hex

/-! A fetched word and the fields it is read by.

    ---- ---- ---- ----
    kind  x    y    n
         ---- nnn -----
              --- nn --

Every field is a run of hexadecimal digits of the word, cut out by `Opcode.digits`. -/
namespace Chip8

structure Opcode where
  code : UInt16
  deriving DecidableEq, Repr

namespace Opcode

def text (w : Opcode) : String := Hex.upper 4 w.code.toNat

/-- The run of `count` digits that starts at digit `first`, the leftmost digit being number one.
A run that leaves the word, and the empty run before its first digit, have no value. -/
@[inline] def digits (w : Opcode) (first count : UInt8) : Except Trap UInt16 := do
  let room ← Checked.subByte 4 count
  let before ← Checked.subByte first 1
  let after ← Checked.subByte room before
  let places ← Checked.mulByte after 4
  let width ← Checked.mulByte count 4
  let mask ← Checked.subLong (← Checked.shiftLeftLong 1 width) 1
  let shifted ← Checked.shiftRightWord w.code places
  return shifted &&& mask.toUInt16

/-- One digit of the word, as a register number, a count or a group. -/
@[inline] def digit (w : Opcode) (place : UInt8) : Except Trap (Fin 16) := do
  return ⟨(← w.digits place 1).toNat % 16, Nat.mod_lt _ (by decide)⟩

/-- The fields of a word under their usual names. -/
structure Fields where
  kind : Fin 16
  x : Fin 16
  y : Fin 16
  n : Fin 16
  nn : UInt8
  nnn : UInt16
  deriving DecidableEq, Repr

def fields (w : Opcode) : Except Trap Fields := do
  return {
    kind := ← w.digit 1
    x := ← w.digit 2
    y := ← w.digit 3
    n := ← w.digit 4
    nn := (← w.digits 3 2).toUInt8
    nnn := ← w.digits 2 3 }

end Opcode
end Chip8
