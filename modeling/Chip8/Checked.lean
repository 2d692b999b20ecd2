/-! Fixed-width arithmetic that stops instead of wrapping. Wherever the machine or the decoder adds,
subtracts, multiplies or shifts without meaning to wrap, it goes through one of these operations: a
run in which none of them stopped has lost no bit. -/
namespace Chip8

/-- Arithmetic that has no answer in its width, and the one other request that has none. -/
inductive Trap
  | addOverflow
  | subtractOverflow
  | multiplyOverflow
  | shiftLeftOverflow
  | shiftRightOverflow
  /-- Audio samples were to be grouped into frames of no channel. -/
  | emptyFrame
  deriving DecidableEq, Repr

def Trap.message : Trap → String
  | .addOverflow => "attempt to add with overflow"
  | .subtractOverflow => "attempt to subtract with overflow"
  | .multiplyOverflow => "attempt to multiply with overflow"
  | .shiftLeftOverflow => "attempt to shift left with overflow"
  | .shiftRightOverflow => "attempt to shift right with overflow"
  | .emptyFrame => "chunk size must be non-zero"

namespace Checked

@[inline] def subByte (a b : UInt8) : Except Trap UInt8 :=
  if b ≤ a then .ok (a - b) else .error .subtractOverflow

@[inline] def mulByte (a b : UInt8) : Except Trap UInt8 :=
  if a.toNat * b.toNat < UInt8.size then .ok (a * b) else .error .multiplyOverflow

@[inline] def addWord (a b : UInt16) : Except Trap UInt16 :=
  if a.toNat + b.toNat < UInt16.size then .ok (a + b) else .error .addOverflow

@[inline] def mulWord (a b : UInt16) : Except Trap UInt16 :=
  if a.toNat * b.toNat < UInt16.size then .ok (a * b) else .error .multiplyOverflow

@[inline] def shiftRightWord (a : UInt16) (places : UInt8) : Except Trap UInt16 :=
  if places < 16 then .ok (a >>> places.toUInt16) else .error .shiftRightOverflow

@[inline] def addLong (a b : UInt32) : Except Trap UInt32 :=
  if a.toNat + b.toNat < UInt32.size then .ok (a + b) else .error .addOverflow

@[inline] def subLong (a b : UInt32) : Except Trap UInt32 :=
  if b ≤ a then .ok (a - b) else .error .subtractOverflow

@[inline] def shiftLeftLong (a : UInt32) (places : UInt8) : Except Trap UInt32 :=
  if places < 32 then .ok (a <<< places.toUInt32) else .error .shiftLeftOverflow

end Checked
end Chip8
