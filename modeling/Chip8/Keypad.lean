import Chip8.Text.Hex

/-! The sixteen keys of the pad, 0 to F, and which of them are held. -/
namespace Chip8

/-- The keys held down, one bit a key. -/
structure Keypad where
  mask : UInt16
  deriving DecidableEq, Repr

namespace Keypad

def released : Keypad := ⟨0⟩

/-- The bit of a key; only the low digit of `key` names it. -/
def bit (key : UInt8) : UInt16 := 1 <<< (key &&& 0xF).toUInt16

def hold (k : Keypad) (key : UInt8) : Keypad := ⟨k.mask ||| bit key⟩

def release (k : Keypad) (key : UInt8) : Keypad := ⟨k.mask &&& ~~~ bit key⟩

/-- A number above `0xF` names no key and is never held. -/
def isHeld (k : Keypad) (key : UInt8) : Bool :=
  key ≤ 0xF && k.mask &&& bit key != 0

def isEmpty (k : Keypad) : Bool := k.mask == 0

/-- The held keys, lowest first. -/
def toList (k : Keypad) : List UInt8 :=
  ((List.range 16).map Nat.toUInt8).filter k.isHeld

def ofList (keys : List UInt8) : Keypad := keys.foldl hold released

/-- The lowest key held. -/
def first? (k : Keypad) : Option UInt8 := k.toList.head?

/-- The held keys as a set of quoted digits. -/
def text (k : Keypad) : String :=
  let quoted := k.toList.map fun key => "\"" ++ Hex.upper 1 key.toNat ++ "\""
  "\x7b" ++ ", ".intercalate quoted ++ "\x7d"

end Keypad
end Chip8
