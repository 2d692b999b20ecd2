/-! Sample formats, and the conversion of a loudness between minus one and one into each of them. A
loudness is given as a binary32 pattern and taken apart exactly: it is its significand times a power
of two, so scaling and truncating it needs whole numbers only. -/
namespace Chip8

inductive SampleFormat
  | i8 | i16 | i32 | i64
  | u8 | u16 | u32 | u64
  | f32 | f64
  deriving DecidableEq, Repr

namespace SampleFormat

def all : List SampleFormat := [i8, i16, i32, i64, u8, u16, u32, u64, f32, f64]

def name : SampleFormat → String
  | i8 => "i8"
  | i16 => "i16"
  | i32 => "i32"
  | i64 => "i64"
  | u8 => "u8"
  | u16 => "u16"
  | u32 => "u32"
  | u64 => "u64"
  | f32 => "f32"
  | f64 => "f64"

def ofName? (name : String) : Option SampleFormat := all.find? fun f => f.name == name

end SampleFormat

/-- A pattern of the 32-bit binary floating-point format. -/
structure Single where
  bits : UInt32
  deriving DecidableEq, Repr

namespace Single

def zero : Single := ⟨0⟩

def isNegative (s : Single) : Bool := s.bits >>> 31 == 1

def exponent (s : Single) : Nat := (s.bits >>> 23 &&& 0xFF).toNat

def fraction (s : Single) : Nat := (s.bits &&& 0x7FFFFF).toNat

def isNaN (s : Single) : Bool := s.exponent == 255 && s.fraction != 0

def significand (s : Single) : Nat :=
  if s.exponent = 0 then s.fraction else s.fraction ||| 1 <<< 23

/-- The whole part of the magnitude moved `k` places up. An infinity counts as the power of two
after the largest finite magnitude. -/
def scaled (s : Single) (k : Nat) : Nat :=
  s.significand <<< (max s.exponent 1 + k) >>> 150

/-- Scaled to `k + 1` bits with sign, truncated towards zero and held at the ends of the range. -/
def toSigned (s : Single) (k : Nat) : Int :=
  if s.isNaN then 0
  else if s.isNegative then -(min (s.scaled k) (1 <<< k) : Nat)
  else (min (s.scaled k) (1 <<< k - 1) : Nat)

/-- The same signed value moved up to start at zero. -/
def toUnsigned (s : Single) (k : Nat) : Int := s.toSigned k + (1 <<< k : Nat)

/-- The 64-bit pattern of the same number. A pattern that is no number keeps its fraction and is
marked quiet. -/
def widen (s : Single) : UInt64 :=
  let sign : Nat := if s.isNegative then 1 <<< 63 else 0
  let f := s.fraction
  let magnitude : Nat :=
    if s.exponent = 255 then
      2047 <<< 52 ||| (if f = 0 then 0 else f <<< 29 ||| 1 <<< 51)
    else if s.exponent = 0 then
      if f = 0 then 0
      else (f.log2 + 874) <<< 52 ||| (f - 1 <<< f.log2) <<< (52 - f.log2)
    else (s.exponent + 896) <<< 52 ||| f <<< 29
  (sign ||| magnitude).toUInt64

end Single

/-- A converted sample: a whole number, or the pattern of a floating-point number. -/
inductive Sample
  | whole (value : Int)
  | single (bits : UInt32)
  | double (bits : UInt64)
  deriving DecidableEq, Repr

def Sample.ofSingle (s : Single) : SampleFormat → Sample
  | .i8 => .whole (s.toSigned 7)
  | .i16 => .whole (s.toSigned 15)
  | .i32 => .whole (s.toSigned 31)
  | .i64 => .whole (s.toSigned 63)
  | .u8 => .whole (s.toUnsigned 7)
  | .u16 => .whole (s.toUnsigned 15)
  | .u32 => .whole (s.toUnsigned 31)
  | .u64 => .whole (s.toUnsigned 63)
  | .f32 => .single s.bits
  | .f64 => .double s.widen

example : Sample.ofSingle ⟨0x3F000000⟩ .i16 = .whole 16384 := by decide +kernel
example : Sample.ofSingle ⟨0xBF800000⟩ .u8 = .whole 0 := by decide +kernel
example : Sample.ofSingle ⟨1⟩ .f64 = .double 0x36A0000000000000 := by decide +kernel

end Chip8
