/-! Numbers in base sixteen, padded with zeros to a least width. -/
namespace Chip8.Hex

/-- Upper-case digits; a number wider than `width` is written in full. -/
def upper (width n : Nat) : String :=
  let digits := (Nat.toDigits 16 n).map Char.toUpper
  String.ofList (List.replicate (width - digits.length) '0' ++ digits)

/-- The digits behind the mark `0x`. -/
def marked (width n : Nat) : String :=
  "0x" ++ upper width n

example : upper 3 0x50 = "050" ∧ marked 4 0x8AB8 = "0x8AB8" ∧ upper 2 0x1234 = "1234" := by
  decide

end Chip8.Hex
