import Chip8.Opcode

/-! What can go wrong while a program image is loaded or run, and the words it is reported in. -/
namespace Chip8

/-- An error names the word and the counter it was fetched from, or the sizes that did not fit. -/
inductive Error
  | unknownOpcode (opcode : Opcode) (pc : UInt16)
  /-- A return was met with no call open. -/
  | returnWithoutCall (opcode : Opcode) (pc : UInt16)
  /-- A call was met with every place of the call stack taken. -/
  | callTooDeep (opcode : Opcode) (pc : UInt16)
  | romTooLarge (size limit : Nat)
  | fontTooLarge (size limit : Nat)
  | unreadableRom (reason : String)
  deriving DecidableEq, Repr

namespace Error

/-- The word and the counter as errors show them. -/
def place (opcode : Opcode) (pc : UInt16) : String :=
  s!"0x{opcode.text} at pc {Hex.marked 3 pc.toNat}"

def message : Error → String
  | unknownOpcode w pc => s!"unknown opcode {place w pc}"
  | returnWithoutCall w pc => s!"return with empty call stack (opcode {place w pc})"
  | callTooDeep w pc => s!"call stack full (opcode {place w pc})"
  | romTooLarge size limit => s!"rom is too large ({size} bytes), at most {limit} bytes fit"
  | fontTooLarge size limit => s!"font is too large ({size} bytes), at most {limit} bytes fit"
  | unreadableRom reason => s!"failed to read rom: {reason}"

/-- Errors of a running program leave nothing sensible to go on from; errors of loading do. -/
def isFatal : Error → Bool
  | unknownOpcode .. | returnWithoutCall .. | callTooDeep .. => true
  | romTooLarge .. | fontTooLarge .. | unreadableRom .. => false

example : (unknownOpcode ⟨0x8AB8⟩ 0x204).message = "unknown opcode 0x8AB8 at pc 0x204" := by decide

end Error
end Chip8
