import Chip8.Opcode

/-! The instruction set and its decoding. A word is sorted by its leading digit first; the groups 0,
8, E and F are sorted again by their last digit or last two digits. A word that fits no pattern
stands for no instruction. -/
namespace Chip8

/-- An instruction with its operands: `x` and `y` number registers, `nn` is a byte, `nnn` an
address. -/
inductive Instruction
  /-- `00E0` -/
  | clearScreen
  /-- `00EE` -/
  | ret
  /-- `1NNN` -/
  | jump (nnn : UInt16)
  /-- `2NNN` -/
  | call (nnn : UInt16)
  /-- `3XNN` -/
  | skipEqualByte (x : Fin 16) (nn : UInt8)
  /-- `4XNN` -/
  | skipUnequalByte (x : Fin 16) (nn : UInt8)
  /-- `5XY_` -/
  | skipEqual (x y : Fin 16)
  /-- `6XNN` -/
  | setByte (x : Fin 16) (nn : UInt8)
  /-- `7XNN` -/
  | addByte (x : Fin 16) (nn : UInt8)
  /-- `8XY0` -/
  | copy (x y : Fin 16)
  /-- `8XY1` -/
  | or (x y : Fin 16)
  /-- `8XY2` -/
  | and (x y : Fin 16)
  /-- `8XY3` -/
  | xor (x y : Fin 16)
  /-- `8XY4` -/
  | add (x y : Fin 16)
  /-- `8XY5` -/
  | subtract (x y : Fin 16)
  /-- `8XY6` -/
  | shiftRight (x y : Fin 16)
  /-- `8XY7` -/
  | subtractFrom (x y : Fin 16)
  /-- `8XYE` -/
  | shiftLeft (x y : Fin 16)
  /-- `9XY_` -/
  | skipUnequal (x y : Fin 16)
  /-- `ANNN` -/
  | setIndex (nnn : UInt16)
  /-- `BNNN` -/
  | jumpOffset (nnn : UInt16)
  /-- `CXNN` -/
  | random (x : Fin 16) (nn : UInt8)
  /-- `DXYN` -/
  | draw (x y n : Fin 16)
  /-- `EX9E` -/
  | skipHeld (x : Fin 16)
  /-- `EXA1` -/
  | skipNotHeld (x : Fin 16)
  /-- `FX07` -/
  | getDelay (x : Fin 16)
  /-- `FX0A` -/
  | awaitKey (x : Fin 16)
  /-- `FX15` -/
  | setDelay (x : Fin 16)
  /-- `FX18` -/
  | setSound (x : Fin 16)
  /-- `FX1E` -/
  | addIndex (x : Fin 16)
  /-- `FX29` -/
  | pointGlyph (x : Fin 16)
  /-- `FX33` -/
  | storeDecimal (x : Fin 16)
  /-- `FX55` -/
  | storeRegisters (x : Fin 16)
  /-- `FX65` -/
  | loadRegisters (x : Fin 16)
  deriving DecidableEq, Repr

namespace Instruction

def ofFields (f : Opcode.Fields) : Option Instruction :=
  match f.kind with
  | 0x0 =>
    match f.nn with
    | 0xE0 => some .clearScreen
    | 0xEE => some .ret
    | _ => none
  | 0x1 => some (.jump f.nnn)
  | 0x2 => some (.call f.nnn)
  | 0x3 => some (.skipEqualByte f.x f.nn)
  | 0x4 => some (.skipUnequalByte f.x f.nn)
  | 0x5 => some (.skipEqual f.x f.y)
  | 0x6 => some (.setByte f.x f.nn)
  | 0x7 => some (.addByte f.x f.nn)
  | 0x8 =>
    match f.n with
    | 0x0 => some (.copy f.x f.y)
    | 0x1 => some (.or f.x f.y)
    | 0x2 => some (.and f.x f.y)
    | 0x3 => some (.xor f.x f.y)
    | 0x4 => some (.add f.x f.y)
    | 0x5 => some (.subtract f.x f.y)
    | 0x6 => some (.shiftRight f.x f.y)
    | 0x7 => some (.subtractFrom f.x f.y)
    | 0xE => some (.shiftLeft f.x f.y)
    | _ => none
  | 0x9 => some (.skipUnequal f.x f.y)
  | 0xA => some (.setIndex f.nnn)
  | 0xB => some (.jumpOffset f.nnn)
  | 0xC => some (.random f.x f.nn)
  | 0xD => some (.draw f.x f.y f.n)
  | 0xE =>
    match f.nn with
    | 0x9E => some (.skipHeld f.x)
    | 0xA1 => some (.skipNotHeld f.x)
    | _ => none
  -- only the digit F is left
  | _ =>
    match f.nn with
    | 0x07 => some (.getDelay f.x)
    | 0x0A => some (.awaitKey f.x)
    | 0x15 => some (.setDelay f.x)
    | 0x18 => some (.setSound f.x)
    | 0x1E => some (.addIndex f.x)
    | 0x29 => some (.pointGlyph f.x)
    | 0x33 => some (.storeDecimal f.x)
    | 0x55 => some (.storeRegisters f.x)
    | 0x65 => some (.loadRegisters f.x)
    | _ => none

/-- The instruction a word stands for, if it stands for one. -/
def decode (w : Opcode) : Except Trap (Option Instruction) := do
  return ofFields (← w.fields)

/-- The name and operands an instruction is reported with, numbers in decimal. -/
def text : Instruction → String
  | .clearScreen => "ClearScreen"
  | .ret => "PopSubroutine"
  | .jump nnn => s!"Jump({nnn})"
  | .call nnn => s!"PushSubroutine({nnn})"
  | .skipEqualByte x nn => s!"SkipEqualConstant({x}, {nn})"
  | .skipUnequalByte x nn => s!"SkipNotEqualConstant({x}, {nn})"
  | .skipEqual x y => s!"SkipEqualRegister({x}, {y})"
  | .skipUnequal x y => s!"SkipNotEqualRegister({x}, {y})"
  | .setByte x nn => s!"SetRegister({x}, {nn})"
  | .addByte x nn => s!"AddToRegister({x}, {nn})"
  | .copy x y => s!"CopyRegister({x}, {y})"
  | .or x y => s!"Or({x}, {y})"
  | .and x y => s!"And({x}, {y})"
  | .xor x y => s!"XOr({x}, {y})"
  | .add x y => s!"Add({x}, {y})"
  | .subtract x y => s!"SubtractForward({x}, {y})"
  | .shiftRight x y => s!"RightShift({x}, {y})"
  | .subtractFrom x y => s!"SubtractBackward({x}, {y})"
  | .shiftLeft x y => s!"LeftShift({x}, {y})"
  | .setIndex nnn => s!"SetIndexRegister({nnn})"
  | .jumpOffset nnn => s!"JumpWithOffset({nnn})"
  | .random x nn => s!"Random({x}, {nn})"
  | .draw x y n => s!"Display({x}, {y}, {n})"
  | .skipHeld x => s!"SkipIfPressed({x})"
  | .skipNotHeld x => s!"SkipIfNotPressed({x})"
  | .getDelay x => s!"CopyDelayToRegister({x})"
  | .awaitKey x => s!"GetKey({x})"
  | .setDelay x => s!"CopyRegisterToDelay({x})"
  | .setSound x => s!"CopyRegisterToSound({x})"
  | .addIndex x => s!"AddToIndex({x})"
  | .pointGlyph x => s!"PointChar({x})"
  | .storeDecimal x => s!"ToDecimal({x})"
  | .storeRegisters x => s!"StoreRegisterToMemory({x})"
  | .loadRegisters x => s!"LoadRegisterFromMemory({x})"

end Instruction
end Chip8
