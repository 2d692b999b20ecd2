import Chip8.Instruction
import Chip8.Machine.Basic

/-! What each instruction does to a machine whose counter already stands behind it: a jump
overwrites that counter, a skip moves it on, and the wait for a key moves it back. Instructions
that report a flag write it first and read their operands again afterwards, so an operand that
lives in the flag register sees the fresh flag. -/
namespace Chip8

/-- Why an instruction did not run to its end. -/
inductive Halt
  | error (cause : Error)
  | trap (cause : Trap)
  deriving DecidableEq, Repr

def Halt.message : Halt → String
  | .error cause => cause.message
  | .trap cause => cause.message

/-- How far an instruction gets without the outside world. Only one that is `asking` learns which
keys are held. -/
inductive Execution
  | done (after : Machine)
  | asking (answer : Keypad → Machine)
  | halted (why : Halt)

/-- An instruction that needs a checked sum. -/
def Execution.ofChecked (sum : Except Trap α) (use : α → Machine) : Execution :=
  match sum with
  | .ok value => .done (use value)
  | .error t => .halted (.trap t)

namespace Machine

/-- The first registers up to and with `x`, in order. -/
def upTo (x : Fin 16) : List (Fin 16) := (List.finRange 16).filter (· ≤ x)

/-- Writes `V0` to `VX` to memory from the index on. -/
def storeRegisters (m : Machine) (x : Fin 16) : Machine :=
  { m with
    memory := (upTo x).foldl
      (fun memory k => memory.write (m.indexed k.val.toUInt16) (m.reg k)) m.memory }

/-- Reads `V0` to `VX` from memory from the index on. -/
def loadRegisters (m : Machine) (x : Fin 16) : Machine :=
  { m with
    registers := (upTo x).foldl
      (fun registers k => registers.set k (m.memory.read (m.indexed k.val.toUInt16))) m.registers }

/-- Writes hundreds, tens and ones of a byte to memory from the index on. -/
def storeDecimal (m : Machine) (value : UInt8) : Machine :=
  { m with
    memory := ((m.memory.write (m.indexed 0) (value / 100)).write
      (m.indexed 1) (value / 10 % 10)).write (m.indexed 2) (value % 10) }

/-- The bytes of the sprite the index points at. -/
def sprite (m : Machine) (height : Fin 16) : List UInt8 :=
  (List.range height.val).map fun k => m.memory.read (m.indexed k.toUInt16)

/-- Paints a sprite and raises the flag if a lit pixel went out. -/
def draw (m : Machine) (x y : UInt8) (height : Fin 16) : Machine :=
  let m := m.setFlag false
  let (display, hit) := m.display.draw x y (m.sprite height)
  { m with display := display }.setFlag hit

/-- Runs an instruction that was fetched as the word `opcode` at `origin`. -/
def execute (m : Machine) (opcode : Opcode) (origin : UInt16) : Instruction → Execution
  | .clearScreen => .done { m with display := m.display.clear }
  | .ret =>
    match m.stack.pop? with
    | some (address, below) => .done ({ m with stack := below }.jump address)
    | none => .halted (.error (.returnWithoutCall opcode origin))
  | .jump nnn => .done (m.jump nnn)
  | .call nnn =>
    match m.stack.push? m.pc with
    | some stack => .done ({ m with stack := stack }.jump nnn)
    | none => .halted (.error (.callTooDeep opcode origin))
  | .skipEqualByte x nn => .done (m.skipIf (m.reg x == nn))
  | .skipUnequalByte x nn => .done (m.skipIf (m.reg x != nn))
  | .skipEqual x y => .done (m.skipIf (m.reg x == m.reg y))
  | .skipUnequal x y => .done (m.skipIf (m.reg x != m.reg y))
  | .setByte x nn => .done (m.setReg x nn)
  | .addByte x nn => .done { m with registers := m.registers.add x nn }
  | .copy x y => .done (m.setReg x (m.reg y))
  | .or x y => .done (m.setReg x (m.reg x ||| m.reg y))
  | .and x y => .done (m.setReg x (m.reg x &&& m.reg y))
  | .xor x y => .done (m.setReg x (m.reg x ^^^ m.reg y))
  | .add x y =>
    let m := m.setFlag (255 < (m.reg x).toNat + (m.reg y).toNat)
    .done (m.setReg x (m.reg x + m.reg y))
  | .subtract x y =>
    let m := m.setFlag (m.reg y ≤ m.reg x)
    .done (m.setReg x (m.reg x - m.reg y))
  | .subtractFrom x y =>
    let m := m.setFlag (m.reg x ≤ m.reg y)
    .done (m.setReg x (m.reg y - m.reg x))
  | .shiftRight x _ =>
    let m := m.setReg RegisterFile.flag (m.reg x &&& 1)
    .done (m.setReg x (m.reg x >>> 1))
  | .shiftLeft x _ =>
    let m := m.setReg RegisterFile.flag (m.reg x >>> 7 &&& 1)
    .done (m.setReg x (m.reg x <<< 1))
  | .setIndex nnn => .done (m.setIndex nnn)
  | .jumpOffset nnn => .ofChecked (Checked.addWord nnn (m.reg RegisterFile.first).toUInt16) m.jump
  | .random x nn =>
    let (byte, random) := m.random.next
    .done ({ m with random := random }.setReg x (nn &&& byte))
  | .draw x y n => .done (m.draw (m.reg x) (m.reg y) n)
  | .skipHeld x => .asking fun held => m.skipIf (held.isHeld (m.reg x))
  | .skipNotHeld x => .asking fun held => m.skipIf (!held.isHeld (m.reg x))
  | .getDelay x => .done (m.setReg x m.delay.count)
  | .awaitKey x => .asking fun held =>
    match held.first? with
    | some key => m.setReg x key
    | none => m.rewind
  | .setDelay x => .done { m with delay := ⟨m.reg x⟩ }
  | .setSound x => .done { m with sound := ⟨m.reg x⟩ }
  | .addIndex x =>
    .ofChecked (Checked.addLong m.index.toUInt32 (m.reg x).toUInt32) fun sum =>
      let m := m.setFlag (0x0FFF < sum)
      m.addIndex (m.reg x)
  | .pointGlyph x =>
    .ofChecked
      (do Checked.addWord Memory.fontStart.toUInt16
            (← Checked.mulWord (m.reg x).toUInt16 Font.glyphHeight))
      m.setIndex
  | .storeDecimal x => .done (m.storeDecimal (m.reg x))
  | .storeRegisters x => .done (m.storeRegisters x)
  | .loadRegisters x => .done (m.loadRegisters x)

end Machine
end Chip8
