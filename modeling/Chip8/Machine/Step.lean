import Chip8.Machine.Execute

/-! One instruction at a time: fetch, decode, move the counter on, execute. -/
namespace Chip8

/-- What one instruction slot came to. -/
structure Step where
  machine : Machine
  result : Except Halt Unit
  /-- How often the held keys were asked for. -/
  asked : Nat

namespace Machine

/-- A word without an instruction leaves the machine on that word; an instruction that halts leaves
the counter behind itself. -/
def step (m : Machine) (held : Keypad) : Step :=
  let opcode := m.fetch
  match Instruction.decode opcode with
  | .error t => ⟨m, .error (.trap t), 0⟩
  | .ok none => ⟨m, .error (.error (.unknownOpcode opcode m.pc)), 0⟩
  | .ok (some i) =>
    match m.advance.execute opcode m.pc i with
    | .done after => ⟨after, .ok (), 0⟩
    | .asking answer => ⟨answer held, .ok (), 1⟩
    | .halted why => ⟨m.advance, .error why, 0⟩

/-- The line told about the instruction the machine stands on. -/
def traceEntry? (m : Machine) : Option Entry :=
  match Instruction.decode m.fetch with
  | .ok (some i) =>
    some ⟨.trace, s!"{Hex.upper 3 m.pc.toNat}: {m.fetch.text} {i.text}"⟩
  | _ => none

/-- The lines told about at most `n` instructions in a row, latest first, before `told`. -/
def traceFrom (held : Keypad) : Nat → Machine → List Entry → List Entry
  | 0, _, told => told
  | n + 1, m, told =>
    let told := m.traceEntry?.toList ++ told
    let t := m.step held
    match t.result with
    | .ok _ => traceFrom held n t.machine told
    | .error _ => told

/-- The lines told about at most `n` instructions in a row. -/
def traceEntries (m : Machine) (held : Keypad) (n : Nat) : List Entry :=
  (traceFrom held n m []).reverse

end Machine
end Chip8
