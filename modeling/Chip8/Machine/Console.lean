import Chip8.Machine.Step

/-! A machine together with the pad it asks for keys. A pad has a state of its own and may answer
every question differently, so two instructions in a row need not see the same keys. -/
namespace Chip8

/-- A machine and a pad, which is whatever answers questions for the held keys. -/
structure Console (σ : Type) where
  machine : Machine
  pad : σ

/-- What a row of instruction slots came to, up to the first that did not succeed. -/
structure Steps (σ : Type) extends Console σ where
  result : Except Halt Unit
  /-- Instructions that succeeded. -/
  ran : Nat

/-- Held keys as a pad that nobody touches. -/
def Keypad.still (held : Keypad) : Keypad × Keypad := (held, held)

namespace Console

variable {σ : Type} (ask : σ → Keypad × σ)

/-- One instruction. The pad is asked if the instruction asks for keys, and not otherwise. -/
def step (c : Console σ) : Console σ × Except Halt Unit :=
  let (held, asked) := ask c.pad
  let t := c.machine.step held
  (⟨t.machine, if t.asked = 0 then c.pad else asked⟩, t.result)

def stepsFrom : Nat → Nat → Console σ → Steps σ
  | 0, ran, c => ⟨c, .ok (), ran⟩
  | n + 1, ran, c =>
    let (after, result) := c.step ask
    match result with
    | .ok _ => stepsFrom n (ran + 1) after
    | .error why => ⟨after, .error why, ran⟩

/-- At most `n` instructions in a row. -/
def steps (c : Console σ) (n : Nat) : Steps σ := stepsFrom ask n 0 c

end Console
end Chip8
