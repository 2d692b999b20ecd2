import Chip8.Machine.Console
import Chip8.Machine.Pulse
import Chip8.Schedule

/-! Running a machine up to a moment: first the instructions that are due, then the timer steps. -/
namespace Chip8

/-- How much work a moment called for. -/
structure Work where
  instructions : Nat
  timerSteps : Nat
  deriving DecidableEq, Repr

/-- What catching up came to: the machine and its pad, and all that is told of it. -/
structure CatchUp (σ : Type) extends Console σ where
  schedule : Schedule
  result : Except Halt Work
  /-- What the timer steps handed out, in order. -/
  pulses : List Pulse

/-- An instruction that fails ends the moment: the instructions due after it are lost, and no timer
step is taken or counted as due. -/
def Console.catchUp {σ : Type} (ask : σ → Keypad × σ) (c : Console σ) (schedule : Schedule)
    (now : Nat) : CatchUp σ :=
  let (count, instructions) := schedule.instructions.grant now
  let schedule := { schedule with instructions := instructions }
  let run := c.steps ask count
  match run.result with
  | .error why => ⟨run.toConsole, schedule, .error why, []⟩
  | .ok _ =>
    let (steps, timerSteps) := schedule.timerSteps.grant now
    let (after, pulses) := run.machine.pulses steps
    ⟨⟨after, run.pad⟩, { schedule with timerSteps := timerSteps }, .ok ⟨count, steps⟩, pulses⟩

/-- Catching up with the same keys held all the while. -/
def Machine.catchUp (m : Machine) (held : Keypad) (schedule : Schedule) (now : Nat) :
    CatchUp Keypad :=
  Console.catchUp Keypad.still ⟨m, held⟩ schedule now

end Chip8
