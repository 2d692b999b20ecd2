import Chip8.Machine.Basic

/-! The step taken sixty times a second: both timers count down, a changed screen is shown, and the
buzzer is kept going while the sound timer runs. -/
namespace Chip8

/-- What one step hands to the devices. -/
structure Pulse where
  frame : Option Screen
  beep : Bool

namespace Machine

def pulse (m : Machine) : Machine × Pulse :=
  let sound := m.sound.step
  let (display, frame) := m.display.refresh
  ({ m with delay := m.delay.step, sound := sound, display := display }, ⟨frame, sound.isActive⟩)

/-- Several steps in a row, with what they hand out in order. -/
def pulses (m : Machine) : Nat → Machine × List Pulse
  | 0 => (m, [])
  | n + 1 =>
    let (m, pulse) := m.pulse
    let (m, later) := m.pulses n
    (m, pulse :: later)

end Machine
end Chip8
