import Chip8.Schedule.Pace

/-! The two paces a running machine is driven by: instructions at a chosen rate, and timer steps
sixty times a second. -/
namespace Chip8

structure Schedule where
  instructions : Pace
  timerSteps : Pace
  deriving DecidableEq, Repr

namespace Schedule

def timerRate : UInt32 := 60

/-- Instructions may catch up on two timer steps' worth of work. -/
def new (ips : UInt32) (now : Nat) : Schedule where
  instructions := (Pace.new ips now).withBurst ((ips.toNat / timerRate.toNat + 1) * 2)
  timerSteps := Pace.new timerRate now

def wait (s : Schedule) (now : Nat) : Nat :=
  min (s.instructions.wait now) (s.timerSteps.wait now)

end Schedule
end Chip8
