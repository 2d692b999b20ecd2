/-! Steps at a fixed rate, granted by whoever asks. Deadlines advance by whole periods from the
start, so the rate holds however often it is asked for; a backlog of more than `burst` periods is
dropped instead of being worked off at once. Times are nanoseconds after a fixed instant. -/
namespace Chip8

structure Pace where
  period : Nat
  /-- The next deadline. -/
  next : Nat
  /-- The most steps one request grants. -/
  burst : Nat
  burst_pos : 0 < burst
  deriving DecidableEq, Repr

namespace Pace

/-- `hz` steps a second from `now` on, the first one a period later; no rate at all counts as one.
Above a thousand million steps a second the period is zero. -/
def new (hz : UInt32) (now : Nat) : Pace where
  period := 1000000000 / max hz.toNat 1
  next := now + 1000000000 / max hz.toNat 1
  burst := 4
  burst_pos := by decide

def withBurst (p : Pace) (steps : Nat) : Pace :=
  { p with burst := max steps 1, burst_pos := by omega }

/-- Counts deadlines that have passed, at most `room` more than the `steps` counted before. When the
room is used up and a deadline has still passed, the rest is dropped and the next deadline is a
period from `now`. -/
def passed (period now : Nat) : (room steps next : Nat) → Nat × Nat
  | 0, steps, next => (steps, if next ≤ now then now + period else next)
  | room + 1, steps, next =>
    if next ≤ now then passed period now room (steps + 1) (next + period) else (steps, next)

/-- The steps due at `now`, and the pace with those deadlines behind it. -/
def grant (p : Pace) (now : Nat) : Nat × Pace :=
  let (steps, next) := passed p.period now p.burst 0 p.next
  (steps, { p with next := next })

/-- How long after `now` the next deadline is; nothing if it has passed. -/
def wait (p : Pace) (now : Nat) : Nat := p.next - now

end Pace
end Chip8
