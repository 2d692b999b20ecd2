/-! Lines for the log. What happened is computed first and told afterwards, so a line never changes
what the machine does. -/
namespace Chip8

/-- How much a line matters, the most pressing level first. -/
inductive Level
  | error
  | warn
  | info
  | debug
  | trace
  deriving DecidableEq, Repr

namespace Level

def label : Level → String
  | error => "ERROR"
  | warn => "WARN"
  | info => "INFO"
  | debug => "DEBUG"
  | trace => "TRACE"

def rank : Level → Nat
  | error => 0
  | warn => 1
  | info => 2
  | debug => 3
  | trace => 4

end Level

structure Entry where
  level : Level
  text : String
  deriving DecidableEq, Repr

namespace Entry

def line (e : Entry) : String := s!"{e.level.label} {e.text}"

/-- Whether a log that is kept down to `least` holds this line. -/
def isKept (e : Entry) (least : Level) : Bool := e.level.rank ≤ least.rank

end Entry
end Chip8
