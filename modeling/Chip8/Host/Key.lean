import Chip8.Keypad

/-! The keys of the host's keyboard. Four rows of four stand for the pad, by position:

    1 2 3 C        1 2 3 4
    4 5 6 D   <-   Q W E R
    7 8 9 E        A S D F
    A 0 B F        Z X C V -/
namespace Chip8

inductive HostKey
  | digit1 | digit2 | digit3 | digit4
  | q | w | e | r
  | a | s | d | f
  | z | x | c | v
  | escape
  | backspace
  | other (name : String)
  deriving DecidableEq, Repr

namespace HostKey

def named : List (String × HostKey) := [
  ("Key1", digit1), ("Key2", digit2), ("Key3", digit3), ("Key4", digit4),
  ("Q", q), ("W", w), ("E", e), ("R", r),
  ("A", a), ("S", s), ("D", d), ("F", f),
  ("Z", z), ("X", x), ("C", c), ("V", v),
  ("Escape", escape), ("Backspace", backspace)]

def ofName (name : String) : HostKey := (named.lookup name).getD (other name)

/-- The key of the pad this key stands for. -/
def pad? : HostKey → Option UInt8
  | digit1 => some 0x1
  | digit2 => some 0x2
  | digit3 => some 0x3
  | digit4 => some 0xC
  | q => some 0x4
  | w => some 0x5
  | e => some 0x6
  | r => some 0xD
  | a => some 0x7
  | s => some 0x8
  | d => some 0x9
  | f => some 0xE
  | z => some 0xA
  | x => some 0x0
  | c => some 0xB
  | v => some 0xF
  | escape | backspace | other _ => none

end HostKey

/-- The pad keys among the host keys held. -/
def Keypad.ofHostKeys (held : List HostKey) : Keypad := .ofList (held.filterMap HostKey.pad?)

example : (Keypad.ofHostKeys (HostKey.named.map Prod.snd)).toList.length = 16 := by decide

end Chip8
