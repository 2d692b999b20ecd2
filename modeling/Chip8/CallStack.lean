/-! The call stack: at most sixteen return addresses. -/
namespace Chip8

structure CallStack where
  /-- Return addresses, the innermost call first. -/
  frames : List UInt16
  depth_le : frames.length ≤ 16
  deriving DecidableEq, Repr

namespace CallStack

/-- How many calls can be open at once. -/
def capacity : Nat := 16

def empty : CallStack := ⟨[], by simp⟩

def depth (s : CallStack) : Nat := s.frames.length

def isEmpty (s : CallStack) : Bool := s.frames.isEmpty

/-- `none` when every place is taken. -/
def push? (s : CallStack) (address : UInt16) : Option CallStack :=
  if h : s.frames.length < capacity then some ⟨address :: s.frames, h⟩ else none

/-- The innermost return address and the stack below it. -/
def pop? : CallStack → Option (UInt16 × CallStack)
  | ⟨[], _⟩ => none
  | ⟨address :: below, h⟩ => some (address, ⟨below, Nat.le_of_succ_le h⟩)

/-- The return addresses in the order of their calls. -/
def oldestFirst (s : CallStack) : List UInt16 := s.frames.reverse

@[ext] theorem ext {s t : CallStack} (h : s.frames = t.frames) : s = t := by
  cases s
  cases t
  cases h
  rfl

@[simp] theorem frames_empty : empty.frames = [] := rfl

theorem push?_eq_some_iff {s t : CallStack} {address : UInt16} :
    s.push? address = some t ↔ s.depth < capacity ∧ t.frames = address :: s.frames := by
  unfold push? depth
  split
  · rename_i h
    simp [CallStack.ext_iff, h, eq_comm]
  · rename_i h
    simp [h]

theorem push?_eq_none_iff {s : CallStack} {address : UInt16} :
    s.push? address = none ↔ s.depth = capacity := by
  have := s.depth_le
  unfold push? depth capacity
  split <;> simp <;> omega

theorem pop?_eq_some_iff {s t : CallStack} {address : UInt16} :
    s.pop? = some (address, t) ↔ s.frames = address :: t.frames := by
  obtain ⟨_ | ⟨a, below⟩, _⟩ := s <;> obtain ⟨frames, _⟩ := t <;> simp [pop?]

theorem pop?_eq_none_iff {s : CallStack} : s.pop? = none ↔ s.frames = [] := by
  obtain ⟨_ | ⟨a, below⟩, _⟩ := s <;> simp [pop?]

end CallStack
end Chip8
