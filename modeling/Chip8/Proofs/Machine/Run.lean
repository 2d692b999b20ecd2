import Chip8.Machine.CatchUp
import Mathlib.Tactic.Lemma

/-! Runs of a machine. Whatever drives a machine takes one action after another; a run is told by
the list of its actions, and its log keeps the machine each of them found. Catching up with a
schedule is a row of actions too, so what holds after every action holds however a machine is
driven. -/
namespace Chip8

/-- What is done to a machine in one go. The keys may be others at every instruction. -/
inductive Action
  | tick (held : Keypad)
  | pulse
  | reset

namespace Machine

def act (m : Machine) : Action → Machine
  | .tick held => (m.step held).machine
  | .pulse => m.pulse.1
  | .reset => m.reset

def acts (m : Machine) (actions : List Action) : Machine := actions.foldl act m

end Machine

/-- An action with the machine it was done to. -/
structure Event where
  before : Machine
  action : Action

namespace Event

def after (e : Event) : Machine := e.before.act e.action

/-- What an event hands to the devices, if it does. -/
def pulse? (e : Event) : Option Pulse :=
  match e.action with
  | .pulse => some e.before.pulse.2
  | _ => none

end Event

namespace Machine

/-- The events of a run, in order. -/
def log (m : Machine) : List Action → List Event
  | [] => []
  | a :: actions => ⟨m, a⟩ :: (m.act a).log actions

/-- A log keeps the actions of its run. -/
@[simp] theorem map_action_log (m : Machine) (actions : List Action) :
    (m.log actions).map Event.action = actions := by
  induction actions generalizing m with
  | nil => rfl
  | cons a actions ih => exact congrArg (a :: ·) (ih (m.act a))

lemma action_mem_of_mem_log {m : Machine} {actions : List Action} {e : Event}
    (h : e ∈ m.log actions) : e.action ∈ actions := by
  rw [← m.map_action_log actions]
  exact List.mem_map_of_mem h

/-- What the events of a run hand to the devices. -/
def handed (events : List Event) : List Pulse := events.filterMap Event.pulse?

@[simp] lemma acts_nil (m : Machine) : m.acts [] = m := rfl

@[simp] lemma acts_cons (m : Machine) (a : Action) (actions : List Action) :
    m.acts (a :: actions) = (m.act a).acts actions := rfl

@[simp] lemma acts_append (m : Machine) (first later : List Action) :
    m.acts (first ++ later) = (m.acts first).acts later := List.foldl_append

@[simp] lemma log_append (m : Machine) (first later : List Action) :
    m.log (first ++ later) = m.log first ++ (m.acts first).log later := by
  induction first generalizing m with
  | nil => rfl
  | cons a first ih =>
    change ⟨m, a⟩ :: (m.act a).log (first ++ later) = _
    rw [ih]
    rfl

@[simp] lemma handed_append (first later : List Event) :
    handed (first ++ later) = handed first ++ handed later := List.filterMap_append

/-- An event of a run found the machine that the actions before it had left. -/
lemma exists_split_of_mem_log {m : Machine} {actions : List Action} {e : Event}
    (h : e ∈ m.log actions) :
    ∃ before later, actions = before ++ e.action :: later ∧ e.before = m.acts before := by
  induction actions generalizing m with
  | nil => cases h
  | cons a actions ih =>
    rcases List.mem_cons.mp h with rfl | h
    · exact ⟨[], actions, rfl, rfl⟩
    · obtain ⟨before, later, hsplit, hbefore⟩ := ih h
      exact ⟨a :: before, later, congrArg (a :: ·) hsplit, hbefore⟩

/-- The machines that runs lead to, from one that was switched on with some images. -/
inductive Reachable : Machine → Prop
  | boot {font rom : Array UInt8} {random : Random} {m : Machine}
      (h : boot font rom random = .ok m) : Reachable m
  | act {m : Machine} (h : Reachable m) (a : Action) : Reachable (m.act a)

lemma Reachable.acts {m : Machine} (h : m.Reachable) (actions : List Action) :
    (m.acts actions).Reachable := by
  induction actions generalizing m with
  | nil => exact h
  | cons a actions ih => exact ih (h.act a)

/-! ### Rows of instructions and of timer steps -/

/-- Instructions hand nothing to the devices. -/
lemma handed_eq_nil {actions : List Action} (h : ∀ a ∈ actions, ∃ held, a = .tick held)
    (m : Machine) : handed (m.log actions) = [] := by
  rw [handed, List.filterMap_eq_nil_iff]
  intro e he
  obtain ⟨held, htick⟩ := h e.action (action_mem_of_mem_log he)
  simp only [Event.pulse?, htick]

theorem pulses_eq (m : Machine) (n : Nat) :
    m.pulses n =
      (m.acts (List.replicate n .pulse), handed (m.log (List.replicate n .pulse))) := by
  induction n generalizing m with
  | zero => rfl
  | succ n ih =>
    simp only [pulses, ih]
    rfl

end Machine
end Chip8
