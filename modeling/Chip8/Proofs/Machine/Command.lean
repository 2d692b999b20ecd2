import Chip8.Proofs.Machine.Console

/-! Commands to a machine that is told which keys are held. The pad of such a machine stands still
while it catches up, so this is one way of serving requests, and commands come to actions too. -/
namespace Chip8

namespace Console

lemma step_still (m : Machine) (held : Keypad) :
    step Keypad.still ⟨m, held⟩ = (⟨(m.step held).machine, held⟩, (m.step held).result) :=
  congrArg (fun pad => ((⟨(m.step held).machine, pad⟩ : Console Keypad), (m.step held).result))
    (ite_self held)

/-- A pad that stands still answers all instructions in a row the same. -/
lemma eq_tick_of_mem_row_still {held : Keypad} {n : Nat} {m : Machine} {a : Action}
    (h : a ∈ row Keypad.still n ⟨m, held⟩) : a = .tick held := by
  induction n generalizing m with
  | zero => cases h
  | succ n ih =>
    rcases List.mem_cons.mp h with h | h
    · exact h
    · rw [step_still] at h
      split at h
      · exact ih h
      · cases h

end Console

namespace Machine

variable {m : Machine} {held : Keypad} {schedule : Schedule} {now : Nat}

/-- The actions of catching up: the instructions that are due, then, unless one of them failed, the
timer steps that are due. -/
def catchUpActions (m : Machine) (held : Keypad) (schedule : Schedule) (now : Nat) :
    List Action :=
  Console.actionsOf Keypad.still ⟨m, held⟩ (.catchUp schedule now)

theorem catchUp_machine (m : Machine) (held : Keypad) (schedule : Schedule) (now : Nat) :
    (m.catchUp held schedule now).machine = m.acts (m.catchUpActions held schedule now) :=
  (Console.serve_eq Keypad.still ⟨m, held⟩ (.catchUp schedule now)).1

theorem catchUp_pulses (m : Machine) (held : Keypad) (schedule : Schedule) (now : Nat) :
    (m.catchUp held schedule now).pulses =
      handed (m.log (m.catchUpActions held schedule now)) :=
  (Console.serve_eq Keypad.still ⟨m, held⟩ (.catchUp schedule now)).2

/-- Catching up runs every instruction with the same keys. -/
lemma eq_of_mem_catchUpActions {a : Action} (h : a ∈ m.catchUpActions held schedule now) :
    a = .tick held ∨ a = .pulse := by
  rcases List.mem_append.mp h with h | h
  · exact .inl (Console.eq_tick_of_mem_row_still h)
  · split at h
    · exact .inr (List.eq_of_mem_replicate h)
    · cases h

end Machine

/-- What a program asks of a machine. -/
inductive Command
  | tick (held : Keypad)
  | pulse
  | catchUp (held : Keypad) (schedule : Schedule) (now : Nat)
  | reset

namespace Machine

/-- The machine after a command, with what went to the devices in order. -/
def obey (m : Machine) : Command → Machine × List Pulse
  | .tick held => ((m.step held).machine, [])
  | .pulse => (m.pulse.1, [m.pulse.2])
  | .catchUp held schedule now =>
    ((m.catchUp held schedule now).machine, (m.catchUp held schedule now).pulses)
  | .reset => (m.reset, [])

def obeyAll (m : Machine) : List Command → Machine × List Pulse
  | [] => (m, [])
  | c :: commands =>
    let (after, later) := (m.obey c).1.obeyAll commands
    (after, (m.obey c).2 ++ later)

/-- The actions a command comes to. -/
def actionsOf (m : Machine) : Command → List Action
  | .tick held => [.tick held]
  | .pulse => [.pulse]
  | .catchUp held schedule now => m.catchUpActions held schedule now
  | .reset => [.reset]

def actions (m : Machine) : List Command → List Action
  | [] => []
  | c :: commands => m.actionsOf c ++ (m.obey c).1.actions commands

/-- Everything that happened while some commands were obeyed, down to single instructions. -/
def history (m : Machine) (commands : List Command) : List Event := m.log (m.actions commands)

lemma obeyAll_append (m : Machine) (first later : List Command) :
    m.obeyAll (first ++ later) =
      (((m.obeyAll first).1.obeyAll later).1,
        (m.obeyAll first).2 ++ ((m.obeyAll first).1.obeyAll later).2) := by
  induction first generalizing m with
  | nil => rfl
  | cons c first ih => simp only [List.cons_append, obeyAll, ih, List.append_assoc]

lemma obey_eq (m : Machine) (c : Command) :
    m.obey c = (m.acts (m.actionsOf c), handed (m.log (m.actionsOf c))) := by
  cases c with
  | catchUp held schedule now => simp only [obey, actionsOf, catchUp_machine, catchUp_pulses]
  | _ => rfl

/-- Obeying commands is taking their actions. -/
theorem obeyAll_eq (m : Machine) (commands : List Command) :
    m.obeyAll commands = (m.acts (m.actions commands), handed (m.history commands)) := by
  induction commands generalizing m with
  | nil => rfl
  | cons c commands ih =>
    unfold obeyAll history actions
    rw [ih, acts_append, log_append, handed_append, obey_eq]
    rfl

end Machine
end Chip8
