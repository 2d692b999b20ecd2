import Chip8.Proofs.Machine.Run
import Chip8.Proofs.Machine.Step

/-! What is asked of a machine with a pad. A pad may change with every question, so two instructions
in a row need not see the same keys, not even while the machine catches up; between two requests
somebody else may change it too. Whatever the pad does, the machine takes one action after another,
so what holds of all runs holds of a machine with any pad. -/
namespace Chip8

/-- The instruction that an event carries out. One that fails is not carried out. -/
def Event.completed? (e : Event) : Option Instruction :=
  match e.action with
  | .tick held =>
    match (e.before.step held).result with
    | .ok _ => e.before.instruction?
    | .error _ => none
  | .pulse | .reset => none

lemma Event.completed?_tick_iff {m : Machine} {held : Keypad} {i : Instruction} :
    Event.completed? ⟨m, .tick held⟩ = some i ↔
      (m.step held).result = .ok () ∧ m.instruction? = some i := by
  cases hr : (m.step held).result with
  | ok _ => simp [Event.completed?, hr]
  | error why => simp [Event.completed?, hr]

/-- What is asked of a console. -/
inductive Request (σ : Type)
  | tick
  | pulse
  | catchUp (schedule : Schedule) (now : Nat)
  | reset
  /-- Keys are pressed and released. -/
  | keys (change : σ → σ)

/-- What comes back from the requests that give an answer. -/
inductive Reply
  | slot (result : Except Halt Unit)
  | caughtUp (result : Except Halt Work) (schedule : Schedule)

/-- What some requests came to. -/
structure Served (σ : Type) where
  console : Console σ
  replies : List Reply
  /-- What went to the devices, in order. -/
  pulses : List Pulse

namespace Console

variable {σ : Type} (ask : σ → Keypad × σ)

def serve (c : Console σ) : Request σ → Served σ
  | .tick => ⟨(c.step ask).1, [.slot (c.step ask).2], []⟩
  | .pulse => ⟨⟨c.machine.pulse.1, c.pad⟩, [], [c.machine.pulse.2]⟩
  | .catchUp schedule now =>
    let up := c.catchUp ask schedule now
    ⟨up.toConsole, [.caughtUp up.result up.schedule], up.pulses⟩
  | .reset => ⟨⟨c.machine.reset, c.pad⟩, [], []⟩
  | .keys change => ⟨⟨c.machine, change c.pad⟩, [], []⟩

def serveAll (c : Console σ) : List (Request σ) → Served σ
  | [] => ⟨c, [], []⟩
  | q :: requests =>
    let first := c.serve ask q
    let later := first.console.serveAll requests
    ⟨later.console, first.replies ++ later.replies, first.pulses ++ later.pulses⟩

/-- Requests are served one after the other. -/
lemma serveAll_append (c : Console σ) (first later : List (Request σ)) :
    c.serveAll ask (first ++ later) =
      let before := c.serveAll ask first
      let after := before.console.serveAll ask later
      ⟨after.console, before.replies ++ after.replies, before.pulses ++ after.pulses⟩ := by
  induction first generalizing c with
  | nil => rfl
  | cons q first ih => simp only [List.cons_append, serveAll, ih, List.append_assoc]

/-! ### Catching up -/

section CatchUp

variable {ask} {c : Console σ} {schedule : Schedule} {now : Nat}

lemma stepsFrom_succ (n ran : Nat) (c : Console σ) :
    stepsFrom ask (n+1) ran c =
      match (c.step ask).2 with
      | .ok _ => stepsFrom ask n (ran+1) (c.step ask).1
      | .error why => ⟨(c.step ask).1, .error why, ran⟩ := rfl

theorem catchUp_of_ok (h : (c.steps ask (schedule.instructions.grant now).1).result = .ok ()) :
    c.catchUp ask schedule now =
      let (count, instructions) := schedule.instructions.grant now
      let (steps, timerSteps) := schedule.timerSteps.grant now
      let (after, pulses) := (c.steps ask count).machine.pulses steps
      ⟨⟨after, (c.steps ask count).pad⟩, ⟨instructions, timerSteps⟩, .ok ⟨count, steps⟩,
        pulses⟩ := by
  simp only [catchUp, h]

theorem catchUp_of_error {why : Halt}
    (h : (c.steps ask (schedule.instructions.grant now).1).result = .error why) :
    c.catchUp ask schedule now =
      let (count, instructions) := schedule.instructions.grant now
      ⟨(c.steps ask count).toConsole, { schedule with instructions := instructions },
        .error why, []⟩ := by
  simp only [catchUp, h]

end CatchUp

/-! ### The actions of a console -/

/-- The ticks that at most `n` instructions in a row come to, each with the keys it sees. -/
def row : Nat → Console σ → List Action
  | 0, _ => []
  | n+1, c =>
    .tick (ask c.pad).1 ::
      match (c.step ask).2 with
      | .ok _ => row n (c.step ask).1
      | .error _ => []

/-- The actions a request comes to. -/
def actionsOf (c : Console σ) : Request σ → List Action
  | .tick => [.tick (ask c.pad).1]
  | .pulse => [.pulse]
  | .catchUp schedule now =>
    let count := (schedule.instructions.grant now).1
    row ask count c ++
      match (c.steps ask count).result with
      | .ok _ => List.replicate (schedule.timerSteps.grant now).1 .pulse
      | .error _ => []
  | .reset => [.reset]
  | .keys _ => []

def actions (c : Console σ) : List (Request σ) → List Action
  | [] => []
  | q :: requests => c.actionsOf ask q ++ (c.serve ask q).console.actions requests

/-- Everything that happened while some requests were served, down to single instructions. -/
def history (c : Console σ) (requests : List (Request σ)) : List Event :=
  c.machine.log (c.actions ask requests)

lemma eq_tick_of_mem_row {n : Nat} {c : Console σ} {a : Action} (h : a ∈ row ask n c) :
    ∃ held, a = .tick held := by
  induction n generalizing c with
  | zero => cases h
  | succ n ih =>
    rcases List.mem_cons.mp h with h | h
    · exact ⟨_, h⟩
    · split at h
      · exact ih h
      · cases h

lemma stepsFrom_machine (n ran : Nat) (c : Console σ) :
    (stepsFrom ask n ran c).machine = c.machine.acts (row ask n c) := by
  induction n generalizing ran c with
  | zero => rfl
  | succ n ih =>
    rw [stepsFrom_succ]
    cases hr : (c.step ask).2 with
    | ok _ =>
      simp only [row, hr]
      exact ih _ _
    | error why =>
      simp only [row, hr]
      rfl

lemma steps_machine (c : Console σ) (n : Nat) :
    (c.steps ask n).machine = c.machine.acts (row ask n c) := stepsFrom_machine ask n 0 c

/-- Instructions hand nothing to the devices. -/
lemma handed_row (n : Nat) (c : Console σ) : Machine.handed (c.machine.log (row ask n c)) = [] :=
  Machine.handed_eq_nil (fun _ => eq_tick_of_mem_row ask) c.machine

lemma serve_eq (c : Console σ) (q : Request σ) :
    (c.serve ask q).console.machine = c.machine.acts (c.actionsOf ask q) ∧
      (c.serve ask q).pulses = Machine.handed (c.machine.log (c.actionsOf ask q)) := by
  cases q with
  | catchUp schedule now =>
    simp only [serve, actionsOf]
    rw [Machine.acts_append, Machine.log_append, Machine.handed_append, handed_row,
      ← steps_machine, List.nil_append]
    cases hr : (c.steps ask (schedule.instructions.grant now).1).result with
    | ok _ =>
      rw [catchUp_of_ok hr]
      simp only [Machine.pulses_eq, and_self]
    | error why =>
      rw [catchUp_of_error hr]
      exact ⟨rfl, rfl⟩
  | _ => exact ⟨rfl, rfl⟩

/-- Serving requests is taking their actions. -/
theorem serveAll_eq (c : Console σ) (requests : List (Request σ)) :
    (c.serveAll ask requests).console.machine = c.machine.acts (c.actions ask requests) ∧
      (c.serveAll ask requests).pulses = Machine.handed (c.history ask requests) := by
  induction requests generalizing c with
  | nil => exact ⟨rfl, rfl⟩
  | cons q requests ih =>
    obtain ⟨hmachine, hpulses⟩ := ih (c.serve ask q).console
    obtain ⟨hfirst, hhanded⟩ := c.serve_eq ask q
    unfold serveAll history actions
    dsimp only
    rw [hmachine, hpulses, hhanded, history, hfirst, Machine.acts_append, Machine.log_append,
      Machine.handed_append]
    exact ⟨rfl, rfl⟩

end Console
end Chip8
