import Chip8.Proofs.Host.Session
import Chip8.Proofs.Machine.CatchUp

/-! The plan of a session. Without the picture, the latch and the log, a session is a machine that
catches up with the clock once in every pass; if that took a timer step, the window is updated once,
and the machine is reset if that very update reported the reset key as newly pressed. A session does
what its plan says, pass for pass, whatever comes from outside. -/
namespace Chip8

/-- What comes from outside in one pass: two readings of the clock and, between them, what the
window answers should it be updated. -/
structure Cue where
  now : Nat
  answer : Except WindowFault Report
  later : Nat

/-- What can be told of a pass without its window: the machine and the schedule it leaves, what its
timer steps handed out, how often the window was updated, and how it ended. -/
structure Account where
  machine : Machine
  schedule : Schedule
  pulses : List Pulse
  updates : Nat
  result : Except Failure Unit

/-- Something a session does. -/
inductive Deed
  | read (now : Nat)
  | pass (account : Account)
  | sleep (wait : Nat)

/-- What the passes among some deeds handed to the devices. -/
def handedBy (deeds : List Deed) : List Pulse :=
  deeds.flatMap fun d =>
    match d with
    | .pass account => account.pulses
    | .read _ | .sleep _ => []

/-- A session between two passes, as far as its plan goes. -/
structure Plan where
  machine : Machine
  schedule : Schedule
  held : Keypad
  isOpen : Bool

/-- What a plan comes to. -/
structure Course where
  ending : Session.Ending
  /-- What is asked of the machine. -/
  commands : List Command
  deeds : List Deed

namespace Plan

/-- The machine catches up with the clock, with the keys of the latest report. -/
def sync (p : Plan) (c : Cue) : CatchUp Keypad := p.machine.catchUp p.held p.schedule c.now

/-- The window is updated if a timer step was taken. -/
def updates (p : Plan) (c : Cue) : Bool :=
  match (p.sync c).result with
  | .ok work => 0 < work.timerSteps
  | .error _ => false

/-- What the window reports, if it is updated. -/
def report? (p : Plan) (c : Cue) : Option Report :=
  if p.updates c then c.answer.toOption else none

/-- The machine is reset if the reset key went down with this update. -/
def resets (p : Plan) (c : Cue) : Bool :=
  (p.report? c).any fun report => report.pressed.contains .backspace

def commands (p : Plan) (c : Cue) : List Command :=
  .catchUp p.held p.schedule c.now :: if p.resets c then [.reset] else []

/-- An instruction that fails ends a session, and so does an update that fails. -/
def result (p : Plan) (c : Cue) : Except Failure Unit :=
  match (p.sync c).result, c.answer with
  | .error why, _ => .error (.halt why)
  | .ok _, .error fault => if p.updates c then .error (.device (.window fault)) else .ok ()
  | .ok _, .ok _ => .ok ()

def after (p : Plan) (c : Cue) : Plan where
  machine := (p.machine.obeyAll (p.commands c)).1
  schedule := (p.sync c).schedule
  held := (p.report? c).elim p.held fun report => .ofHostKeys report.held
  isOpen := (p.report? c).elim p.isOpen fun report =>
    report.isOpen && !report.pressed.contains .escape

def account (p : Plan) (c : Cue) : Account where
  machine := (p.after c).machine
  schedule := (p.after c).schedule
  pulses := (p.machine.obeyAll (p.commands c)).2
  updates := (p.updates c).toNat
  result := p.result c

/-- Pass after pass while the window is open, but at most `n` of them. A pass that fails is the last
thing done; after any other one the session sleeps until something is due. -/
def run (cues : Nat → Cue) : Nat → Plan → Course
  | 0, _ => ⟨.unfinished, [], []⟩
  | n+1, p =>
    if p.isOpen then
      let c := cues 0
      match p.result c with
      | .error why => ⟨.failed why, p.commands c, [.read c.now, .pass (p.account c)]⟩
      | .ok _ =>
        let wait := (p.after c).schedule.wait c.later
        let rest := run (fun i => cues (i+1)) n (p.after c)
        ⟨rest.ending, p.commands c ++ rest.commands,
          [.read c.now, .pass (p.account c), .read c.later] ++
            (if 0 < wait then [.sleep wait] else []) ++ rest.deeds⟩
    else ⟨.closed, [], []⟩

end Plan

def WindowCall.isUpdate : WindowCall → Bool
  | .update _ => true
  | _ => false

def Pass.account (p : Pass) : Account where
  machine := p.session.machine
  schedule := p.session.schedule
  pulses := p.pulses
  updates := p.calls.countP WindowCall.isUpdate
  result := p.result

namespace Plan

variable {p : Plan}

/-- A reset hands nothing out. -/
lemma obeyAll_commands (p : Plan) (c : Cue) :
    p.machine.obeyAll (p.commands c) =
      (if p.resets c then (p.sync c).machine.reset else (p.sync c).machine, (p.sync c).pulses) := by
  unfold commands
  split <;> simp [Machine.obeyAll, Machine.obey, sync]

section Run

variable {cues : Nat → Cue} {n : Nat}

lemma run_of_closed (h : p.isOpen = false) : p.run cues (n+1) = ⟨.closed, [], []⟩ := by
  simp [run, h]

lemma run_of_error {why : Failure} (h : p.isOpen = true) (hr : p.result (cues 0) = .error why) :
    p.run cues (n+1) =
      ⟨.failed why, p.commands (cues 0), [.read (cues 0).now, .pass (p.account (cues 0))]⟩ := by
  simp only [run, h, hr, if_true]

lemma run_of_ok (h : p.isOpen = true) (hr : p.result (cues 0) = .ok ()) :
    p.run cues (n+1) =
      let wait := (p.after (cues 0)).schedule.wait (cues 0).later
      let rest := (p.after (cues 0)).run (fun i => cues (i+1)) n
      ⟨rest.ending, p.commands (cues 0) ++ rest.commands,
        [.read (cues 0).now, .pass (p.account (cues 0)), .read (cues 0).later] ++
          (if 0 < wait then [.sleep wait] else []) ++ rest.deeds⟩ := by
  simp only [run, h, hr, if_true]

end Run

end Plan

namespace Session

variable {s : Session} {ω : Type} {now : Nat}

def plan (s : Session) : Plan := ⟨s.machine, s.schedule, s.pane.held, s.pane.isRunning⟩

/-- Every press that was reported has been taken from the latch. -/
def Settled (s : Session) : Prop := s.pane.reset.pending = false

lemma Settled.caughtUp (h : s.Settled) (now : Nat) : (s.caughtUp now).Settled := by
  rw [Settled, Session.caughtUp, Pane.reset_drawAll]
  exact h

/-! ### One pass -/

lemma pass_of_error {why : Halt} (h : (s.catchUp now).result = .error why)
    (answer : Except WindowFault Report) :
    ∃ entries, s.pass now answer =
      ⟨s.caughtUp now, .error (.halt why), (s.catchUp now).pulses, [], false, entries⟩ := by
  simp only [catchUp] at h
  simp only [pass, h]
  exact ⟨_, rfl⟩

lemma pass_of_ok {work : Work} (h : (s.catchUp now).result = .ok work)
    (answer : Except WindowFault Report) :
    ∃ entries, s.pass now answer =
      if work.timerSteps = 0 then
        ⟨s.caughtUp now, .ok (), (s.catchUp now).pulses, [], false, entries⟩
      else { (s.caughtUp now).present answer with
        pulses := (s.catchUp now).pulses, entries := entries } := by
  simp only [catchUp] at h
  simp only [pass, h]
  split <;> exact ⟨_, rfl⟩

/-- A settled session is reset by a press in the report itself and by nothing else, and it is
settled again afterwards. -/
lemma present_of_settled (h : s.Settled) (report : Report) :
    ∃ entries, s.present (.ok report) =
      ⟨{ s with
          machine :=
            if report.pressed.contains .backspace then s.machine.reset else s.machine
          pane := { s.pane with
            held := .ofHostKeys report.held
            reset := ⟨false⟩
            isRunning := report.isOpen && !report.pressed.contains .escape } },
        .ok (), [],
        (if s.debug then [.setTitle s.statusTitle] else []) ++ [.update s.pane.picture], true,
        entries⟩ := by
  have hasked : (s.pane.receive report).collectReset.1 = report.pressed.contains .backspace := by
    change (s.pane.reset.pending || _) = _
    rw [h, Bool.false_or]
  simp only [present, hasked]
  split <;> exact ⟨_, rfl⟩

/-- The window is updated once, with a title or without. -/
lemma countP_present (debug : Bool) (title : String) (picture : Array UInt32) :
    ((if debug then [.setTitle title] else []) ++ [.update picture] : List WindowCall).countP
      WindowCall.isUpdate = 1 := by
  cases debug <;> rfl

/-- A settled session makes the pass of its plan and is settled again. -/
theorem pass_follows (h : s.Settled) (c : Cue) :
    (s.pass c.now c.answer).account = s.plan.account c ∧
      (s.pass c.now c.answer).session.plan = s.plan.after c ∧
      (s.pass c.now c.answer).session.Settled := by
  have hsync : s.plan.sync c = s.catchUp c.now := rfl
  have hcaught := h.caughtUp c.now
  simp only [Pass.account, Plan.account, Plan.after, Plan.obeyAll_commands, Plan.resets,
    Plan.report?, Plan.updates, Plan.result, hsync]
  cases hr : (s.catchUp c.now).result with
  | error why =>
    obtain ⟨entries, hpass⟩ := pass_of_error hr c.answer
    rw [hpass]
    refine ⟨rfl, ?_, hcaught⟩
    simp [plan, caughtUp]
  | ok work =>
    obtain ⟨entries, hpass⟩ := pass_of_ok hr c.answer
    rw [hpass]
    by_cases hwork : work.timerSteps = 0
    · rw [if_pos hwork]
      refine ⟨?_, ?_, hcaught⟩
      · cases c.answer <;> simp [hwork, caughtUp]
      · simp [hwork, plan, caughtUp]
    · rw [if_neg hwork]
      have hdue : 0 < work.timerSteps := Nat.pos_of_ne_zero hwork
      cases c.answer with
      | error fault =>
        -- an update that fails leaves everything as the machine left it
        refine ⟨?_, ?_, hcaught⟩
        · simp only [present, countP_present, hdue, Except.toOption, decide_true, if_true]
          rfl
        · simp [hdue, present, plan, caughtUp, Except.toOption]
      | ok report =>
        obtain ⟨told, hpresent⟩ := present_of_settled hcaught report
        rw [hpresent]
        refine ⟨?_, ?_, rfl⟩
        · simp only [countP_present, hdue, Except.toOption, decide_true, if_true, Option.any_some]
          rfl
        · simp only [hdue, plan, Except.toOption, decide_true, if_true, Option.any_some]
          rfl

/-- The window is updated when the plan says so. -/
lemma updated_pass (s : Session) (c : Cue) :
    (s.pass c.now c.answer).updated = s.plan.updates c := by
  have hsync : s.plan.sync c = s.catchUp c.now := rfl
  unfold Plan.updates
  rw [hsync]
  cases hr : (s.catchUp c.now).result with
  | error why =>
    obtain ⟨entries, hpass⟩ := pass_of_error hr c.answer
    rw [hpass]
  | ok work =>
    by_cases hwork : work.timerSteps = 0
    · obtain ⟨entries, hpass⟩ := pass_of_ok hr c.answer
      rw [hpass, if_pos hwork]
      exact (decide_eq_false (Nat.not_lt.mpr hwork.le)).symm
    · obtain ⟨-, -, -, hupdated⟩ := pass_of_due hr hwork c.answer
      rw [hupdated]
      exact (decide_eq_true (Nat.pos_of_ne_zero hwork)).symm

end Session

namespace Turn

/-- Whether the window reports to a turn that the reset key went down. -/
def presses (t : Turn) : Bool :=
  t.report?.any fun report => report.pressed.contains .backspace

/-- A turn's part in the history of the machine. -/
def commands (t : Turn) : List Command :=
  .catchUp t.session.pane.held t.session.schedule t.now :: if t.presses then [.reset] else []

lemma commands_eq (s : Session) (c : Cue) :
    (⟨s, c.now, c.answer⟩ : Turn).commands = s.plan.commands c := by
  unfold commands presses report? Plan.commands Plan.resets Plan.report?
  rw [← Session.updated_pass]
  rfl

/-- The timer steps a turn takes. -/
def timerSteps (t : Turn) : Nat := (t.session.catchUp t.now).result.toOption.elim 0 Work.timerSteps

/-- A turn updates the window once if it takes a timer step, and else not at all. -/
theorem updates_once (t : Turn) :
    t.pass.calls.countP WindowCall.isUpdate = if 0 < t.timerSteps then 1 else 0 := by
  have hidle : t.timerSteps = 0 → t.pass.calls = [] := by
    intro hnone
    refine (Session.pass_of_idle (fun work hr => ?_) t.answer).1
    rwa [timerSteps, hr] at hnone
  by_cases hsome : 0 < t.timerSteps
  · rw [if_pos hsome]
    cases hr : (t.session.catchUp t.now).result with
    | error why =>
      rw [timerSteps, hr] at hsome
      cases hsome
    | ok work =>
      rw [timerSteps, hr] at hsome
      obtain ⟨-, -, hcalls, -⟩ := Session.pass_of_due hr (Nat.ne_of_gt hsome) t.answer
      obtain ⟨after, result, entries, hpresent⟩ :=
        (t.session.caughtUp t.now).present_eq t.answer
      rw [pass, hcalls, hpresent]
      exact Session.countP_present ..
  · rw [if_neg hsome, hidle (Nat.eq_zero_of_not_pos hsome)]
    rfl

/-- What a turn does when its machine cannot catch up: the instructions up to and with the one that
fails, and nothing else. -/
theorem failing {t : Turn} {why : Halt} (h : (t.session.catchUp t.now).result = .error why) :
    t.pass.result = .error (.halt why) ∧ t.pass.calls = [] ∧ t.pass.pulses = [] ∧
      t.commands = [.catchUp t.session.pane.held t.session.schedule t.now] ∧
      ∃ j < (t.session.schedule.instructions.grant t.now).1,
        t.session.machine.FailsAfter t.session.pane.held j why ∧
        t.pass.session.machine =
          t.session.machine.acts (ticks t.session.pane.held (j+1)) := by
  obtain ⟨entries, hpass⟩ := Session.pass_of_error h t.answer
  have hidle : t.pass.updated = false := by rw [pass, hpass]
  have hcommands : t.commands = [.catchUp t.session.pane.held t.session.schedule t.now] := by
    unfold commands presses report?
    rw [hidle]
    rfl
  obtain ⟨hpulses, j, hj, hfails, hmachine⟩ := Machine.failsAfter_of_catchUp h
  rw [pass, hpass]
  exact ⟨rfl, rfl, hpulses, hcommands, j, hj, hfails, hmachine⟩

end Turn

namespace Session

variable {s : Session} {ω : Type}

namespace World

variable (world : World ω)

/-- What comes from outside in the pass of a session. -/
def cue (s : Session) (w : ω) : Cue :=
  ⟨(world.turn s w).now, (world.turn s w).answer, (world.reading (world.taken s w)).1⟩

/-- What comes from outside in all the passes from here on. -/
def script (s : Session) (w : ω) : Nat → Cue
  | 0 => world.cue s w
  | i+1 => script (world.turn s w).pass.session (world.rested s w) i

/-- The same world, which also keeps what is done in it. -/
def noting : World (ω × List Deed) where
  reading w :=
    let (now, w') := world.reading w.1
    (now, w', w.2 ++ [.read now])
  answer w := world.answer w.1
  take w p := (world.take w.1 p, w.2 ++ [.pass p.account])
  sleep w wait := (world.sleep w.1 wait, w.2 ++ [.sleep wait])

/-- The world of a script, at the reading it stands before: the first of a pass or the second. -/
def scripted (cues : Nat → Cue) : World (Nat × Bool) where
  reading
    | (i, false) => ((cues i).now, i, true)
    | (i, true) => ((cues i).later, i+1, false)
  answer w := (cues w.1).answer
  take w _ := w
  sleep w _ := w

lemma rested_scripted (cues : Nat → Cue) (s : Session) (i : Nat) :
    (scripted cues).rested s (i, false) = (i+1, false) :=
  ite_self _

/-- What comes from the world of a script is the script. -/
theorem script_scripted (cues : Nat → Cue) (s : Session) (i : Nat) :
    (scripted cues).script s (i, false) = fun k => cues (i+k) := by
  funext k
  induction k generalizing s i with
  | zero => rfl
  | succ k ih =>
    rw [script, rested_scripted, ih, Nat.add_right_comm]
    rfl

lemma taken_noting (s : Session) (w : ω) (log : List Deed) :
    world.noting.taken s (w, log) =
      (world.taken s w,
        log ++ [.read (world.turn s w).now, .pass (world.turn s w).pass.account]) := by
  change (_, log ++ _ ++ _) = _
  rw [List.append_assoc]
  rfl

lemma rested_noting (s : Session) (w : ω) (log : List Deed) :
    let later := (world.cue s w).later
    let wait := (world.turn s w).pass.session.schedule.wait later
    world.noting.rested s (w, log) =
      (world.rested s w,
        log ++ ([.read (world.turn s w).now, .pass (world.turn s w).pass.account, .read later] ++
          if 0 < wait then [.sleep wait] else [])) := by
  intro later wait
  let w' := (world.reading (world.taken s w)).2
  have hrested : world.rested s w = if 0 < wait then world.sleep w' wait else w' := rfl
  have hnoted : world.noting.rested s (w, log) =
      let log' := (world.noting.taken s (w, log)).2 ++ [.read later]
      if 0 < wait then (world.sleep w' wait, log' ++ [.sleep wait]) else (w', log') := rfl
  rw [hnoted, taken_noting, hrested]
  split <;> simp only [List.append_assoc, List.cons_append, List.nil_append]

end World

/-- A run follows a course: it ends as the course does, asks of the machine what the course asks and
gets what the course hands out, resets it in the turns that report the reset key and in no other,
and does everything else that the course does, in the same order. -/
structure Follows (world : World ω) (n : Nat) (s : Session) (w : ω) (course : Course) : Prop where
  ending : (run world n s w).1 = course.ending
  machine : s.machine.obeyAll course.commands =
    ((run world n s w).2.1.machine, handedBy course.deeds)
  commands : course.commands = (turns world n s w).flatMap Turn.commands
  deeds : ∀ log, run world.noting n s (w, log) =
    let (ending, after, w') := run world n s w
    (ending, after, w', log ++ course.deeds)

section Follows

variable {world : World ω} {w : ω} {n : Nat}

lemma run_of_closed (world : World ω) (n : Nat) (w : ω) (h : s.pane.isRunning = false) :
    run world (n+1) s w = (.closed, s, w) := by simp [run, h]

lemma turn_follows (h : s.Settled) (world : World ω) (w : ω) :
    (world.turn s w).pass.account = s.plan.account (world.cue s w) ∧
      (world.turn s w).pass.session.plan = s.plan.after (world.cue s w) ∧
      (world.turn s w).pass.session.Settled :=
  pass_follows h (world.cue s w)

/-- What a turn asks of the machine comes to its pass. -/
lemma obeyAll_turn (h : s.Settled) (world : World ω) (w : ω) :
    s.machine.obeyAll (s.plan.commands (world.cue s w)) =
      ((world.turn s w).pass.session.machine, (world.turn s w).pass.pulses) := by
  obtain ⟨haccount, -, -⟩ := turn_follows h world w
  have hmachine := congrArg Account.machine haccount
  have hpulses := congrArg Account.pulses haccount
  exact Prod.ext hmachine.symm hpulses.symm

lemma commands_turn (world : World ω) (s : Session) (w : ω) :
    (world.turn s w).commands = s.plan.commands (world.cue s w) :=
  Turn.commands_eq s (world.cue s w)

/-- A pass that fails is the last thing a run does. -/
lemma follows_of_error {why : Failure} (h : s.Settled) (hrunning : s.pane.isRunning = true)
    (hr : (world.turn s w).pass.result = .error why) :
    Follows world (n+1) s w
      ⟨.failed why, s.plan.commands (world.cue s w),
        [.read (world.cue s w).now, .pass (world.turn s w).pass.account]⟩ := by
  have hrun : run world (n+1) s w =
      (.failed why, (world.turn s w).pass.session, world.taken s w) := by
    rw [run_succ _ _ _ hrunning, hr]
  refine ⟨?_, ?_, ?_, fun log => ?_⟩
  · rw [hrun]
  · rw [hrun, obeyAll_turn h]
    simp only [handedBy, List.flatMap_cons, List.flatMap_nil, List.nil_append, List.append_nil]
    rfl
  · rw [turns_succ _ _ _ hrunning, hr, List.flatMap_singleton, commands_turn]
  · have hturn : world.noting.turn s (w, log) = world.turn s w := rfl
    rw [hrun, run_succ _ _ _ hrunning, hturn, hr, World.taken_noting]
    rfl

/-- After any other pass a run goes on. -/
lemma follows_of_ok {rest : Course} (h : s.Settled) (hrunning : s.pane.isRunning = true)
    (hr : (world.turn s w).pass.result = .ok ())
    (hrest : Follows world n (world.turn s w).pass.session (world.rested s w) rest) :
    let c := world.cue s w
    let wait := (world.turn s w).pass.session.schedule.wait c.later
    Follows world (n+1) s w
      ⟨rest.ending, s.plan.commands c ++ rest.commands,
        [.read c.now, .pass (world.turn s w).pass.account, .read c.later] ++
          (if 0 < wait then [.sleep wait] else []) ++ rest.deeds⟩ := by
  intro c wait
  have hrun : run world (n+1) s w =
      run world n (world.turn s w).pass.session (world.rested s w) := by
    rw [run_succ _ _ _ hrunning, hr]
  have hsleep : handedBy (if 0 < wait then [.sleep wait] else []) = [] := by split <;> rfl
  refine ⟨?_, ?_, ?_, fun log => ?_⟩
  · rw [hrun, hrest.ending]
  · rw [hrun, Machine.obeyAll_append, obeyAll_turn h, hrest.machine]
    simp only [handedBy] at hsleep
    simp only [handedBy, List.flatMap_append, List.flatMap_cons, List.flatMap_nil, hsleep,
      List.nil_append, List.append_nil]
    rfl
  · rw [turns_succ _ _ _ hrunning, hr, List.flatMap_cons, commands_turn, hrest.commands]
  · have hturn : world.noting.turn s (w, log) = world.turn s w := rfl
    rw [hrun, run_succ _ _ _ hrunning, hturn, hr, World.rested_noting, hrest.deeds,
      List.append_assoc log]
    rfl

/-- A settled session follows its plan. -/
theorem follows_plan (h : s.Settled) (world : World ω) (n : Nat) (w : ω) :
    Follows world n s w (s.plan.run (world.script s w) n) := by
  induction n generalizing s w with
  | zero => exact ⟨rfl, rfl, rfl, fun log => by simp only [run, Plan.run, List.append_nil]⟩
  | succ n ih =>
    cases hrunning : s.pane.isRunning with
    | false =>
      rw [Plan.run_of_closed hrunning]
      refine ⟨?_, ?_, ?_, fun log => ?_⟩
      · rw [run_of_closed _ _ _ hrunning]
      · rw [run_of_closed _ _ _ hrunning]
        rfl
      · simp [turns, hrunning]
      · rw [run_of_closed _ _ _ hrunning, run_of_closed _ _ _ hrunning, List.append_nil]
    | true =>
      obtain ⟨haccount, hplan, hsettled⟩ := turn_follows h world w
      have hresult : s.plan.result (world.script s w 0) = (world.turn s w).pass.result :=
        congrArg Account.result haccount.symm
      cases hr : (world.turn s w).pass.result with
      | error why =>
        have hcourse := follows_of_error (n := n) h hrunning hr
        rw [haccount] at hcourse
        rwa [Plan.run_of_error hrunning (hresult.trans hr)]
      | ok _ =>
        have hcourse := follows_of_ok h hrunning hr (ih hsettled _)
        have hschedule := congrArg Plan.schedule hplan
        rw [haccount, hplan, show (world.turn s w).pass.session.schedule = _ from hschedule]
          at hcourse
        rw [Plan.run_of_ok hrunning (hresult.trans hr)]
        exact hcourse

/-- A turn that fails is the last one, and nothing is done after its pass. -/
lemma run_of_failing {older newer : List Turn} {t : Turn} {why : Failure}
    (ht : turns world n s w = older ++ t :: newer) (hr : t.pass.result = .error why)
    (log : List Deed) :
    newer = [] ∧ (run world n s w).1 = .failed why ∧ (run world n s w).2.1 = t.pass.session ∧
      ∃ earlier, (run world.noting n s (w, log)).2.2.2 =
        earlier ++ [.read t.now, .pass t.pass.account] := by
  induction n generalizing s w older log with
  | zero => simp [turns] at ht
  | succ n ih =>
    obtain ⟨k, hk, hrunning, hsplit⟩ := turns_split ht
    obtain rfl := Nat.succ.inj hk
    have hturn : world.noting.turn s (w, log) = world.turn s w := rfl
    rw [run_succ _ _ _ hrunning, run_succ _ _ _ hrunning, hturn]
    obtain ⟨rfl, rfl, hlast⟩ | ⟨later, rfl, hresult, hrest⟩ := hsplit
    · rw [hr]
      refine ⟨hlast why hr, rfl, rfl, log, ?_⟩
      rw [World.taken_noting]
    · rw [hresult, World.rested_noting]
      exact ih hrest _

end Follows

/-- A run is its plan. In a run of a session that started, the machine that was booted catches up
with the clock once in every pass, at the reading of that pass and on the schedule that was set up
at the start; it is reset after that exactly if a timer step was taken and the update of that very
pass reports that the reset key went down. The window is updated once in every pass with a timer
step and in no other. At the first pass whose machine cannot catch up the run ends with that
failure, and nothing is done after it. -/
theorem run_follows_plan {settings : Settings} {traced : Bool} {setting : Setting}
    (h : (start settings traced setting).result = .ok s) (world : World ω) (n : Nat) (w : ω) :
    (∃ rom m, setting.rom = .ok rom ∧
      Machine.boot Font.glyphs rom (randomOf settings setting.entropy) = .ok m ∧
      s.plan = ⟨m, .new (max settings.ips 1) setting.now, .released, true⟩) ∧
    Follows world n s w (s.plan.run (world.script s w) n) ∧
    (∀ t ∈ turns world n s w,
      t.pass.calls.countP WindowCall.isUpdate = if 0 < t.timerSteps then 1 else 0) ∧
    ∀ older t newer why, turns world n s w = older ++ t :: newer →
      (t.session.catchUp t.now).result = .error why →
      newer = [] ∧ (run world n s w).1 = .failed (.halt why) ∧
      (∃ earlier, (s.plan.run (world.script s w) n).deeds =
        earlier ++ [.read t.now, .pass t.pass.account]) ∧
      t.commands = [.catchUp t.session.pane.held t.session.schedule t.now] ∧
      t.pass.calls = [] ∧ t.pass.pulses = [] ∧
      ∃ j < (t.session.schedule.instructions.grant t.now).1,
        t.session.machine.FailsAfter t.session.pane.held j why ∧
        (run world n s w).2.1.machine =
          t.session.machine.acts (ticks t.session.pane.held (j+1)) := by
  obtain ⟨rom, m, hrom, -, hboot, hs⟩ := start_eq_ok_iff.mp h
  have hsettled : s.Settled := by
    rw [hs]
    rfl
  have hfollows := follows_plan hsettled world n w
  refine ⟨⟨rom, m, hrom, hboot, ?_⟩, hfollows, fun t _ => t.updates_once, ?_⟩
  · rw [hs]
    rfl
  intro older t newer why ht hfails
  obtain ⟨hresult, hcalls, hpulses, hcommands, j, hj, hlast, hmachine⟩ := Turn.failing hfails
  obtain ⟨hnewer, hending, hafter, earlier, hnoted⟩ := run_of_failing ht hresult []
  rw [hfollows.deeds, List.nil_append] at hnoted
  refine ⟨hnewer, hending, ⟨earlier, hnoted⟩, hcommands, hcalls, hpulses, j, hj, hlast, ?_⟩
  rw [hafter, hmachine]

/-- Backspace goes down at the update of the first pass and resets the machine; the second pass
begins with an instruction that fails, so that its timer step is not taken and the press the window
would report is never asked for. -/
theorem run_follows_plan_reset_failing :
    let settings : Settings := { rom := "zero.ch8", ips := 1 }
    let setting : Setting :=
      { rom := .ok #[0x00,0x00], windowOpens := true, audio := .error .noAudioOutput,
        entropy := .fill 8 0, now := 0 }
    let cues : Nat → Cue := fun i =>
      ⟨20000000+i*1000000000, .ok ⟨[.backspace], [.backspace], true⟩, 30000000+i*1000000000⟩
    let world := World.scripted cues
    ∃ s first second, (start settings false setting).result = .ok s ∧
      s.turns world 3 (0, false) = [first,second] ∧
      (s.plan.run cues 3).commands =
        [.catchUp .released first.session.schedule 20000000, .reset,
          .catchUp second.session.pane.held second.session.schedule 1020000000] ∧
      (s.run world 3 (0, false)).1 = .failed (.halt (.error (.unknownOpcode ⟨0⟩ 0x200))) ∧
      second.pass.calls = [] := by
  intro settings setting cues world
  -- of the session only these facts are kept, so that nothing below evaluates it
  obtain ⟨s, hstart, hschedule, hpane, hm⟩ : ∃ s,
      (start settings false setting).result = .ok s ∧ s.schedule = .new 1 0 ∧ s.pane = .new ∧
        s.machine.memory = .loaded Font.glyphs #[0x00,0x00] :=
    ⟨_, start_eq_ok_iff.mpr ⟨_, _, rfl, rfl,
      Machine.boot_eq_ok_iff.mpr ⟨by decide, by decide, rfl⟩, rfl⟩, rfl, rfl, rfl⟩
  have hrunning : s.pane.isRunning = true := by
    rw [hpane]
    rfl
  have hsettled : s.Settled := by
    rw [Settled, hpane]
    rfl
  let why : Halt := .error (.unknownOpcode ⟨0⟩ 0x200)
  let report : Report := ⟨[.backspace], [.backspace], true⟩
  let first : Turn := ⟨s, 20000000, .ok report⟩
  let second : Turn := ⟨first.pass.session, 1020000000, .ok report⟩
  -- at the first reading a timer step is due and no instruction
  have hgrant : (Schedule.new 1 0).instructions.grant 20000000 =
      (0, (Schedule.new 1 0).instructions) := by decide
  have hsteps : ((Schedule.new 1 0).timerSteps.grant 20000000).1 = 1 := by decide
  obtain ⟨hcatch, hmemory, hinstructions⟩ : (s.catchUp 20000000).result = .ok ⟨0,1⟩ ∧
      (s.catchUp 20000000).machine.memory = s.machine.memory ∧
      (s.catchUp 20000000).schedule.instructions = (Schedule.new 1 0).instructions := by
    have hidle : (s.schedule.instructions.grant 20000000).1 = 0 := by rw [hschedule, hgrant]
    rw [catchUp, Machine.catchUp, Console.catchUp_of_ok (by rw [hidle]; rfl)]
    simp only [hschedule, hgrant, hsteps]
    exact ⟨trivial, rfl, trivial⟩
  obtain ⟨hupdated, hok, hopen, hreset, hlater⟩ : first.pass.updated = true ∧
      first.pass.result = .ok () ∧ first.pass.session.pane.isRunning = true ∧
      first.pass.session.machine = (s.catchUp 20000000).machine.reset ∧
      first.pass.session.schedule = (s.catchUp 20000000).schedule := by
    obtain ⟨entries, hpass⟩ := pass_of_ok hcatch (.ok report)
    obtain ⟨told, hpresent⟩ := present_of_settled (hsettled.caughtUp 20000000) report
    rw [if_neg Nat.one_ne_zero, hpresent] at hpass
    rw [Turn.pass, hpass]
    exact ⟨rfl, rfl, rfl, rfl, rfl⟩
  -- the machine that was reset stands at the start of its program
  have hm' : first.pass.session.machine.memory = .loaded Font.glyphs #[0x00,0x00] := by
    rw [hreset]
    exact hmemory.trans hm
  have hpc : first.pass.session.machine.pc = 0x200 := by
    rw [hreset]
    rfl
  have hfails : first.pass.session.machine.FailsAfter first.pass.session.pane.held 0 why := by
    have hf : first.pass.session.machine.fetch = ⟨0⟩ :=
      Machine.fetch_of_loaded (k := 0) hm' (by rw [hpc]; rfl) (by decide) rfl rfl
    have hi : first.pass.session.machine.instruction? = none := by
      rw [Machine.instruction?_eq, hf]
      rfl
    refine ⟨fun j hj => absurd hj (Nat.not_lt_zero j), ?_⟩
    change (first.pass.session.machine.step _).result = _
    rw [Machine.step_of_none hi, hf, hpc]
  have hdue : (first.pass.session.schedule.instructions.grant 1020000000).1 = 1 := by
    rw [hlater, hinstructions]
    decide
  have hcatch' : (second.session.catchUp second.now).result = .error why := by
    have hsome : 0 < (first.pass.session.schedule.instructions.grant 1020000000).1 := by
      rw [hdue]
      exact Nat.one_pos
    exact congrArg CatchUp.result (Console.catchUp_of_failsAfter hfails hsome)
  have hturns : s.turns world 3 (0, false) = [first,second] := by
    have hturn : world.turn s (0, false) = first := rfl
    have hrested : world.rested s (0, false) = (1, false) := World.rested_scripted cues s 0
    have hturn' : world.turn first.pass.session (1, false) = second := rfl
    obtain ⟨hlast, -⟩ := Turn.failing hcatch'
    rw [turns_succ _ _ _ hrunning, hturn, hok, hrested]
    dsimp only
    rw [turns_succ _ _ _ hopen, hturn', hlast]
  have hfirst : first.commands = [.catchUp .released first.session.schedule 20000000, .reset] := by
    unfold Turn.commands Turn.presses Turn.report?
    rw [hupdated, show first.session.pane = .new from hpane]
    rfl
  have hscript : world.script s (0, false) = cues := by
    rw [World.script_scripted]
    funext k
    rw [Nat.zero_add]
  obtain ⟨-, hfollows, -, hlast⟩ := run_follows_plan hstart world 3 (0, false)
  obtain ⟨-, hending, -, hsecond, hcalls, -⟩ := hlast [first] second [] why hturns hcatch'
  refine ⟨s, first, second, hstart, hturns, ?_, hending, hcalls⟩
  have hcommands := hfollows.commands
  rw [hscript, hturns, List.flatMap_cons, List.flatMap_singleton, hfirst, hsecond] at hcommands
  exact hcommands

end Session
end Chip8
