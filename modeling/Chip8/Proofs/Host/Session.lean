import Chip8.Proofs.Host.Pane
import Chip8.Proofs.Keypad

/-! Sessions from pass to pass. Between two passes the picture is that of the frame drawn last and
the held keys are those of the report taken in last; a pass that updates the window took a timer
step, so what it presents is the screen itself. -/
namespace Chip8

namespace Session

variable {s : Session} {keys : List HostKey} {now : Nat} {answer : Except WindowFault Report}

/-- How the machine of a session catches up with the clock. -/
def catchUp (s : Session) (now : Nat) : CatchUp Keypad :=
  s.machine.catchUp s.pane.held s.schedule now

/-- A session that has caught up with the clock, as it is when the window is updated. -/
def caughtUp (s : Session) (now : Nat) : Session :=
  { s with
    machine := (s.catchUp now).machine
    schedule := (s.catchUp now).schedule
    pane := s.pane.drawAll (s.catchUp now).pulses }

/-- Everything that happens to the machine of a session while it catches up. -/
def events (s : Session) (now : Nat) : List Event :=
  s.machine.log (s.machine.catchUpActions s.pane.held s.schedule now)

/-- A session whose picture is current but for changes that wait for a timer step, and whose pad
holds what some host keys stand for. -/
structure Current (s : Session) (keys : List HostKey) : Prop where
  shown : ∃ screen, Picture.Shows s.pane.picture screen ∧ s.machine.display.Shows screen
  held : s.pane.held = .ofHostKeys keys

namespace Current

lemma caughtUp (h : s.Current keys) (now : Nat) : (s.caughtUp now).Current keys := by
  obtain ⟨screen, hpicture, hdisplay⟩ := h.shown
  refine ⟨⟨lastFrame screen (s.catchUp now).pulses, Pane.shows_drawAll hpicture _, ?_⟩, ?_⟩
  · change (s.catchUp now).machine.display.Shows _
    rw [catchUp, Machine.catchUp_machine, Machine.catchUp_pulses]
    exact Machine.shows_acts hdisplay _
  · exact (Pane.held_drawAll _ _).trans h.held

lemma present (h : s.Current keys) (answer : Except WindowFault Report) :
    (s.present answer).session.Current (answer.toOption.elim keys Report.held) := by
  obtain ⟨screen, hpicture, hdisplay⟩ := h.shown
  cases answer with
  | error fault => exact h
  | ok report =>
    cases hreset : (s.pane.receive report).collectReset.1 with
    | true =>
      simp only [Session.present, hreset, if_true]
      exact ⟨⟨screen, hpicture, fun hclean => nomatch hclean⟩, rfl⟩
    | false =>
      simp only [Session.present, hreset, Bool.false_eq_true, if_false]
      exact ⟨⟨screen, hpicture, hdisplay⟩, rfl⟩

/-- A picture without changes that wait is the screen. -/
lemma picture_shows (h : s.Current keys) (hclean : s.machine.display.dirty = false) :
    Picture.Shows s.pane.picture s.machine.display.screen := by
  obtain ⟨screen, hpicture, hdisplay⟩ := h.shown
  rwa [hdisplay hclean]

end Current

/-- Whatever the answer, presenting a session makes the same requests. -/
lemma present_eq (s : Session) (answer : Except WindowFault Report) :
    ∃ after result entries, s.present answer =
      ⟨after, result, [],
        (if s.debug then [.setTitle s.statusTitle] else []) ++ [.update s.pane.picture],
        true, entries⟩ := by
  cases answer with
  | error fault => exact ⟨_, _, _, rfl⟩
  | ok report =>
    simp only [Session.present]
    split <;> exact ⟨_, _, _, rfl⟩

lemma present_ok (s : Session) (report : Report) :
    (s.present (.ok report)).result = .ok () ∧
      (s.present (.ok report)).session.schedule = s.schedule ∧
      (s.present (.ok report)).session.pane.isRunning = (s.pane.receive report).isRunning := by
  simp only [Session.present]
  split <;> exact ⟨rfl, rfl, rfl⟩

/-- A pass with a timer step presents the session that has caught up. -/
lemma pass_of_due {work : Work} (h : (s.catchUp now).result = .ok work)
    (hwork : work.timerSteps ≠ 0) (answer : Except WindowFault Report) :
    (s.pass now answer).session = ((s.caughtUp now).present answer).session ∧
      (s.pass now answer).result = ((s.caughtUp now).present answer).result ∧
      (s.pass now answer).calls = ((s.caughtUp now).present answer).calls ∧
      (s.pass now answer).updated = true := by
  obtain ⟨after, result, entries, hpresent⟩ := (s.caughtUp now).present_eq answer
  have hupdated : ((s.caughtUp now).present answer).updated = true := by rw [hpresent]
  rw [← hupdated]
  simp only [catchUp] at h
  simp only [pass, h, if_neg hwork]
  exact ⟨rfl, rfl, rfl, rfl⟩

/-- A pass without a timer step leaves the window alone. -/
lemma pass_of_idle (h : ∀ work, (s.catchUp now).result = .ok work → work.timerSteps = 0)
    (answer : Except WindowFault Report) :
    (s.pass now answer).calls = [] ∧ (s.pass now answer).updated = false ∧
      (s.pass now answer).session = s.caughtUp now := by
  cases hr : (s.catchUp now).result with
  | error why =>
    simp only [catchUp] at hr
    simp only [pass, hr]
    exact ⟨trivial, trivial, rfl⟩
  | ok work =>
    have hwork := h work hr
    simp only [catchUp] at hr
    simp only [pass, hr, if_pos hwork]
    exact ⟨trivial, trivial, rfl⟩

/-- A pass updates the window with nothing left to show, or not at all. -/
lemma pass_cases (s : Session) (now : Nat) (answer : Except WindowFault Report) :
    ((s.pass now answer).calls = [] ∧ (s.pass now answer).updated = false ∧
      (s.pass now answer).session = s.caughtUp now) ∨
    ((s.caughtUp now).machine.display.dirty = false ∧
      (s.pass now answer).calls = ((s.caughtUp now).present answer).calls ∧
      (s.pass now answer).updated = true ∧
      (s.pass now answer).session = ((s.caughtUp now).present answer).session) := by
  by_cases hdue : ∃ work, (s.catchUp now).result = .ok work ∧ work.timerSteps ≠ 0
  · obtain ⟨work, hr, hwork⟩ := hdue
    obtain ⟨hsession, -, hcalls, hupdated⟩ := pass_of_due hr hwork answer
    exact .inr ⟨Machine.dirty_catchUp hr hwork, hcalls, hupdated, hsession⟩
  · refine .inl (pass_of_idle (fun work hr => ?_) answer)
    exact Classical.not_not.mp fun hwork => hdue ⟨work, hr, hwork⟩

/-- A pass hands out what its timer steps do. -/
lemma pulses_pass (s : Session) (now : Nat) (answer : Except WindowFault Report) :
    (s.pass now answer).pulses = (s.catchUp now).pulses := by
  cases hr : (s.catchUp now).result with
  | error why =>
    simp only [catchUp] at hr
    simp only [pass, hr]
    rfl
  | ok work =>
    simp only [catchUp] at hr
    simp only [pass, hr]
    split <;> rfl

lemma machine_present (s : Session) (answer : Except WindowFault Report) :
    (s.present answer).session.machine = s.machine ∨
      (s.present answer).session.machine = s.machine.reset := by
  cases answer with
  | error fault => exact .inl rfl
  | ok report =>
    simp only [Session.present]
    split
    · exact .inr rfl
    · exact .inl rfl

/-- A pass leaves the machine that has caught up, or resets it after that. -/
lemma machine_pass (s : Session) (now : Nat) (answer : Except WindowFault Report) :
    (s.pass now answer).session.machine = (s.caughtUp now).machine ∨
      (s.pass now answer).session.machine = (s.caughtUp now).machine.reset := by
  rcases s.pass_cases now answer with ⟨-, -, hsession⟩ | ⟨-, -, -, hsession⟩
  · exact .inl (congrArg machine hsession)
  · rw [hsession]
    exact (s.caughtUp now).machine_present answer

lemma update_mem_present {picture : Array UInt32}
    (h : .update picture ∈ (s.present answer).calls) : picture = s.pane.picture := by
  obtain ⟨after, result, entries, hpresent⟩ := s.present_eq answer
  rw [hpresent] at h
  dsimp only at h
  split at h <;> simpa using h

end Session

/-! ### The passes of a run -/

/-- A pass of a run, told by what goes into it. -/
structure Turn where
  session : Session
  now : Nat
  answer : Except WindowFault Report

namespace Turn

def pass (t : Turn) : Pass := t.session.pass t.now t.answer

/-- The machine of a turn once it has caught up with the clock: the window is updated then. -/
def machine (t : Turn) : Machine := (t.session.caughtUp t.now).machine

/-- What happens to the machine of a turn while it catches up. -/
def events (t : Turn) : List Event := t.session.events t.now

/-- The events of a turn are a run of its machine that leads to the update, and what they hand out
is what the devices get. -/
theorem events_eq (t : Turn) :
    t.events = t.session.machine.log (t.events.map Event.action) ∧
      t.machine = t.session.machine.acts (t.events.map Event.action) ∧
      t.pass.pulses = Machine.handed t.events := by
  rw [events, Session.events, Machine.map_action_log, pass, Session.pulses_pass]
  exact ⟨rfl, Machine.catchUp_machine _ _ _ _, Machine.catchUp_pulses _ _ _ _⟩

/-- The report a turn takes in, if it updates the window and the update succeeds. -/
def report? (t : Turn) : Option Report := if t.pass.updated then t.answer.toOption else none

/-- The host keys held in the report taken in last, if one was since `keys`. -/
def lastHeld (keys : List HostKey) (turns : List Turn) : List HostKey :=
  ((turns.filterMap report?).map Report.held).getLastD keys

lemma lastHeld_cons (keys : List HostKey) (t : Turn) (turns : List Turn) :
    lastHeld keys (t :: turns) = lastHeld (t.report?.elim keys Report.held) turns := by
  cases h : t.report? with
  | none => simp only [lastHeld, List.filterMap_cons_none h, Option.elim_none]
  | some report =>
    simp only [lastHeld, List.filterMap_cons_some h, List.map_cons, List.getLastD_cons,
      Option.elim_some]

end Turn

namespace Session

variable {s : Session} {keys : List HostKey} {ω : Type}

namespace World

variable (world : World ω)

def turn (s : Session) (w : ω) : Turn :=
  ⟨s, (world.reading w).1, world.answer (world.reading w).2⟩

/-- What is left of the world when the devices have taken a turn. -/
def taken (s : Session) (w : ω) : ω := world.take (world.reading w).2 (world.turn s w).pass

/-- What is left of the world when the next turn begins. -/
def rested (s : Session) (w : ω) : ω :=
  let later := world.reading (world.taken s w)
  let wait := (world.turn s w).pass.session.schedule.wait later.1
  if 0 < wait then world.sleep later.2 wait else later.2

/-- The same world, which also keeps the passes it takes. -/
def recording : World (ω × List Pass) where
  reading w := ((world.reading w.1).1, (world.reading w.1).2, w.2)
  answer w := world.answer w.1
  take w p := (world.take w.1 p, w.2 ++ [p])
  sleep w wait := (world.sleep w.1 wait, w.2)

lemma rested_recording (s : Session) (w : ω) (log : List Pass) :
    world.recording.rested s (w, log) = (world.rested s w, log ++ [(world.turn s w).pass]) := by
  have htaken : world.recording.taken s (w, log) =
      (world.taken s w, log ++ [(world.turn s w).pass]) := rfl
  have hturn : world.recording.turn s (w, log) = world.turn s w := rfl
  unfold rested
  rw [htaken, hturn]
  exact (apply_ite (fun w' => (w', log ++ [(world.turn s w).pass])) _ _ _).symm

end World

/-- The turns of a run, at most `n` of them. -/
def turns (world : World ω) : Nat → Session → ω → List Turn
  | 0, _, _ => []
  | n+1, s, w =>
    if s.pane.isRunning then
      world.turn s w ::
        match (world.turn s w).pass.result with
        | .error _ => []
        | .ok _ => turns world n (world.turn s w).pass.session (world.rested s w)
    else []

lemma run_succ (world : World ω) (n : Nat) (w : ω) (h : s.pane.isRunning = true) :
    run world (n+1) s w =
      match (world.turn s w).pass.result with
      | .error why => (.failed why, (world.turn s w).pass.session, world.taken s w)
      | .ok _ => run world n (world.turn s w).pass.session (world.rested s w) := by
  rw [run, if_pos h]
  rfl

lemma turns_succ (world : World ω) (n : Nat) (w : ω) (h : s.pane.isRunning = true) :
    turns world (n+1) s w =
      world.turn s w ::
        match (world.turn s w).pass.result with
        | .error _ => []
        | .ok _ => turns world n (world.turn s w).pass.session (world.rested s w) := by
  rw [turns, if_pos h]

/-- A run makes the passes of its turns, one after the other. -/
theorem run_recording (world : World ω) (n : Nat) (s : Session) (w : ω) (log : List Pass) :
    run world.recording n s (w, log) =
      let (ending, after, w') := run world n s w
      (ending, after, w', log ++ (turns world n s w).map Turn.pass) := by
  induction n generalizing s w log with
  | zero => simp [run, turns]
  | succ n ih =>
    cases hrunning : s.pane.isRunning with
    | false => simp [run, turns, hrunning]
    | true =>
      have hturn : world.recording.turn s (w, log) = world.turn s w := rfl
      rw [run_succ _ _ _ hrunning, run_succ _ _ _ hrunning, turns_succ _ _ _ hrunning, hturn]
      cases (world.turn s w).pass.result with
      | error why => rfl
      | ok _ =>
        simp only [world.rested_recording, ih, List.map_cons, List.append_assoc,
          List.singleton_append]

lemma Current.turn {t : Turn} (h : t.session.Current keys) :
    t.pass.session.Current (t.report?.elim keys Report.held) := by
  have hcaught := h.caughtUp t.now
  have hpass : t.pass = t.session.pass t.now t.answer := rfl
  rw [Turn.report?, hpass]
  rcases t.session.pass_cases t.now t.answer with h | h
  · obtain ⟨-, hupdated, hsession⟩ := h
    rw [hupdated, hsession]
    exact hcaught
  · obtain ⟨-, -, hupdated, hsession⟩ := h
    rw [hupdated, hsession]
    exact hcaught.present t.answer

section Turns

variable {world : World ω} {n : Nat} {w : ω} {older newer : List Turn} {t : Turn}

/-- A turn of a run is the first one, or it is a turn of the run that goes on after the first. -/
lemma turns_split (ht : turns world n s w = older ++ t :: newer) :
    ∃ k, n = k+1 ∧ s.pane.isRunning = true ∧
      ((older = [] ∧ t = world.turn s w ∧ ∀ why, t.pass.result = .error why → newer = []) ∨
      ∃ later, older = world.turn s w :: later ∧ (world.turn s w).pass.result = .ok () ∧
        turns world k (world.turn s w).pass.session (world.rested s w) = later ++ t :: newer) := by
  cases n with
  | zero => simp [turns] at ht
  | succ k =>
    cases hrunning : s.pane.isRunning with
    | false => simp [turns, hrunning] at ht
    | true =>
      refine ⟨k, rfl, rfl, ?_⟩
      rw [turns_succ _ _ _ hrunning] at ht
      cases older with
      | nil =>
        obtain ⟨rfl, hrest⟩ := List.cons.inj ht
        refine .inl ⟨rfl, rfl, fun why hr => ?_⟩
        rw [hr] at hrest
        exact hrest.symm
      | cons first later =>
        obtain ⟨rfl, hrest⟩ := List.cons.inj ht
        cases hresult : (world.turn s w).pass.result with
        | error why => simp [hresult] at hrest
        | ok _ =>
          rw [hresult] at hrest
          exact .inr ⟨later, rfl, rfl, hrest⟩

/-- Every turn of a run begins with the session that the turn before it left. -/
lemma session_of_turns (ht : turns world n s w = older ++ t :: newer) :
    t.session = (older.map fun u => u.pass.session).getLastD s := by
  induction n generalizing s w older with
  | zero => simp [turns] at ht
  | succ n ih =>
    obtain ⟨k, hk, -, ⟨rfl, rfl, -⟩ | ⟨later, rfl, -, hrest⟩⟩ := turns_split ht
    · rfl
    · obtain rfl := Nat.succ.inj hk
      rw [ih hrest, List.map_cons, List.getLastD_cons]

/-- Every turn of a run that begins with a current session begins with one. -/
theorem current_of_turns (hs : s.Current keys) (ht : turns world n s w = older ++ t :: newer) :
    t.session.Current (Turn.lastHeld keys older) := by
  induction n generalizing s w keys older with
  | zero => simp [turns] at ht
  | succ n ih =>
    obtain ⟨k, hk, -, ⟨rfl, rfl, -⟩ | ⟨later, rfl, -, hrest⟩⟩ := turns_split ht
    · exact hs
    · obtain rfl := Nat.succ.inj hk
      rw [Turn.lastHeld_cons]
      exact ih (Current.turn (t := world.turn s w) hs) hrest

end Turns

/-- What a turn presents is the screen of its machine. -/
lemma Current.update_shows {t : Turn} (h : t.session.Current keys) {picture : Array UInt32}
    (hupdate : .update picture ∈ t.pass.calls) :
    Picture.Shows picture t.machine.display.screen := by
  rcases t.session.pass_cases t.now t.answer with ⟨hcalls, -⟩ | ⟨hclean, hcalls, -⟩
  · rw [Turn.pass, hcalls] at hupdate
    cases hupdate
  · rw [Turn.pass, hcalls] at hupdate
    rw [update_mem_present hupdate]
    exact (h.caughtUp t.now).picture_shows hclean

/-- A session starts exactly if its file can be read, its window opens and the program fits. -/
theorem start_eq_ok_iff {settings : Settings} {traced : Bool} {setting : Setting} :
    (start settings traced setting).result = .ok s ↔
      ∃ rom m, setting.rom = .ok rom ∧ setting.windowOpens = true ∧
        Machine.boot Font.glyphs rom (randomOf settings setting.entropy) = .ok m ∧
        s = {
          title := titleOf settings
          debug := settings.debug
          traced := traced
          machine := m
          schedule := .new (max settings.ips 1) setting.now
          pane := .new } := by
  cases hrom : setting.rom with
  | error fault => simp [start, hrom]
  | ok rom =>
    cases hopens : setting.windowOpens with
    | false => simp [start, hrom, hopens]
    | true =>
      cases hboot : Machine.boot Font.glyphs rom (randomOf settings setting.entropy) with
      | error cause => simp [start, hrom, hopens, hboot]
      | ok m => simp [start, hrom, hopens, hboot, eq_comm]

lemma current_of_start {settings : Settings} {traced : Bool} {setting : Setting}
    (h : (start settings traced setting).result = .ok s) : s.Current [] := by
  obtain ⟨rom, m, -, -, hboot, rfl⟩ := start_eq_ok_iff.mp h
  obtain ⟨-, -, rfl⟩ := Machine.boot_eq_ok_iff.mp hboot
  exact ⟨⟨.blank, Picture.shows_blank, fun _ => rfl⟩, rfl⟩

/-- A session presents the true screen and passes on the true keys. In a run of a session that
started, every turn goes on from where the one before it ended: its events take the machine to the
update and hand out what the devices get, and the machine stays as it is then, or is reset. The
picture of every update has the colour of the machine's pixel in each of its places, and every
instruction among the events that looks at the keys sees those that stand for the host keys of the
latest report: one by one, and the lowest of them when it waits for one. -/
theorem presents_screen {settings : Settings} {traced : Bool} {setting : Setting}
    (h : (start settings traced setting).result = .ok s) (world : World ω) (n : Nat) (w : ω) :
    (run world.recording n s (w, [])).2.2.2 = (turns world n s w).map Turn.pass ∧
    ∀ older t newer, turns world n s w = older ++ t :: newer →
      (t.session = (older.map fun u => u.pass.session).getLastD s ∧
        t.events = t.session.machine.log (t.events.map Event.action) ∧
        t.machine = t.session.machine.acts (t.events.map Event.action) ∧
        t.pass.pulses = Machine.handed t.events ∧
        (t.pass.session.machine = t.machine ∨ t.pass.session.machine = t.machine.reset)) ∧
      (∀ picture, .update picture ∈ t.pass.calls → picture.size = 2048 ∧ ∀ k : Fin 2048,
        picture[k.val]? =
          some (if t.machine.display.screen.isLit (.ofIndex k) then 0x007FFF else 0x000000)) ∧
      ∀ e ∈ t.events, ∀ held, e.action = .tick held →
        let codes := (Turn.lastHeld [] older).filterMap HostKey.pad?
        (∀ key, held.isHeld key = true ↔ key ∈ codes) ∧
        ∀ key, held.first? = some key ↔ key ∈ codes ∧ ∀ other ∈ codes, key ≤ other := by
  refine ⟨?_, fun older t newer ht => ?_⟩
  · rw [run_recording]
    rfl
  have hcurrent := current_of_turns (current_of_start h) ht
  obtain ⟨hevents, hmachine, hpulses⟩ := t.events_eq
  refine ⟨⟨session_of_turns ht, hevents, hmachine, hpulses, t.session.machine_pass _ _⟩,
    fun picture hupdate => ?_, fun e he held htick => ?_⟩
  · obtain ⟨hsize, hentry⟩ := hcurrent.update_shows hupdate
    exact ⟨hsize, hentry⟩
  · have hheld : held = .ofHostKeys (Turn.lastHeld [] older) := by
      have hmem := Machine.action_mem_of_mem_log he
      rw [htick] at hmem
      rcases Machine.eq_of_mem_catchUpActions hmem with hkeys | hpulse
      · rw [← hcurrent.held]
        exact Action.tick.inj hkeys
      · cases hpulse
    intro codes
    have hcodes : ∀ key, held.isHeld key = true ↔ key ∈ codes := by
      intro key
      rw [hheld]
      exact Keypad.isHeld_ofHostKeys
    refine ⟨hcodes, fun key => ?_⟩
    simp only [Keypad.first?_eq_some_iff, hcodes]

/-- The key 0 is reported twice at the first update, and the instruction of the second turn sees it.
-/
theorem presents_screen_key_held :
    let settings : Settings := { rom := "wait.ch8", ips := 1 }
    let setting : Setting :=
      { rom := .ok #[0xE0,0x9E], windowOpens := true, audio := .error .noAudioOutput,
        entropy := .fill 8 0, now := 0 }
    let world : World Nat :=
      { reading := fun w => (w, w+500000000), answer := fun _ => .ok ⟨[.x,.q,.x], [], true⟩,
        take := fun w _ => w, sleep := fun w _ => w }
    ∃ s first second, (start settings false setting).result = .ok s ∧
      s.turns world 2 20000000 = [first,second] ∧
      (∃ picture, .update picture ∈ first.pass.calls ∧ picture.size = 2048) ∧
      second.session = first.pass.session ∧
      second.machine = second.session.machine.acts (second.events.map Event.action) ∧
      ∃ e ∈ second.events, ∃ held, e.action = .tick held ∧
        (∀ key, held.isHeld key = true ↔ key ∈ [0,4,0]) ∧ held.first? = some 0 := by
  intro settings setting world
  -- of the session only these facts are kept, so that nothing below evaluates it
  obtain ⟨s, hstart, hschedule, hpane⟩ : ∃ s, (start settings false setting).result = .ok s ∧
      s.schedule = .new 1 0 ∧ s.pane = .new :=
    ⟨_, start_eq_ok_iff.mpr ⟨_, _, rfl, rfl,
      Machine.boot_eq_ok_iff.mpr ⟨by decide, by decide, rfl⟩, rfl⟩, rfl, rfl⟩
  let report : Report := ⟨[.x,.q,.x], [], true⟩
  let first : Turn := ⟨s, 20000000, .ok report⟩
  let second : Turn := ⟨first.pass.session, 1020000000, .ok report⟩
  -- at the first reading a timer step is due and no instruction
  have hgrant : (Schedule.new 1 0).instructions.grant 20000000 =
      (0, (Schedule.new 1 0).instructions) := by decide
  have hsteps : ((Schedule.new 1 0).timerSteps.grant 20000000).1 = 1 := by decide
  have hcatch : (s.catchUp 20000000).result = .ok ⟨0,1⟩ ∧
      (s.catchUp 20000000).schedule.instructions = (Schedule.new 1 0).instructions := by
    have hidle : (s.schedule.instructions.grant 20000000).1 = 0 := by rw [hschedule, hgrant]
    rw [catchUp, Machine.catchUp, Console.catchUp_of_ok (by rw [hidle]; rfl)]
    simp only [hschedule, hgrant, hsteps]
    exact ⟨trivial, trivial⟩
  obtain ⟨hresult, hschedule', hrunning⟩ := (s.caughtUp 20000000).present_ok report
  obtain ⟨hsession, hok, hcalls, hupdated⟩ := pass_of_due hcatch.1 Nat.one_ne_zero (.ok report)
  have hfirst : first.pass = s.pass 20000000 (.ok report) := rfl
  rw [hresult] at hok
  have hreport : first.report? = some report := if_pos hupdated
  have hopen : first.pass.session.pane.isRunning = true := by
    rw [hfirst, hsession, hrunning]
    rfl
  have hturn : world.turn s 20000000 = first := rfl
  have hrested : world.rested s 20000000 = 1020000000 := by
    have htaken : ∀ w, world.taken s w = w+500000000 := fun _ => rfl
    have hlater : world.reading (world.taken s 20000000) = (520000000,1020000000) := by
      rw [htaken]
    rw [World.rested, hlater]
    exact ite_self _
  have hturn' : world.turn first.pass.session 1020000000 = second := rfl
  have hturns : s.turns world 2 20000000 = [first,second] := by
    rw [turns_succ _ _ _ (by rw [hpane]; rfl), hturn, hfirst, hok, hrested, ← hfirst]
    dsimp only
    rw [turns_succ _ _ _ hopen, hturn']
    cases second.pass.result <;> rfl
  obtain ⟨-, hall⟩ := presents_screen hstart world 2 20000000
  obtain ⟨-, hpictures, -⟩ := hall [] first [second] hturns
  obtain ⟨⟨hsecond, -, hmachine, -⟩, -, hkeys⟩ := hall [first] second [] hturns
  have hupdate : .update (s.caughtUp 20000000).pane.picture ∈ first.pass.calls := by
    obtain ⟨after, result, entries, hpresent⟩ := (s.caughtUp 20000000).present_eq (.ok report)
    rw [hfirst, hcalls, hpresent]
    exact List.mem_append_right _ (List.mem_singleton_self _)
  have hcount : (first.pass.session.schedule.instructions.grant 1020000000).1 = 1 := by
    rw [hfirst, hsession, hschedule']
    change ((s.catchUp 20000000).schedule.instructions.grant 1020000000).1 = 1
    rw [hcatch.2]
    decide
  have hcodes : (Turn.lastHeld [] [first]).filterMap HostKey.pad? = [0,4,0] := by
    rw [Turn.lastHeld_cons, hreport]
    rfl
  have he : ⟨first.pass.session.machine, .tick first.pass.session.pane.held⟩ ∈ second.events := by
    unfold Turn.events Session.events Machine.catchUpActions
    simp only [second, Console.actionsOf, hcount]
    exact List.mem_cons_self ..
  obtain ⟨hset, hlowest⟩ := hkeys _ he _ rfl
  rw [hcodes] at hset hlowest
  have hzero : ∀ other ∈ [0,4,0], (0 : UInt8) ≤ other :=
    fun other _ => UInt8.le_iff_toNat_le.mpr (Nat.zero_le _)
  exact ⟨s, first, second, hstart, hturns, ⟨_, hupdate, (hpictures _ hupdate).1⟩, hsecond,
    hmachine, _, he, _, rfl, hset, (hlowest 0).mpr ⟨List.mem_cons_self .., hzero⟩⟩

end Session
end Chip8
