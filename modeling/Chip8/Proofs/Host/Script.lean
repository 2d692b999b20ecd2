import Chip8.Host.Script
import Chip8.Proofs.Host.Session
import Chip8.Proofs.Machine.CatchUp

/-! Sessions among devices that follow a script. Their record is that of the passes they make, and
they come to an end: a pass that leaves the window alone brings the clock closer to the next timer
step, one that updates the window uses up a frame, and the frame after the last closes it. -/
namespace Chip8

open Session

namespace Script

/-! ### The record -/

def Event.request : Event → WindowCall
  | .call request => request
  | .update _ picture _ => .update picture

namespace State

/-- The requests on record, the earliest first. -/
def requests (w : State) : List WindowCall := w.events.reverse.map Event.request

/-- The log entries on record, the earliest first. -/
def told (w : State) : List Entry := w.entries.reverse

lemma foldl_beep (w : State) (pulses : List Pulse) :
    ∃ speaker, pulses.foldl beep w = { w with speaker := speaker } := by
  induction pulses generalizing w with
  | nil => exact ⟨_, rfl⟩
  | cons pulse pulses ih =>
    obtain ⟨speaker, h⟩ := ih (w.beep pulse)
    refine ⟨speaker, h.trans ?_⟩
    unfold beep
    split <;> rfl

lemma pull_eq (w : State) (size : Nat) :
    ∃ speaker trap, (w.pull size).2 = { w with speaker := speaker, trap := trap } := by
  unfold pull
  split
  · exact ⟨_, _, rfl⟩
  · split <;> exact ⟨_, _, rfl⟩

/-- An update plays the next frame, goes on record and takes its time. -/
lemma update_eq (w : State) (picture : Array UInt32) :
    ∃ speaker taken trap, w.update picture =
      { w with
        clock := w.clock+w.frame.cost
        frames := w.frames.tail
        window := (w.window.update w.frame).2
        speaker := speaker
        events := .update w.clock picture taken :: w.events
        trap := trap } := by
  simp only [update]
  split
  · exact ⟨_, _, _, rfl⟩
  · obtain ⟨speaker, trap, h⟩ := pull_eq
      { w with
        clock := w.clock+w.frame.cost
        frames := w.frames.tail
        window := (w.window.update w.frame).2 } w.frame.pull
    rw [h]
    exact ⟨_, _, _, rfl⟩

lemma requests_call (w : State) (request : WindowCall) :
    (w.call request).requests = w.requests ++ [request] := by
  cases request with
  | update picture =>
    obtain ⟨speaker, taken, trap, h⟩ := w.update_eq picture
    rw [call, h]
    simp [requests, Event.request]
  | _ => simp [call, requests, Event.request]

lemma entries_call (w : State) (request : WindowCall) : (w.call request).entries = w.entries := by
  cases request with
  | update picture =>
    obtain ⟨speaker, taken, trap, h⟩ := w.update_eq picture
    rw [call, h]
  | _ => rfl

lemma foldl_call (w : State) (calls : List WindowCall) :
    (calls.foldl call w).requests = w.requests ++ calls ∧
      (calls.foldl call w).entries = w.entries := by
  induction calls generalizing w with
  | nil => simp
  | cons request calls ih =>
    obtain ⟨hrequests, hentries⟩ := ih (w.call request)
    rw [List.foldl_cons, hrequests, hentries, requests_call, entries_call]
    simp

/-- Only updates take time and use up frames. -/
lemma foldl_call_of_ne_update (w : State) {calls : List WindowCall}
    (h : ∀ picture, .update picture ∉ calls) :
    (calls.foldl call w).clock = w.clock ∧ (calls.foldl call w).frames = w.frames := by
  induction calls generalizing w with
  | nil => exact ⟨rfl, rfl⟩
  | cons request calls ih =>
    obtain ⟨hclock, hframes⟩ :=
      ih (w.call request) fun picture hmem => h picture (List.mem_cons_of_mem _ hmem)
    rw [List.foldl_cons, hclock, hframes]
    cases request with
    | update picture => exact absurd List.mem_cons_self (h picture)
    | _ => exact ⟨rfl, rfl⟩

/-- A pass without an update leaves the script as it is. -/
lemma take_of_ne_update (w : State) {p : Pass} (h : ∀ picture, .update picture ∉ p.calls) :
    (w.take p).clock = w.clock ∧ (w.take p).frames = w.frames := by
  obtain ⟨speaker, hbeep⟩ := w.foldl_beep p.pulses
  obtain ⟨hclock, hframes⟩ := (p.pulses.foldl beep w).foldl_call_of_ne_update h
  exact ⟨hclock.trans (by rw [hbeep]), hframes.trans (by rw [hbeep])⟩

/-- A pass that ends with an update plays the next frame. -/
lemma take_of_update (w : State) {p : Pass} {titles : List WindowCall} {picture : Array UInt32}
    (hcalls : p.calls = titles ++ [.update picture]) (h : ∀ picture, .update picture ∉ titles) :
    (w.take p).clock = w.clock+w.frame.cost ∧ (w.take p).frames = w.frames.tail := by
  obtain ⟨speaker, hbeep⟩ := w.foldl_beep p.pulses
  obtain ⟨hclock, hframes⟩ := (p.pulses.foldl beep w).foldl_call_of_ne_update h
  have hclock : (titles.foldl call (p.pulses.foldl beep w)).clock = w.clock :=
    hclock.trans (by rw [hbeep])
  have hframes : (titles.foldl call (p.pulses.foldl beep w)).frames = w.frames :=
    hframes.trans (by rw [hbeep])
  obtain ⟨_, _, _, hupdate⟩ := (titles.foldl call (p.pulses.foldl beep w)).update_eq picture
  have htake : w.take p =
      ((titles.foldl call (p.pulses.foldl beep w)).update picture).tell p.entries := by
    rw [take, hcalls, List.foldl_append]
    rfl
  rw [htake, hupdate]
  simp only [tell, frame, hclock, hframes]
  exact ⟨trivial, trivial⟩

/-- What a pass asks for and tells goes on record. -/
theorem record_take (w : State) (p : Pass) :
    (w.take p).requests = w.requests ++ p.calls ∧ (w.take p).told = w.told ++ p.entries := by
  obtain ⟨speaker, hbeep⟩ := w.foldl_beep p.pulses
  obtain ⟨hrequests, hentries⟩ := (p.pulses.foldl beep w).foldl_call p.calls
  constructor
  · change (p.calls.foldl call (p.pulses.foldl beep w)).requests = _
    rw [hrequests, hbeep]
    rfl
  · change (p.entries.reverse ++ (p.calls.foldl call (p.pulses.foldl beep w)).entries).reverse = _
    rw [hentries, hbeep]
    simp [told]

end State

lemma taken_world (s : Session) (w : State) :
    world.taken s w = w.take (world.turn s w).pass := rfl

/-- Between two passes nothing goes on record. -/
lemma rested_world (s : Session) (w : State) :
    world.rested s w =
      let w' := world.taken s w
      let wait := (world.turn s w).pass.session.schedule.wait w'.clock
      if 0 < wait then { w' with clock := w'.clock+wait } else w' := rfl

lemma record_rested (s : Session) (w : State) :
    (world.rested s w).requests = (world.taken s w).requests ∧
      (world.rested s w).told = (world.taken s w).told := by
  rw [rested_world]
  dsimp only
  split <;> exact ⟨rfl, rfl⟩

/-- A run puts its passes on record, one after the other. -/
theorem record_run (n : Nat) (s : Session) (w : State) :
    let after := (s.run world n w).2.2
    let passes := (s.turns world n w).map Turn.pass
    after.requests = w.requests ++ passes.flatMap Pass.calls ∧
      after.told = w.told ++ passes.flatMap Pass.entries := by
  induction n generalizing s w with
  | zero => simp [run, turns]
  | succ n ih =>
    cases hrunning : s.pane.isRunning with
    | false => simp [run, turns, hrunning]
    | true =>
      obtain ⟨hrequests, htold⟩ := w.record_take (world.turn s w).pass
      rw [← taken_world] at hrequests htold
      rw [run_succ _ _ _ hrunning, turns_succ _ _ _ hrunning]
      cases (world.turn s w).pass.result with
      | error why => simp [hrequests, htold]
      | ok _ =>
        obtain ⟨hrequests', htold'⟩ := record_rested s w
        obtain ⟨ihrequests, ihtold⟩ := ih (world.turn s w).pass.session (world.rested s w)
        simp [ihrequests, ihtold, hrequests', htold', hrequests, htold]

/-! ### The end -/

/-- Both paces go on, and the next timer step is at most a period away. -/
structure Near (s : Session) (w : State) : Prop where
  instructions : 0 < s.schedule.instructions.period
  timerSteps : s.schedule.timerSteps.period = 16666666
  next_le : s.schedule.timerSteps.next ≤ w.clock+16666666

/-- More passes than a run still makes: one for each nanosecond up to the next timer step and in a
period for each frame, one that closes the window, and one that finds it closed. -/
def left (s : Session) (w : State) : Nat :=
  (s.schedule.timerSteps.next-w.clock)+w.frames.length*16666667+2

section Turn

variable {s : Session} {w : State}

/-- A report of an open window comes from a frame that leaves it open. -/
lemma closes_of_answer {report : Report} (h : world.answer w = .ok report)
    (hopen : report.isOpen = true) : w.frame.closes = false := by
  change (w.window.update w.frame).1 = .ok report at h
  simp only [Window.update] at h
  split at h
  · cases h
  · obtain rfl := Except.ok.inj h
    simp_all

/-- A pass that does not fail leaves the script as it is, unless a timer step is due: then it plays
the next frame. -/
lemma taken_of_ok (hok : (world.turn s w).pass.result = .ok ()) :
    (world.turn s w).pass.session.schedule = s.schedule.after [w.clock] [w.clock] ∧
    if (s.schedule.timerSteps.grant w.clock).1 = 0 then
      (world.taken s w).clock = w.clock ∧ (world.taken s w).frames = w.frames
    else
      w.clock ≤ (world.taken s w).clock ∧ (world.taken s w).frames = w.frames.tail ∧
        ((world.turn s w).pass.session.pane.isRunning = true → w.frame.closes = false) := by
  have hpass : (world.turn s w).pass = s.pass w.clock (world.answer w) := rfl
  rw [taken_world]
  rw [hpass] at hok ⊢
  cases hr : (s.catchUp w.clock).result with
  | error why =>
    simp only [Session.catchUp] at hr
    simp [Session.pass, hr] at hok
  | ok work =>
    obtain ⟨rfl, hschedule⟩ := Console.asked_of_catchUp hr
    split
    · rename_i hidle
      have hnone (work' : Work) (hr' : (s.catchUp w.clock).result = .ok work') :
          work'.timerSteps = 0 := by
        rwa [← Except.ok.inj (hr.symm.trans hr')]
      obtain ⟨hcalls, -, hsession⟩ := pass_of_idle hnone (world.answer w)
      refine ⟨?_, w.take_of_ne_update (by simp [hcalls])⟩
      rw [hsession]
      exact hschedule
    · rename_i hdue
      obtain ⟨hsession, hresult, hcalls, -⟩ := pass_of_due hr hdue (world.answer w)
      obtain ⟨_, _, _, hpresent⟩ := (s.caughtUp w.clock).present_eq (world.answer w)
      have htitles : ∀ picture, WindowCall.update picture ∉
          (if (s.caughtUp w.clock).debug then [.setTitle (s.caughtUp w.clock).statusTitle]
            else []) := by
        intro picture
        split <;> simp
      obtain ⟨hclock, hframes⟩ := w.take_of_update (hcalls.trans (by rw [hpresent])) htitles
      rw [hsession, hclock, hframes]
      cases hanswer : world.answer w with
      | error fault =>
        rw [hresult, hanswer] at hok
        simp [Session.present] at hok
      | ok report =>
        obtain ⟨-, hkept, hrunning⟩ := (s.caughtUp w.clock).present_ok report
        refine ⟨hkept.trans hschedule, Nat.le_add_right _ _, rfl, fun h => ?_⟩
        rw [hrunning] at h
        exact closes_of_answer hanswer (Bool.and_elim_left h)

lemma rested_eq (s : Session) (w : State) :
    let wait := (world.turn s w).pass.session.schedule.wait (world.taken s w).clock
    (world.rested s w).frames = (world.taken s w).frames ∧
      (world.rested s w).clock = (world.taken s w).clock+wait := by
  rw [rested_world]
  dsimp only
  split
  · exact ⟨rfl, rfl⟩
  · exact ⟨rfl, by omega⟩

lemma near_turn (h : Near s w) (hok : (world.turn s w).pass.result = .ok ()) :
    Near (world.turn s w).pass.session (world.rested s w) := by
  obtain ⟨hschedule, htaken⟩ := taken_of_ok hok
  obtain ⟨-, hclock⟩ := rested_eq s w
  have hp : 0 < s.schedule.timerSteps.period := by rw [h.timerSteps]; decide
  have hle : w.clock ≤ (world.taken s w).clock := by
    split at htaken
    · exact Nat.le_of_eq htaken.1.symm
    · exact htaken.1
  have hnext : (s.schedule.after [w.clock] [w.clock]).timerSteps.next ≤
      max s.schedule.timerSteps.next (w.clock+s.schedule.timerSteps.period) :=
    Pace.next_grant_le hp w.clock
  rw [h.timerSteps, Nat.max_eq_right h.next_le] at hnext
  constructor <;> rw [hschedule]
  · exact h.instructions
  · exact h.timerSteps
  · omega

/-- A pass brings the end closer. Without a timer step it sleeps, but no longer than to the next
one; otherwise it plays a frame, and the one after the last closes the window. -/
lemma left_turn (h : Near s w) (hok : (world.turn s w).pass.result = .ok ())
    (hrunning : (world.turn s w).pass.session.pane.isRunning = true) :
    left (world.turn s w).pass.session (world.rested s w) < left s w := by
  obtain ⟨hschedule, htaken⟩ := taken_of_ok hok
  obtain ⟨hframes, hclock⟩ := rested_eq s w
  have hp : 0 < s.schedule.timerSteps.period := by rw [h.timerSteps]; decide
  by_cases hdue : (s.schedule.timerSteps.grant w.clock).1 = 0
  · rw [if_pos hdue] at htaken
    obtain ⟨hclock', hframes'⟩ := htaken
    have hlt : w.clock < s.schedule.timerSteps.next :=
      Nat.lt_of_not_le fun hle => Nat.ne_of_gt (Pace.grant_pos hp hle) hdue
    have hkept : (s.schedule.after [w.clock] [w.clock]).timerSteps = s.schedule.timerSteps :=
      congrArg Prod.snd (Pace.grant_of_lt hlt)
    have hpos := Schedule.wait_pos h.instructions hp w.clock
    rw [hschedule, hclock'] at hclock
    simp only [left, hschedule, hkept, hframes, hframes', hclock]
    omega
  · rw [if_neg hdue] at htaken
    obtain ⟨hclock', hframes', hcloses⟩ := htaken
    have hsome : w.frames ≠ [] := by
      intro hnil
      have hopen := hcloses hrunning
      rw [State.frame, hnil] at hopen
      cases hopen
    have hlength := List.length_pos_iff.2 hsome
    have hnear := (near_turn h hok).next_le
    simp only [left, hframes, hframes', List.length_tail]
    omega

end Turn

/-- A run with enough passes comes to an end. -/
theorem run_ends {n : Nat} {s : Session} {w : State} (h : Near s w) (hn : left s w ≤ n) :
    (s.run world n w).1 ≠ .unfinished := by
  have htwo (s : Session) (w : State) : 2 ≤ left s w := Nat.le_add_left 2 _
  induction n generalizing s w with
  | zero => exact absurd (htwo s w) (by omega)
  | succ n ih =>
    cases hrunning : s.pane.isRunning with
    | false => simp [run, hrunning]
    | true =>
      rw [run_succ _ _ _ hrunning]
      cases hr : (world.turn s w).pass.result with
      | error why => simp
      | ok _ =>
        cases hnext : (world.turn s w).pass.session.pane.isRunning with
        | true =>
          have hless := left_turn h hr hnext
          exact ih (near_turn h hr) (by omega)
        | false =>
          -- the next pass is not made, but the run has to get that far
          obtain ⟨k, rfl⟩ : ∃ k, n = k+1 := ⟨n-1, by have := htwo s w; omega⟩
          simp [run, hnext]

/-! ### From beginning to end -/

section Play

variable {n : Nat} {script : Scenario} {settings : Settings} {traced : Bool}

/-- The turns of a session that is played. -/
def turnsOf (n : Nat) (script : Scenario) (settings : Settings) (traced : Bool) : List Turn :=
  let opening := start settings traced script.setting
  match opening.result with
  | .error _ => []
  | .ok s => s.turns world n (script.begin opening)

lemma record_begin (script : Scenario) (opening : Opening) :
    (script.begin opening).requests = opening.calls ∧
      (script.begin opening).told = opening.entries := by
  unfold Scenario.begin
  obtain ⟨hrequests, hentries⟩ := State.foldl_call
    ⟨0, script.frames, .new, opening.speaker, [], [], none⟩ opening.calls
  constructor
  · exact hrequests
  · simp only [State.told, State.tell, hentries, List.append_nil, List.reverse_reverse]

/-- A session that is played puts on record what it asked for and told when it started and at each
of its turns, in this order, and nothing else. -/
theorem record_play (n : Nat) (script : Scenario) (settings : Settings) (traced : Bool) :
    let opening := start settings traced script.setting
    let passes := (turnsOf n script settings traced).map Turn.pass
    let after := (play n script settings traced).2
    after.requests = opening.calls ++ passes.flatMap Pass.calls ∧
      after.told = opening.entries ++ passes.flatMap Pass.entries := by
  obtain ⟨hrequests, htold⟩ := record_begin script (start settings traced script.setting)
  cases h : (start settings traced script.setting).result with
  | error why =>
    simp only [play, turnsOf, h, List.map_nil, List.flatMap_nil, List.append_nil]
    exact ⟨hrequests, htold⟩
  | ok s =>
    obtain ⟨hcalls, hentries⟩ := record_run n s
      (script.begin (start settings traced script.setting))
    simp only [play, turnsOf, h]
    rw [hcalls, hentries, hrequests, htold]
    exact ⟨rfl, rfl⟩

/-- An opening updates nothing. -/
lemma update_not_mem_start (settings : Settings) (traced : Bool) (setting : Setting)
    (picture : Array UInt32) : .update picture ∉ (start settings traced setting).calls := by
  have hcreation (title : String) (scale : Scale) :
      .update picture ∉ Pane.creation title scale :: Pane.setup := by
    simp [Pane.creation, Pane.setup]
  simp only [start]
  split
  · simp
  · split
    · split <;> exact hcreation _ _
    · simp [Pane.creation]

/-- Every picture on record was the screen of the machine at one of the turns. -/
theorem shows_of_play {picture : Array UInt32}
    (h : .update picture ∈ (play n script settings traced).2.requests) :
    ∃ t ∈ turnsOf n script settings traced,
      Picture.Shows picture t.machine.display.screen := by
  rw [(record_play n script settings traced).1, List.mem_append, List.flatMap_map,
    List.mem_flatMap] at h
  obtain hstart | ⟨t, ht, hupdate⟩ := h
  · exact absurd hstart (update_not_mem_start _ _ _ picture)
  refine ⟨t, ht, ?_⟩
  simp only [turnsOf] at ht
  cases hstart : (start settings traced script.setting).result with
  | error why => simp [hstart] at ht
  | ok s =>
    rw [hstart] at ht
    obtain ⟨older, newer, hturns⟩ := List.append_of_mem ht
    exact (current_of_turns (current_of_start hstart) hturns).update_shows hupdate

lemma frames_begin :
    (script.begin (start settings traced script.setting)).frames = script.frames :=
  (State.foldl_call_of_ne_update ⟨0, script.frames, .new, _, [], [], none⟩
    (update_not_mem_start settings traced script.setting)).2

/-- A session that is played comes to an end, at every rate at which instructions take time: its
window is closed, or it fails. -/
theorem play_ends (script : Scenario) (traced : Bool) (h : settings.ips.toNat ≤ 1000000000)
    (hn : script.passes ≤ n) : (play n script settings traced).1 ≠ .unfinished := by
  cases hstart : (start settings traced script.setting).result with
  | error why => simp [play, hstart]
  | ok s =>
    obtain ⟨rom, m, -, -, -, rfl⟩ := start_eq_ok_iff.mp hstart
    have hrate : (max settings.ips 1).toNat ≤ 1000000000 := by
      rw [UInt32.toNat_max]
      exact Nat.max_le.mpr ⟨h, by decide⟩
    have hnext : (Schedule.new (max settings.ips 1) 0).timerSteps.next = 16666666 := rfl
    simp only [play, hstart]
    refine run_ends ⟨Schedule.instruction_period_pos hrate _, rfl, ?_⟩ (Nat.le_trans ?_ hn)
    · change (Schedule.new (max settings.ips 1) 0).timerSteps.next ≤ _
      rw [hnext]
      exact Nat.le_add_left _ _
    · change (Schedule.new (max settings.ips 1) 0).timerSteps.next-_+_*_+2 ≤ _
      rw [hnext, frames_begin, Scenario.passes]
      omega

end Play

end Script
end Chip8
