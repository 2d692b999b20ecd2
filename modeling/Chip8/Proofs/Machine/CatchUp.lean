import Chip8.Proofs.Machine.Boot
import Chip8.Proofs.Machine.Command
import Chip8.Proofs.Schedule

/-! Catching up is serving single requests: as many instructions as are due, one after another, each
with the keys it finds, and then the timer steps that are due. An instruction that fails ends it
there and then. A machine that has caught up has nothing to do until its wait is over, and something
to do as soon as it is. -/
namespace Chip8

/-- The single requests that are due: the instructions, then the timer steps. -/
def Schedule.requests {σ : Type} (s : Schedule) (now : Nat) : List (Request σ) :=
  List.replicate (s.instructions.grant now).1 .tick ++
    List.replicate (s.timerSteps.grant now).1 .pulse

namespace Console

variable {σ : Type} {ask : σ → Keypad × σ} {c : Console σ} {n j : Nat} {why : Halt}

/-- A console after some single instructions, whatever came of them. -/
def ticked (ask : σ → Keypad × σ) (c : Console σ) (n : Nat) : Console σ :=
  (c.serveAll ask (List.replicate n .tick)).console

/-- The first `n` instructions from here on all succeed. -/
def Succeeds (ask : σ → Keypad × σ) (c : Console σ) (n : Nat) : Prop :=
  ∀ j < n, ((c.ticked ask j).step ask).2 = .ok ()

/-- After `j` instructions that succeed comes one that fails. -/
def FailsAfter (ask : σ → Keypad × σ) (c : Console σ) (j : Nat) (why : Halt) : Prop :=
  c.Succeeds ask j ∧ ((c.ticked ask j).step ask).2 = .error why

lemma ticked_succ (n : Nat) : c.ticked ask (n+1) = (c.step ask).1.ticked ask n := rfl

lemma ticked_succ_last (n : Nat) : c.ticked ask (n+1) = ((c.ticked ask n).step ask).1 := by
  rw [ticked, List.replicate_succ', serveAll_append]
  rfl

lemma succeeds_succ :
    c.Succeeds ask (n+1) ↔ (c.step ask).2 = .ok () ∧ (c.step ask).1.Succeeds ask n := by
  constructor
  · intro h
    exact ⟨h 0 (Nat.succ_pos n), fun j hj => h (j+1) (Nat.succ_lt_succ hj)⟩
  · rintro ⟨hfirst, hlater⟩ (_ | j) hj
    · exact hfirst
    · exact hlater j (Nat.lt_of_succ_lt_succ hj)

/-- Of some instructions either all succeed or there is a first one that fails. -/
lemma succeeds_or_failsAfter (ask : σ → Keypad × σ) (c : Console σ) (n : Nat) :
    c.Succeeds ask n ∨ ∃ j < n, ∃ why, c.FailsAfter ask j why := by
  induction n with
  | zero => exact .inl nofun
  | succ n ih =>
    rcases ih with h | ⟨j, hj, why, hfails⟩
    · cases hr : ((c.ticked ask n).step ask).2 with
      | error why => exact .inr ⟨n, Nat.lt_succ_self n, why, h, hr⟩
      | ok _ =>
        refine .inl fun j hj => ?_
        rcases Nat.lt_succ_iff_lt_or_eq.mp hj with hj | rfl
        · exact h j hj
        · exact hr
    · exact .inr ⟨j, Nat.lt_succ_of_lt hj, why, hfails⟩

/-! ### Rows of instructions and of timer steps -/

/-- Instructions that succeed are left behind one by one. -/
lemma stepsFrom_add (h : c.Succeeds ask j) (n ran : Nat) :
    stepsFrom ask (j+n) ran c = stepsFrom ask n (ran+j) (c.ticked ask j) := by
  -- the console and the counter go along: the row goes on from where its first one leaves it
  induction j generalizing c ran with
  | zero =>
    rw [Nat.zero_add]
    rfl
  | succ j ih =>
    obtain ⟨hfirst, hlater⟩ := succeeds_succ.mp h
    rw [Nat.add_right_comm, stepsFrom_succ, hfirst]
    dsimp only
    rw [ih hlater, Nat.add_assoc ran, Nat.add_comm 1, ticked_succ]

lemma steps_of_succeeds (h : c.Succeeds ask n) : c.steps ask n = ⟨c.ticked ask n, .ok (), n⟩ := by
  have hrow := stepsFrom_add h 0 0
  rwa [Nat.zero_add] at hrow

lemma steps_of_failsAfter (h : c.FailsAfter ask j why) (hj : j < n) :
    c.steps ask n = ⟨c.ticked ask (j+1), .error why, j⟩ := by
  obtain ⟨n, rfl⟩ : ∃ k, n = j+(k+1) := ⟨n-j-1, by omega⟩
  obtain ⟨hbefore, hfails⟩ := h
  rw [steps, stepsFrom_add hbefore, stepsFrom_succ, hfails, ticked_succ_last, Nat.zero_add]

lemma pulses_serveAll_tick (n : Nat) : (c.serveAll ask (List.replicate n .tick)).pulses = [] := by
  induction n generalizing c with
  | zero => rfl
  | succ n ih => exact ih

lemma serveAll_pulse (n : Nat) :
    c.serveAll ask (List.replicate n .pulse) =
      ⟨⟨(c.machine.pulses n).1, c.pad⟩, [], (c.machine.pulses n).2⟩ := by
  induction n generalizing c with
  | zero => rfl
  | succ n ih =>
    rw [List.replicate_succ, serveAll, ih]
    rfl

/-! ### Catching up -/

section CatchUp

variable {schedule : Schedule} {now : Nat}

lemma catchUp_of_succeeds (h : c.Succeeds ask (schedule.instructions.grant now).1) :
    let due := schedule.instructions.grant now
    let timerDue := schedule.timerSteps.grant now
    let single := c.serveAll ask (schedule.requests now)
    c.catchUp ask schedule now =
      ⟨single.console, ⟨due.2, timerDue.2⟩, .ok ⟨due.1, timerDue.1⟩, single.pulses⟩ := by
  intro due timerDue single
  have hsteps := steps_of_succeeds h
  have hsingle : single = _ := serveAll_append ask c _ _
  rw [catchUp_of_ok (by rw [hsteps]), hsingle]
  simp only [hsteps, pulses_serveAll_tick, serveAll_pulse, List.nil_append]
  rfl

lemma catchUp_of_failsAfter (h : c.FailsAfter ask j why)
    (hj : j < (schedule.instructions.grant now).1) :
    c.catchUp ask schedule now =
      ⟨c.ticked ask (j+1), { schedule with instructions := (schedule.instructions.grant now).2 },
        .error why, []⟩ := by
  have hsteps := steps_of_failsAfter h hj
  rw [catchUp_of_error (by rw [hsteps])]
  simp only [hsteps]

/-- Catching up fails with the first instruction that does, and nothing comes after that. -/
lemma failsAfter_of_catchUp (h : (c.catchUp ask schedule now).result = .error why) :
    ∃ j < (schedule.instructions.grant now).1, c.FailsAfter ask j why ∧
      c.catchUp ask schedule now =
        ⟨c.ticked ask (j+1), { schedule with instructions := (schedule.instructions.grant now).2 },
          .error why, []⟩ := by
  rcases c.succeeds_or_failsAfter ask (schedule.instructions.grant now).1 with
    hs | ⟨j, hj, cause, hf⟩
  · rw [catchUp_of_succeeds hs] at h
    cases h
  · have hup := catchUp_of_failsAfter hf hj
    rw [hup] at h
    obtain rfl : cause = why := Except.error.inj h
    exact ⟨j, hj, hf, hup⟩

/-- Catching up is serving single requests. Of the instructions that are due either all succeed or
there is a first one that fails. In the one case it comes to these instructions and then the timer
steps that are due: machine, pad and all that is handed out are as after them, and both paces have
been asked once. In the other it comes to the instructions up to and with the one that fails and
reports its failure: nothing is handed out, the pace of the timer steps has not been asked, and the
other pace has left all the instructions behind it that were due. -/
theorem catchUp_eq_single_requests (ask : σ → Keypad × σ) (c : Console σ) (schedule : Schedule)
    (now : Nat) :
    let due := schedule.instructions.grant now
    let timerDue := schedule.timerSteps.grant now
    let single := c.serveAll ask (schedule.requests now)
    (c.Succeeds ask due.1 ∨ ∃ j < due.1, ∃ why, c.FailsAfter ask j why) ∧
    (c.Succeeds ask due.1 →
      c.catchUp ask schedule now =
        ⟨single.console, ⟨due.2, timerDue.2⟩, .ok ⟨due.1, timerDue.1⟩, single.pulses⟩) ∧
    ∀ j < due.1, ∀ why, c.FailsAfter ask j why →
      c.catchUp ask schedule now =
        ⟨c.ticked ask (j+1), { schedule with instructions := due.2 }, .error why, []⟩ :=
  ⟨c.succeeds_or_failsAfter ask _, catchUp_of_succeeds, fun _ hj _ h => catchUp_of_failsAfter h hj⟩

/-- A pad that holds another key at every question, and a program that asks it twice whether the key
0 is held: the first answer skips an instruction and the second does not. A third instruction is due
another sixtieth of a second later, which fails, and no timer step is taken. -/
theorem catchUp_eq_single_requests_other_keys :
    let ask : Nat → Keypad × Nat := fun n => (.ofList [n.toUInt8], n+1)
    let schedule := Schedule.new 60 0
    let why : Halt := .error (.unknownOpcode ⟨0⟩ 0x206)
    ∃ m, Machine.boot Font.glyphs #[0xE0,0x9E,0x00,0x00,0xE0,0x9E,0x00,0x00] (.ofSeed 0) = .ok m ∧
      let c : Console Nat := ⟨m, 0⟩
      let done := c.catchUp ask schedule 33333332
      let failed := c.catchUp ask schedule 49999998
      c.Succeeds ask 2 ∧ c.FailsAfter ask 2 why ∧
      done.result = .ok ⟨2,2⟩ ∧ done.machine.pc = 0x206 ∧ done.pad = 2 ∧ done.pulses.length = 2 ∧
      failed.result = .error why ∧ failed.machine.pc = 0x206 ∧ failed.pad = 2 ∧
      failed.pulses = [] ∧ failed.schedule.timerSteps = schedule.timerSteps ∧
      failed.schedule.instructions.next = 66666664 := by
  intro ask schedule why
  -- of the machine only these facts are kept, so that nothing below unfolds its memory
  obtain ⟨m, hboot, hm, hpc, hzero⟩ : ∃ m,
      Machine.boot Font.glyphs #[0xE0,0x9E,0x00,0x00,0xE0,0x9E,0x00,0x00] (.ofSeed 0) = .ok m ∧
        m.memory = .loaded Font.glyphs #[0xE0,0x9E,0x00,0x00,0xE0,0x9E,0x00,0x00] ∧
          m.pc = 0x200 ∧ m.reg 0 = 0 :=
    ⟨_, Machine.boot_eq_ok_iff.mpr ⟨by decide, by decide, rfl⟩, rfl, by decide, by decide⟩
  let skipped : Machine := m.advance.advance
  let passed : Machine := skipped.advance
  have hpc' : skipped.pc = 0x204 := by
    change Machine.wrap (Machine.wrap (m.pc+2)+2) = 0x204
    rw [hpc]
    decide
  have hpc'' : passed.pc = 0x206 := by
    change Machine.wrap (skipped.pc+2) = 0x206
    rw [hpc']
    decide
  have hi : m.instruction? = some (.skipHeld 0) :=
    Machine.instruction?_of_loaded (k := 0) hm (by rw [hpc]; rfl) (by decide) rfl rfl rfl
  have hi' : skipped.instruction? = some (.skipHeld 0) :=
    Machine.instruction?_of_loaded (m := skipped) (k := 4) hm (by rw [hpc']; rfl) (by decide)
      rfl rfl rfl
  have hi'' : passed.instruction? = none :=
    Machine.instruction?_of_loaded (m := passed) (k := 6) hm (by rw [hpc'']; rfl) (by decide)
      rfl rfl rfl
  have hf : passed.fetch = ⟨0⟩ :=
    Machine.fetch_of_loaded (m := passed) (k := 6) hm (by rw [hpc'']; rfl) (by decide) rfl rfl
  have hreg : m.advance.reg 0 = 0 := hzero
  have hreg' : skipped.advance.reg 0 = 0 := hzero
  let c : Console Nat := ⟨m, 0⟩
  have hs : c.step ask = (⟨skipped, 1⟩, .ok ()) := by
    have hheld : (Keypad.ofList [(0 : UInt8)]).isHeld 0 = true := by decide
    simp only [step, c, ask, Machine.step_of_some hi, Machine.execute, hreg]
    change ((⟨m.advance.skipIf ((Keypad.ofList [(0 : UInt8)]).isHeld 0), 1⟩ : Console Nat), _) = _
    rw [hheld]
    rfl
  have hs' : step ask ⟨skipped, 1⟩ = (⟨passed, 2⟩, .ok ()) := by
    have hheld : (Keypad.ofList [(1 : UInt8)]).isHeld 0 = false := by decide
    simp only [step, ask, Machine.step_of_some hi', Machine.execute, hreg']
    change
      ((⟨skipped.advance.skipIf ((Keypad.ofList [(1 : UInt8)]).isHeld 0), 2⟩ : Console Nat), _) = _
    rw [hheld]
    rfl
  have hs'' : step ask ⟨passed, 2⟩ = (⟨passed, 2⟩, .error why) := by
    simp only [step, Machine.step_of_none hi'', hf, hpc'']
    rfl
  have hone : c.ticked ask 1 = ⟨skipped, 1⟩ := congrArg Prod.fst hs
  have htwo : c.ticked ask 2 = ⟨passed, 2⟩ := by rw [ticked_succ_last, hone, hs']
  have hthree : c.ticked ask 3 = ⟨passed, 2⟩ := by rw [ticked_succ_last, htwo, hs'']
  have hsucceeds : c.Succeeds ask 2 := by
    intro j hj
    obtain rfl | rfl : j = 0 ∨ j = 1 := by omega
    · exact congrArg Prod.snd hs
    · rw [hone, hs']
  have hfails : c.FailsAfter ask 2 why := by
    refine ⟨hsucceeds, ?_⟩
    rw [htwo, hs'']
  have hdue : (schedule.instructions.grant 33333332).1 = 2 := by decide
  have htimer : (schedule.timerSteps.grant 33333332).1 = 2 := by decide
  have hdue' : (schedule.instructions.grant 49999998).1 = 3 := by decide
  have hnext : (schedule.instructions.grant 49999998).2.next = 66666664 := by decide
  obtain ⟨-, hok, -⟩ := catchUp_eq_single_requests ask c schedule 33333332
  obtain ⟨-, -, herror⟩ := catchUp_eq_single_requests ask c schedule 49999998
  have hok := hok (by rw [hdue]; exact hsucceeds)
  have herror := herror 2 (by rw [hdue']; decide) why hfails
  have hsingle : c.serveAll ask (schedule.requests 33333332) =
      ⟨⟨passed.pulse.1.pulse.1, 2⟩, [.slot (.ok ()), .slot (.ok ())],
        [passed.pulse.2, passed.pulse.1.pulse.2]⟩ := by
    rw [Schedule.requests, hdue, htimer]
    simp only [List.replicate, serveAll, serve, hs, hs', List.cons_append, List.nil_append]
  rw [hsingle, hdue, htimer] at hok
  rw [hthree] at herror
  refine ⟨m, hboot, hsucceeds, hfails, ?_⟩
  rw [hok, herror]
  dsimp only
  exact ⟨rfl, hpc'', rfl, rfl, rfl, hpc'', rfl, rfl, rfl, hnext⟩

/-! ### Waiting -/

lemma catchUp_of_lt (h : now < schedule.instructions.next) (ht : now < schedule.timerSteps.next) :
    c.catchUp ask schedule now = ⟨c, schedule, .ok ⟨0, 0⟩, []⟩ := by
  have hdue := Pace.grant_of_lt h
  have htimer := Pace.grant_of_lt ht
  rw [catchUp_of_ok (by rw [hdue]; rfl), hdue, htimer]
  rfl

/-- Catching up that succeeds asks both paces and reports what they granted. -/
lemma asked_of_catchUp {work : Work} (h : (c.catchUp ask schedule now).result = .ok work) :
    work = ⟨(schedule.instructions.grant now).1, (schedule.timerSteps.grant now).1⟩ ∧
      (c.catchUp ask schedule now).schedule = schedule.after [now] [now] := by
  rcases c.succeeds_or_failsAfter ask (schedule.instructions.grant now).1 with
    hs | ⟨j, hj, why, hf⟩
  · rw [catchUp_of_succeeds hs] at h ⊢
    exact ⟨(Except.ok.inj h).symm, rfl⟩
  · rw [catchUp_of_failsAfter hf hj] at h
    cases h

/-- A machine that has caught up with a schedule neither spins nor oversleeps. There is something to
wait for; until the wait is over, catching up again does nothing at all; and as soon as it is over,
an instruction or a timer step is due, so that catching up serves a request at least, unless one of
its instructions fails. In the meantime the pad may have come to hold other keys. -/
theorem wait_exact (ask : σ → Keypad × σ) {c : Console σ} {ips : UInt32}
    (hips : ips.toNat ≤ 1000000000) {start : Nat} {times timerTimes : List Nat} {work : Work}
    (h : (c.catchUp ask ((Schedule.new ips start).after times timerTimes) now).result =
      .ok work) :
    let done := c.catchUp ask ((Schedule.new ips start).after times timerTimes) now
    let wait := done.schedule.wait now
    0 < wait ∧
    (∀ t < now+wait, ∀ pad,
      catchUp ask ⟨done.machine, pad⟩ done.schedule t =
        ⟨⟨done.machine, pad⟩, done.schedule, .ok ⟨0, 0⟩, []⟩) ∧
    ∀ pad, let found : Console σ := ⟨done.machine, pad⟩
      let due := done.schedule.instructions.grant (now+wait)
      let timerDue := done.schedule.timerSteps.grant (now+wait)
      let single := found.serveAll ask (done.schedule.requests (now+wait))
      let next := found.catchUp ask done.schedule (now+wait)
      (0 < due.1 ∨ 0 < timerDue.1) ∧
      ((found.Succeeds ask due.1 ∧
        next =
          ⟨single.console, ⟨due.2, timerDue.2⟩, .ok ⟨due.1, timerDue.1⟩, single.pulses⟩) ∨
      ∃ j < due.1, ∃ why, found.FailsAfter ask j why ∧
        next =
          ⟨found.ticked ask (j+1), { done.schedule with instructions := due.2 }, .error why,
            []⟩) := by
  intro done wait
  obtain ⟨hi, ht⟩ := Schedule.period_pos_after hips start times timerTimes
  have hasked : done.schedule = _ := (asked_of_catchUp h).2
  have hwait : 0 < wait := by
    have hpos := Schedule.wait_pos hi ht now
    rwa [← hasked] at hpos
  refine ⟨hwait, fun t hlt pad => ?_, fun pad => ?_⟩
  · obtain ⟨hnext, htimer⟩ := Schedule.lt_next_of_lt_wait hwait hlt
    exact catchUp_of_lt hnext htimer
  intro found due timerDue single next
  have hi' : 0 < done.schedule.instructions.period := by rwa [hasked]
  have ht' : 0 < done.schedule.timerSteps.period := by rwa [hasked]
  refine ⟨(Schedule.next_le_of_wait hwait).imp (Pace.grant_pos hi') (Pace.grant_pos ht'), ?_⟩
  rcases found.succeeds_or_failsAfter ask due.1 with hs | ⟨j, hj, why, hf⟩
  · exact .inl ⟨hs, catchUp_of_succeeds hs⟩
  · exact .inr ⟨j, hj, why, hf, catchUp_of_failsAfter hf hj⟩

/-- After a stall of five seconds, in a program that waits for a key. What was missed is dropped; as
soon as an instruction and a timer step are due again, the key pressed meanwhile is read. -/
theorem wait_exact_after_stall :
    let ask : Nat → Keypad × Nat := fun n => (.ofList [n.toUInt8], n+1)
    let schedule := (Schedule.new 60 0).after [5000000000] [5000000000]
    ∃ m, Machine.boot Font.glyphs #[0xF3,0x0A] (.ofSeed 0) = .ok m ∧
      let done := catchUp ask ⟨m, 0⟩ schedule 5000500000
      let next := catchUp ask ⟨done.machine, 7⟩ done.schedule 5016666666
      (60 : UInt32).toNat ≤ 1000000000 ∧ done.result = .ok ⟨0,0⟩ ∧
      done.schedule.wait 5000500000 = 16166666 ∧
      catchUp ask ⟨done.machine, 7⟩ done.schedule 5016666665 =
        ⟨⟨done.machine, 7⟩, done.schedule, .ok ⟨0, 0⟩, []⟩ ∧
      next.result = .ok ⟨1,1⟩ ∧ next.machine.reg 3 = 7 ∧ next.pad = 8 ∧
      next.pulses.length = 1 := by
  intro ask schedule
  obtain ⟨m, hboot, hm, hpc⟩ : ∃ m, Machine.boot Font.glyphs #[0xF3,0x0A] (.ofSeed 0) = .ok m ∧
      m.memory = .loaded Font.glyphs #[0xF3,0x0A] ∧ m.pc = 0x200 :=
    ⟨_, Machine.boot_eq_ok_iff.mpr ⟨by decide, by decide, rfl⟩, rfl, by decide⟩
  have hi : m.instruction? = some (.awaitKey 3) :=
    Machine.instruction?_of_loaded (k := 0) hm (by rw [hpc]; rfl) (by decide) rfl rfl rfl
  let read : Machine := m.advance.setReg 3 7
  have hs : step ask ⟨m, 7⟩ = (⟨read, 8⟩, .ok ()) := by
    have hfirst : (Keypad.ofList [Nat.toUInt8 7]).first? = some 7 := by decide
    simp only [step, ask, Machine.step_of_some hi, Machine.execute, hfirst]
    rfl
  have hsucceeds : Succeeds ask ⟨m, 7⟩ 1 := by
    intro j hj
    obtain rfl : j = 0 := by omega
    exact congrArg Prod.snd hs
  refine ⟨m, hboot, ?_⟩
  intro done next
  have hidle : done = ⟨⟨m, 0⟩, schedule, .ok ⟨0, 0⟩, []⟩ := catchUp_of_lt (by decide) (by decide)
  have hips : (60 : UInt32).toNat ≤ 1000000000 := by decide
  have hok : done.result = .ok ⟨0,0⟩ := by rw [hidle]
  have hwait : done.schedule.wait 5000500000 = 16166666 := by
    rw [hidle]
    change schedule.wait 5000500000 = 16166666
    decide
  have hover : 5000500000+done.schedule.wait 5000500000 = 5016666666 := by rw [hwait]
  obtain ⟨-, hbefore, hafter⟩ := wait_exact ask hips hok
  obtain ⟨-, hnext⟩ := hafter 7
  rw [hover, show catchUp ask ⟨m, 0⟩ _ 5000500000 = _ from hidle] at hnext
  have hdue : (schedule.instructions.grant 5016666666).1 = 1 := by decide
  have htimer : (schedule.timerSteps.grant 5016666666).1 = 1 := by decide
  have hsingle : serveAll ask ⟨m, 7⟩ (schedule.requests 5016666666) =
      ⟨⟨read.pulse.1, 8⟩, [.slot (.ok ())], [read.pulse.2]⟩ := by
    rw [Schedule.requests, hdue, htimer]
    simp only [List.replicate, serveAll, serve, hs, List.cons_append, List.nil_append]
  have hreg : read.pulse.1.reg 3 = 7 := by
    change (m.registers.set 3 7).get 3 = 7
    rw [RegisterFile.get_set, if_pos rfl]
  have hnext' : next = catchUp ask ⟨m, 7⟩ schedule 5016666666 := by
    change catchUp ask ⟨done.machine, 7⟩ done.schedule 5016666666 = _
    rw [hidle]
  refine ⟨hips, hok, hwait, hbefore 5016666665 ?_ 7, ?_⟩
  · rw [hover]
    decide
  · rcases hnext with ⟨-, hnext⟩ | ⟨j, hj, why, hf, -⟩
    · dsimp only at hnext
      rw [hnext', hnext, hsingle, hdue, htimer]
      exact ⟨rfl, hreg, rfl, rfl⟩
    · dsimp only at hj hf
      rw [hdue] at hj
      obtain rfl : j = 0 := by omega
      have hsame := hsucceeds 0 Nat.one_pos
      rw [hf.2] at hsame
      cases hsame

end CatchUp
end Console

/-! ### With the same keys all the while -/

/-- Instructions in a row, whatever comes of them. -/
def ticks (held : Keypad) (n : Nat) : List Action := List.replicate n (.tick held)

namespace Machine

variable {m : Machine} {held : Keypad} {schedule : Schedule} {now : Nat} {why : Halt}

/-- After `j` instructions that succeed comes one that fails. -/
def FailsAfter (m : Machine) (held : Keypad) (j : Nat) (why : Halt) : Prop :=
  Console.FailsAfter Keypad.still ⟨m, held⟩ j why

lemma ticked_still (m : Machine) (held : Keypad) (n : Nat) :
    Console.ticked Keypad.still ⟨m, held⟩ n = ⟨m.acts (ticks held n), held⟩ := by
  induction n generalizing m with
  | zero => rfl
  | succ n ih =>
    rw [Console.ticked_succ, Console.step_still, ih]
    rfl

/-- Catching up fails with the first instruction that does, and nothing comes after that. -/
lemma failsAfter_of_catchUp (h : (m.catchUp held schedule now).result = .error why) :
    (m.catchUp held schedule now).pulses = [] ∧
      ∃ j < (schedule.instructions.grant now).1, m.FailsAfter held j why ∧
        (m.catchUp held schedule now).machine = m.acts (ticks held (j+1)) := by
  obtain ⟨j, hj, hf, hup⟩ := Console.failsAfter_of_catchUp h
  rw [catchUp, hup, ticked_still]
  exact ⟨rfl, j, hj, hf, rfl⟩

end Machine
end Chip8
