import Chip8.Proofs.Machine.Console
import Chip8.Proofs.Machine.Frame

/-! The random stream over whole runs. One instruction takes a word from it, exactly one each time
it is carried out, and nothing else touches it: no failing slot, no timer step and no reset. So the
stream is read in order, and a seed fixes what every draw of a run reads. -/
namespace Chip8

/-- The draws among some events: the instructions `CXNN` that are carried out. -/
def draws (events : List Event) : List Event :=
  events.filter fun e => e.completed? matches some (.random _ _)

namespace Machine

variable {m : Machine} {held : Keypad} {x : Fin 16} {nn : UInt8}

lemma step_random (hi : m.instruction? = some (.random x nn)) (held : Keypad) :
    m.step held =
      ⟨{ m.advance with random := m.random.next.2 }.setReg x (nn &&& m.random.next.1), .ok (), 0⟩ :=
  step_of_some hi held

/-- A draw gives the next byte of the stream, masked, whatever the mask is. -/
lemma reg_of_draw (h : Event.completed? ⟨m, .tick held⟩ = some (.random x nn)) :
    (m.step held).machine.reg x = nn &&& Random.byte m.random.key m.random.taken := by
  rw [step_random (Event.completed?_tick_iff.mp h).2, reg, setReg, RegisterFile.get_set, if_pos rfl]
  rfl

/-- An action takes a word from the stream if it is a draw, and none if it is not. -/
lemma random_act (m : Machine) (a : Action) :
    (m.act a).random = { m.random with taken := m.random.taken+(draws [⟨m, a⟩]).length } := by
  cases a with
  | tick held =>
    by_cases hdraw : ∃ x nn, m.instruction? = some (.random x nn)
    · obtain ⟨x, nn, hi⟩ := hdraw
      have hs := step_random hi held
      have hdone : Event.completed? ⟨m, .tick held⟩ = some (.random x nn) :=
        Event.completed?_tick_iff.mpr ⟨congrArg Step.result hs, hi⟩
      have hone : draws [⟨m, .tick held⟩] = [⟨m, .tick held⟩] := by simp [draws, hdone]
      rw [hone, act, hs]
      rfl
    · have hnone : draws [⟨m, .tick held⟩] = [] := by
        refine List.filter_eq_nil_iff.mpr fun e he hmatch => ?_
        rw [List.mem_singleton.mp he] at hmatch
        cases hdone : Event.completed? ⟨m, .tick held⟩ with
        | none => simp [hdone] at hmatch
        | some i =>
          have hi := (Event.completed?_tick_iff.mp hdone).2
          cases i <;> simp [hdone] at hmatch
          exact hdraw ⟨_, _, hi⟩
      rw [hnone]
      refine step_frame (p := .random) held fun i hi => ?_
      rw [hi] at hdraw
      cases i <;> simp [Instruction.writes] at hdraw ⊢
  | pulse => rfl
  | reset => rfl

lemma draws_log_cons (m : Machine) (a : Action) (actions : List Action) :
    draws (m.log (a :: actions)) = draws [⟨m, a⟩] ++ draws ((m.act a).log actions) := by
  change draws ([⟨m, a⟩] ++ (m.act a).log actions) = _
  exact List.filter_append ..

/-- After a run the stream is behind as many words as the run has draws. -/
theorem random_acts (m : Machine) (actions : List Action) :
    (m.acts actions).random =
      { m.random with taken := m.random.taken+(draws (m.log actions)).length } := by
  induction actions generalizing m with
  | nil => rfl
  | cons a actions ih =>
    rw [acts_cons, ih, random_act, draws_log_cons, List.length_append, Nat.add_assoc]

/-- The draws of a run read the stream in order, one byte each. -/
theorem reg_of_draws {actions : List Action} {k : Nat} {e : Event}
    (he : (draws (m.log actions))[k]? = some e) (h : e.completed? = some (.random x nn)) :
    e.after.reg x = nn &&& Random.byte m.random.key (m.random.taken+k) := by
  induction actions generalizing m k with
  | nil => simp [draws, log] at he
  | cons a actions ih =>
    have hrandom := m.random_act a
    rw [draws_log_cons] at he
    have hone : draws [⟨m, a⟩] = [] ∨ draws [⟨m, a⟩] = [⟨m, a⟩] := by
      cases hd : (Event.completed? ⟨m, a⟩ matches some (.random _ _)) <;> simp [draws, hd]
    rcases hone with hone | hone
    · rw [hone, List.nil_append] at he
      rw [hone] at hrandom
      have := ih he
      rwa [hrandom] at this
    · rw [hone] at he hrandom
      cases k with
      | zero =>
        obtain rfl : ⟨m, a⟩ = e := Option.some.inj he
        cases a with
        | tick held => exact reg_of_draw h
        | pulse => cases h
        | reset => cases h
      | succ k =>
        have := ih (k := k) he
        rw [hrandom] at this
        rwa [Nat.add_right_comm] at this

end Machine

/-- Only draws consume the random stream, one word each. Whatever is asked of a machine after it was
given a seed, its draws read the words of that seed's stream in order, also where the mask is zero
and the byte is lost; and the stream is afterwards behind just these words, so that it depends on
nothing but the seed and the number of draws. -/
theorem Console.draws_read_stream (m : Machine) (seed : UInt64) {σ : Type} (ask : σ → Keypad × σ)
    (pad : σ) (requests : List (Request σ)) :
    let stream := Random.ofSeed seed
    let c : Console σ := ⟨{ m with random := stream }, pad⟩
    let drawn := draws (c.history ask requests)
    (∀ k e x nn, drawn[k]? = some e → e.completed? = some (.random x nn) →
      e.after.reg x = nn &&& (Random.word stream.key k).toUInt8) ∧
    (c.serveAll ask requests).console.machine.random = { stream with taken := drawn.length } := by
  intro stream c drawn
  refine ⟨fun k e x nn he h => ?_, ?_⟩
  · have hbyte := Machine.reg_of_draws he h
    change _ = nn &&& Random.byte stream.key (0+k) at hbyte
    rwa [Nat.zero_add] at hbyte
  · rw [(c.serveAll_eq ask requests).1, Machine.random_acts]
    change { stream with taken := 0+drawn.length } = { stream with taken := drawn.length }
    rw [Nat.zero_add]

/-- Two draws with a timer step between them. The first one has the mask zero and takes a word all
the same, so that the second one reads the second word. -/
theorem Console.draws_read_stream_masked :
    ∃ m, Machine.boot Font.glyphs #[0xC0,0x00,0xC1,0xFF] (.ofSeed 0) = .ok m ∧
      let stream := Random.ofSeed 7
      let c : Console Unit := ⟨{ m with random := stream }, ()⟩
      let served := c.serveAll (fun _ => (.released, ())) [.tick, .pulse, .tick]
      served.console.machine.reg 1 = 0xFF &&& (Random.word stream.key 1).toUInt8 ∧
        served.console.machine.random = { stream with taken := 2 } := by
  -- of the machine only these facts are kept, so that nothing below unfolds its memory
  obtain ⟨m, hboot, hm, hpc⟩ : ∃ m,
      Machine.boot Font.glyphs #[0xC0,0x00,0xC1,0xFF] (.ofSeed 0) = .ok m ∧
        m.memory = .loaded Font.glyphs #[0xC0,0x00,0xC1,0xFF] ∧ m.pc = 0x200 :=
    ⟨_, Machine.boot_eq_ok_iff.mpr ⟨by decide, by decide, rfl⟩, rfl, by decide⟩
  refine ⟨m, hboot, ?_⟩
  intro stream c served
  let ask : Unit → Keypad × Unit := fun _ => (.released, ())
  let once := (c.machine.step .released).machine.pulse.1
  have hi : c.machine.instruction? = some (.random 0 0) :=
    Machine.instruction?_of_loaded (m := c.machine) (k := 0) hm (congrArg UInt16.toNat hpc)
      (by decide) rfl rfl rfl
  have hs := Machine.step_random hi .released
  have honce : once.memory = .loaded Font.glyphs #[0xC0,0x00,0xC1,0xFF] ∧ once.pc = 0x202 := by
    have hnext : Machine.wrap (0x200+2) = 0x202 := by decide
    change (c.machine.step .released).machine.memory = _ ∧
      (c.machine.step .released).machine.pc = _
    rw [hs]
    refine ⟨hm, ?_⟩
    change Machine.wrap (m.pc+2) = 0x202
    rw [hpc, hnext]
  have hi' : once.instruction? = some (.random 1 0xFF) :=
    Machine.instruction?_of_loaded (k := 2) honce.1 (by rw [honce.2]; rfl) (by decide) rfl rfl rfl
  have hs' := Machine.step_random hi' .released
  have hdone : Event.completed? ⟨c.machine, .tick .released⟩ = some (.random 0 0) :=
    Event.completed?_tick_iff.mpr ⟨congrArg Step.result hs, hi⟩
  have hdone' : Event.completed? ⟨once, .tick .released⟩ = some (.random 1 0xFF) :=
    Event.completed?_tick_iff.mpr ⟨congrArg Step.result hs', hi'⟩
  have hidle : Event.completed? ⟨(c.machine.step .released).machine, .pulse⟩ = none := rfl
  have hdrawn : draws (c.history ask [.tick, .pulse, .tick]) =
      [⟨c.machine, .tick .released⟩, ⟨once, .tick .released⟩] := by
    change draws [⟨c.machine, .tick .released⟩,
      ⟨(c.machine.step .released).machine, .pulse⟩, ⟨once, .tick .released⟩] = _
    simp [draws, hdone, hidle, hdone']
  obtain ⟨hreads, hrandom⟩ := draws_read_stream m 7 ask () [.tick, .pulse, .tick]
  change ∀ k e x nn, (draws (c.history ask [.tick, .pulse, .tick]))[k]? = some e → _ at hreads
  change _ = { stream with taken := (draws (c.history ask [.tick, .pulse, .tick])).length }
    at hrandom
  rw [hdrawn] at hreads hrandom
  exact ⟨hreads 1 _ 1 0xFF rfl hdone', hrandom⟩

end Chip8
