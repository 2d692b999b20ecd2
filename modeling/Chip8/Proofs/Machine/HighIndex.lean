import Chip8.Proofs.Machine.Block
import Chip8.Proofs.Machine.Timers

/-! The top four bits of the index. An access through the index keeps the last twelve bits of a sum,
and all instructions but `FX1E` use the index for nothing else, so that runs without that
instruction cannot tell two machines apart whose indices are congruent modulo the memory's size. -/
namespace Chip8

namespace Machine

/-- The same machine again, with an index that may differ in its top four bits. -/
inductive Alike (m : Machine) : Machine → Prop
  | setIndex {w : UInt16} (h : w.toNat % 4096 = m.index.toNat % 4096) : Alike m (m.setIndex w)

end Machine

/-- The same outcome, up to the top four bits of the index. -/
inductive Execution.Alike : Execution → Execution → Prop
  | done {after after' : Machine} (h : after.Alike after') : Alike (.done after) (.done after')
  | asking {answer answer' : Keypad → Machine} (h : ∀ held, (answer held).Alike (answer' held)) :
    Alike (.asking answer) (.asking answer')
  | halted (why : Halt) : Alike (.halted why) (.halted why)

/-- What the slot of an event came to and how often it asked for the held keys, if the event is a
slot. -/
def Event.answer? (e : Event) : Option (Except Halt Unit × Nat) :=
  match e.action with
  | .tick held => some ((e.before.step held).result,(e.before.step held).asked)
  | .pulse | .reset => none

/-- Two events that nobody outside the machine can tell apart. -/
structure Event.Alike (e f : Event) : Prop where
  action : f.action = e.action
  answer : f.answer? = e.answer?
  pulse : f.pulse? = e.pulse?
  after : e.after.Alike f.after

lemma Execution.Alike.ofChecked {α : Type} {use use' : α → Machine} (sum : Except Trap α)
    (h : ∀ value, (use value).Alike (use' value)) :
    (Execution.ofChecked sum use).Alike (Execution.ofChecked sum use') := by
  cases sum with
  | ok value => exact .done (h value)
  | error t => exact .halted (.trap t)

namespace Machine

variable {m k : Machine} {actions : List Action}

namespace Alike

lemma refl (m : Machine) : m.Alike m := .setIndex rfl

/-! ### Through the index -/

lemma indexed_eq (h : m.Alike k) (n : UInt16) : k.indexed n = m.indexed n := by
  cases h with
  | setIndex hw =>
    apply Fin.ext
    rw [val_indexed, val_indexed, Nat.add_mod, Nat.add_mod m.index.toNat, ← hw]
    rfl

lemma storeRegisters (h : m.Alike k) (x : Fin 16) :
    (m.storeRegisters x).Alike (k.storeRegisters x) := by
  have hplaces := h.indexed_eq
  cases h with
  | setIndex hw =>
    simp only [Machine.storeRegisters, hplaces]
    exact .setIndex hw

lemma loadRegisters (h : m.Alike k) (x : Fin 16) :
    (m.loadRegisters x).Alike (k.loadRegisters x) := by
  have hplaces := h.indexed_eq
  cases h with
  | setIndex hw =>
    simp only [Machine.loadRegisters, hplaces]
    exact .setIndex hw

lemma storeDecimal (h : m.Alike k) (value : UInt8) :
    (m.storeDecimal value).Alike (k.storeDecimal value) := by
  have hplaces := h.indexed_eq
  cases h with
  | setIndex hw =>
    simp only [Machine.storeDecimal, hplaces]
    exact .setIndex hw

lemma sprite_eq (h : m.Alike k) (height : Fin 16) : k.sprite height = m.sprite height := by
  have hplaces := h.indexed_eq
  cases h with
  | setIndex hw =>
    simp only [Machine.sprite, hplaces]
    rfl

lemma draw (h : m.Alike k) (x y : UInt8) (height : Fin 16) :
    (m.draw x y height).Alike (k.draw x y height) := by
  cases h with
  | @setIndex w hw =>
    have hflag : (m.setFlag false).Alike ((m.setIndex w).setFlag false) := .setIndex hw
    simp only [Machine.draw, hflag.sprite_eq]
    exact .setIndex hw

/-! ### Instructions and actions -/

lemma skipIf (h : m.Alike k) (condition : Bool) :
    (m.skipIf condition).Alike (k.skipIf condition) := by
  cases h with
  | setIndex hw => cases condition <;> exact .setIndex hw

/-- Every instruction but the sum with the index does the same to two such machines. -/
lemma execute {i : Instruction} (h : m.Alike k) (hi : ∀ x, i ≠ .addIndex x) (opcode : Opcode)
    (origin : UInt16) : (m.execute opcode origin i).Alike (k.execute opcode origin i) := by
  have hskip := h.skipIf
  have hstore := h.storeRegisters
  have hload := h.loadRegisters
  have hdecimal := h.storeDecimal
  have hdraw := h.draw
  cases h with
  | @setIndex w hw =>
    cases i with
    | ret =>
      have hs : (m.setIndex w).stack = m.stack := rfl
      simp only [Machine.execute, hs]
      cases m.stack.pop? with
      | some top => exact .done (.setIndex hw)
      | none => exact .halted _
    | call nnn =>
      have hs : (m.setIndex w).stack = m.stack := rfl
      have hpc : (m.setIndex w).pc = m.pc := rfl
      simp only [Machine.execute, hs, hpc]
      cases m.stack.push? m.pc with
      | some stack => exact .done (.setIndex hw)
      | none => exact .halted _
    | skipEqualByte _ _ | skipUnequalByte _ _ | skipEqual _ _ | skipUnequal _ _ =>
      exact .done (hskip _)
    | skipHeld _ | skipNotHeld _ => exact .asking fun held => hskip _
    | awaitKey x =>
      refine .asking fun held => ?_
      cases held.first? with
      | some key => exact .setIndex hw
      | none => exact .setIndex hw
    | setIndex nnn => exact .done (.refl _)
    | pointGlyph x => exact .ofChecked _ fun address => .refl _
    | jumpOffset nnn => exact .ofChecked _ fun target => .setIndex hw
    | addIndex x => exact absurd rfl (hi x)
    | draw x y n => exact .done (hdraw _ _ n)
    | storeDecimal x => exact .done (hdecimal _)
    | storeRegisters x => exact .done (hstore x)
    | loadRegisters x => exact .done (hload x)
    | _ => exact .done (.setIndex hw)

/-- So does every slot, whether it succeeds or fails. -/
lemma step (h : m.Alike k) (hfree : ∀ x, m.instruction? ≠ some (.addIndex x)) (held : Keypad) :
    ((k.step held).result = (m.step held).result ∧ (k.step held).asked = (m.step held).asked) ∧
      (m.step held).machine.Alike (k.step held).machine := by
  cases h with
  | @setIndex w hw =>
    have hsame : (m.setIndex w).instruction? = m.instruction? := rfl
    have hadvance : m.advance.Alike (m.setIndex w).advance := .setIndex hw
    cases hi : m.instruction? with
    | none =>
      rw [step_of_none hi, step_of_none (hsame.trans hi)]
      exact ⟨⟨rfl, rfl⟩, .setIndex hw⟩
    | some i =>
      have hexecute := hadvance.execute (i := i) (fun x hx => hfree x (hx ▸ hi)) m.fetch m.pc
      have hfetch : (m.setIndex w).fetch = m.fetch := rfl
      have hpc : (m.setIndex w).pc = m.pc := rfl
      rw [step_of_some hi, step_of_some (hsame.trans hi), hfetch, hpc]
      generalize m.advance.execute m.fetch m.pc i = ran at hexecute ⊢
      generalize (m.setIndex w).advance.execute m.fetch m.pc i = ran' at hexecute ⊢
      cases hexecute with
      | done h => exact ⟨⟨rfl, rfl⟩, h⟩
      | asking h => exact ⟨⟨rfl, rfl⟩, h held⟩
      | halted why => exact ⟨⟨rfl, rfl⟩, hadvance⟩

/-- One action, done to both machines. -/
lemma event {a : Action} (h : m.Alike k)
    (hfree : ∀ x, (Event.mk m a).executed? ≠ some (.addIndex x)) :
    (Event.mk m a).Alike (Event.mk k a) := by
  cases a with
  | tick held =>
    obtain ⟨⟨hresult, hasked⟩, hafter⟩ := h.step hfree held
    exact ⟨rfl, congrArg some (congrArg₂ Prod.mk hresult hasked), rfl, hafter⟩
  | pulse =>
    cases h with
    | setIndex hw => exact ⟨rfl, rfl, rfl, .setIndex hw⟩
  | reset =>
    cases h with
    | setIndex hw => exact ⟨rfl, rfl, rfl, .refl _⟩

end Alike

/-! ### Runs -/

/-- The same run of two such machines, event by event. -/
lemma Alike.run (h : m.Alike k)
    (hfree : ∀ e ∈ m.log actions, ∀ x, e.executed? ≠ some (.addIndex x)) :
    List.Forall₂ Event.Alike (m.log actions) (k.log actions) ∧
      (m.acts actions).Alike (k.acts actions) := by
  induction actions generalizing m k with
  | nil => exact ⟨.nil, h⟩
  | cons a actions ih =>
    obtain ⟨hfirst, hlater⟩ := List.forall_mem_cons.mp hfree
    have hevent := h.event hfirst
    obtain ⟨hlog, hacts⟩ := ih hevent.after hlater
    exact ⟨.cons hevent hlog, hacts⟩

lemma handed_eq_of_alike {events events' : List Event}
    (h : List.Forall₂ Event.Alike events events') : handed events' = handed events := by
  induction h with
  | nil => rfl
  | cons hevent _ ih =>
    simp only [handed, List.filterMap_cons, hevent.pulse] at ih ⊢
    rw [ih]

/-- The top four bits of the index are invisible to programs that never add to it. Two machines that
differ in nothing else take the same actions with the same outcome, each slot succeeding or failing
for the same cause and asking for the held keys as often; after each action they still differ in
nothing else; and the same frames and beeps are handed to the devices. It is enough that the first
of the two never adds to its index. -/
theorem high_index_invisible (h : m.Alike k)
    (hfree : ∀ e ∈ m.log actions, ∀ x, e.executed? ≠ some (.addIndex x)) :
    List.Forall₂ Event.Alike (m.log actions) (k.log actions) ∧
      (m.acts actions).Alike (k.acts actions) ∧
      handed (k.log actions) = handed (m.log actions) := by
  obtain ⟨hlog, hacts⟩ := h.run hfree
  exact ⟨hlog, hacts, handed_eq_of_alike hlog⟩

/-- Two machines with different indices, through which the program overwrites its own next word.
Both show the frame and beep at the timer step, and both fail on the word they wrote. -/
theorem high_index_invisible_self_modifying :
    ∃ m : Machine, m.memory = .loaded Font.glyphs #[0xF1,0x55] ∧ m.index = 0x0202 ∧
      let k := m.setIndex 0xF202
      let actions : List Action := [.tick .released, .pulse, .tick .released]
      let why : Halt := .error (.returnWithoutCall ⟨0x00EE⟩ 0x202)
      m.Alike k ∧ (∀ e ∈ m.log actions, ∀ x, e.executed? ≠ some (.addIndex x)) ∧
        (k.log actions).map Event.answer? = [some (.ok (),0), none, some (.error why,0)] ∧
        (m.acts actions).Alike (k.acts actions) ∧
        (handed (k.log actions)).map Pulse.frame = [some .blank] ∧
        (handed (k.log actions)).map Pulse.beep = [true] := by
  -- of the machine only these facts are kept, so that nothing below unfolds its memory
  obtain ⟨m, hm, hpc, hindex, hstack, hsound, hdisplay, h0, h1⟩ : ∃ m : Machine,
      m.memory = .loaded Font.glyphs #[0xF1,0x55] ∧ m.pc = 0x200 ∧ m.index = 0x0202 ∧
        m.stack = .empty ∧ m.sound = ⟨2⟩ ∧ m.display = ⟨.blank, true⟩ ∧
        m.reg 0 = 0x00 ∧ m.reg 1 = 0xEE := by
    refine ⟨{ powerOn (.loaded Font.glyphs #[0xF1,0x55]) (.ofSeed 0) with
      registers := RegisterFile.zero.set 1 0xEE, index := 0x0202, sound := ⟨2⟩,
      display := ⟨.blank, true⟩ }, rfl, by decide, rfl, rfl, rfl, rfl, ?_⟩
    simp [reg]
  have hw : m.fetch = .ofDigits 0xF 1 5 5 := (fetch_of_start hm hpc rfl rfl).trans (by decide)
  have hi : m.instruction? = some (.storeRegisters 1) := instruction?_of_digits hw
  have hstore : m.step .released = ⟨m.advance.storeRegisters 1, .ok (), 0⟩ :=
    step_of_done hi rfl .released
  let stored := m.advance.storeRegisters 1
  have hplaces : m.advance.place 0 = .ofWord 0x202 ∧ m.advance.place 1 = .ofWord (0x202+1) := by
    have hsame : m.advance.index = 0x0202 := hindex
    rw [place, place, hsame]
    decide
  have hpc' : stored.pc = 0x202 := by
    change wrap (m.pc+2) = 0x202
    rw [hpc]
    decide
  have hleft : stored.memory.read (.ofWord 0x202) = 0x00 := by
    rw [← hplaces.1]
    exact (read_storeRegisters (m := m.advance) (by decide)).trans h0
  have hright : stored.memory.read (.ofWord (0x202+1)) = 0xEE := by
    rw [← hplaces.2]
    exact (read_storeRegisters (m := m.advance) (by decide)).trans h1
  have hfetch : stored.fetch = ⟨0x00EE⟩ := by
    rw [fetch, hpc', Memory.readWord, hleft, hright]
    decide
  have hret : stored.pulse.1.instruction? = some .ret := by
    change stored.instruction? = some .ret
    rw [instruction?_eq, hfetch]
    decide
  have hfail : stored.pulse.1.step .released =
      ⟨stored.pulse.1.advance, .error (.error (.returnWithoutCall ⟨0x00EE⟩ 0x202)), 0⟩ := by
    have hpop : stored.pulse.1.advance.stack.pop? = none := by
      change m.stack.pop? = none
      rw [hstack]
      rfl
    have hfetch' : stored.pulse.1.fetch = ⟨0x00EE⟩ := hfetch
    have hpc'' : stored.pulse.1.pc = 0x202 := hpc'
    simp only [step_of_some hret, execute, hpop, hfetch', hpc'']
  have halike : m.Alike (m.setIndex 0xF202) := .setIndex (by rw [hindex]; rfl)
  let actions : List Action := [.tick .released, .pulse, .tick .released]
  have hlog : m.log actions =
      [⟨m, .tick .released⟩, ⟨stored, .pulse⟩, ⟨stored.pulse.1, .tick .released⟩] := by
    simp only [actions, log, act, hstore]
    rfl
  have hfree : ∀ e ∈ m.log actions, ∀ x, e.executed? ≠ some (.addIndex x) := by
    rw [hlog]
    simp [Event.executed?, hi, hret]
  obtain ⟨hevents, hafter, hhanded⟩ := high_index_invisible halike hfree
  refine ⟨m, hm, hindex, halike, hfree, ?_, hafter, ?_⟩
  · have hanswers : (m.log actions).map Event.answer? =
        ((m.setIndex 0xF202).log actions).map Event.answer? := by
      rw [← List.forall₂_eq_eq_eq, List.forall₂_map_left_iff, List.forall₂_map_right_iff]
      exact hevents.imp fun _ _ h => h.answer.symm
    rw [← hanswers, hlog]
    simp only [List.map_cons, List.map_nil, Event.answer?, hstore, hfail]
  · rw [hhanded, hlog]
    have hframe : stored.pulse.2.frame = some .blank := by
      change m.display.refresh.2 = _
      rw [hdisplay]
      rfl
    have hbeep : stored.pulse.2.beep = true := by
      change m.sound.step.isActive = true
      rw [hsound]
      rfl
    exact ⟨congrArg (fun frame => [frame]) hframe, congrArg (fun beep => [beep]) hbeep⟩

end Machine
end Chip8
