import Chip8.Proofs.Instruction
import Chip8.Proofs.Machine.Frame
import Chip8.Proofs.Machine.Run

/-! Instructions and timer steps in either order. A timer step reads and writes the timers and the
display; an instruction that has nothing to do with these three can be swapped with it, whether it
succeeds or fails. -/
namespace Chip8

/-- The words of the instructions that read or write a timer or the display: `0_E0`, `DXYN`, `FX07`,
`FX15` and `FX18`. -/
def Opcode.Fields.SharesWithPulse (f : Opcode.Fields) : Prop :=
  match f.kind with
  | 0x0 => f.nn = 0xE0
  | 0xD => True
  | 0xF => f.nn ∈ [0x07, 0x15, 0x18]
  | _ => False

/-- The instructions that read or write a timer or the display. -/
def Instruction.SharesWithPulse : Instruction → Prop
  | .clearScreen | .draw _ _ _ | .getDelay _ | .setDelay _ | .setSound _ => True
  | _ => False

lemma Instruction.sharesWithPulse_of_ofFields {f : Opcode.Fields} {i : Instruction}
    (h : ofFields f = some i) (hi : i.SharesWithPulse) : f.SharesWithPulse := by
  obtain ⟨hk, hs⟩ := kind_of_ofFields h
  cases i with
  | clearScreen =>
    have hkind : f.kind = 0x0 := Fin.ext hk
    simp [Opcode.Fields.SharesWithPulse, hkind, hs _ rfl]
  | draw x y n =>
    have hkind : f.kind = 0xD := Fin.ext hk
    simp [Opcode.Fields.SharesWithPulse, hkind]
  | getDelay _ | setDelay _ | setSound _ =>
    have hkind : f.kind = 0xF := Fin.ext hk
    simp [Opcode.Fields.SharesWithPulse, hkind, hs _ rfl]
  | _ => exact hi.elim

lemma Instruction.not_mem_writes {i : Instruction} (hi : ¬ i.SharesWithPulse) {p : Part}
    (hp : p = .delay ∨ p = .sound ∨ p = .display) : p ∉ i.writes := by
  rcases hp with rfl | rfl | rfl <;> cases i <;> simp [SharesWithPulse, writes] at hi ⊢

/-- What an execution leads to, with the machine changed afterwards. -/
def Execution.map (change : Machine → Machine) : Execution → Execution
  | .done after => .done (change after)
  | .asking answer => .asking fun held => change (answer held)
  | .halted why => .halted why

namespace Machine

/-- A machine with other timers and another display. -/
def withDevices (m : Machine) (delay sound : Timer) (display : Display) : Machine :=
  { m with delay := delay, sound := sound, display := display }

variable {m : Machine} {delay sound : Timer} {display : Display}

lemma skipIf_withDevices (m : Machine) (condition : Bool) :
    (m.withDevices delay sound display).skipIf condition =
      (m.skipIf condition).withDevices delay sound display := by
  cases condition <;> rfl

lemma ofChecked_withDevices {α : Type} (sum : Except Trap α) {use use' : α → Machine}
    (h : ∀ a, use' a = (use a).withDevices delay sound display) :
    Execution.ofChecked sum use' =
      (Execution.ofChecked sum use).map (·.withDevices delay sound display) := by
  cases sum with
  | ok a => exact congrArg Execution.done (h a)
  | error t => rfl

/-- Such an instruction does the same whatever the timers and the display are. -/
lemma execute_withDevices {i : Instruction} (hi : ¬ i.SharesWithPulse) (m : Machine)
    (opcode : Opcode) (origin : UInt16) :
    (m.withDevices delay sound display).execute opcode origin i =
      (m.execute opcode origin i).map (·.withDevices delay sound display) := by
  cases i with
  | clearScreen | draw _ _ _ | getDelay _ | setDelay _ | setSound _ => exact absurd trivial hi
  | ret =>
    have hs : (m.withDevices delay sound display).stack = m.stack := rfl
    simp only [execute, hs]
    cases m.stack.pop? <;> rfl
  | call nnn =>
    have hs : (m.withDevices delay sound display).stack = m.stack := rfl
    have hp : (m.withDevices delay sound display).pc = m.pc := rfl
    simp only [execute, hs, hp]
    cases m.stack.push? m.pc <;> rfl
  | skipEqualByte _ _ | skipUnequalByte _ _ | skipEqual _ _ | skipUnequal _ _ =>
    exact congrArg Execution.done (m.skipIf_withDevices _)
  | skipHeld _ | skipNotHeld _ =>
    exact congrArg Execution.asking (funext fun held => m.skipIf_withDevices _)
  | awaitKey x =>
    refine congrArg Execution.asking (funext fun held => ?_)
    dsimp only
    cases held.first? <;> rfl
  | jumpOffset _ | addIndex _ | pointGlyph _ => exact ofChecked_withDevices _ fun _ => rfl
  | _ => rfl

/-- So does a slot with such an instruction, or with none. -/
lemma step_withDevices (h : ∀ i, m.instruction? = some i → ¬ i.SharesWithPulse)
    (delay sound : Timer) (display : Display) (held : Keypad) :
    (m.withDevices delay sound display).step held =
      { m.step held with machine := (m.step held).machine.withDevices delay sound display } := by
  have hsame : (m.withDevices delay sound display).instruction? = m.instruction? := rfl
  cases hi : m.instruction? with
  | none =>
    rw [step_of_none hi, step_of_none (hsame.trans hi)]
    rfl
  | some i =>
    have hadvance : (m.withDevices delay sound display).advance =
      m.advance.withDevices delay sound display := rfl
    have hfetch : (m.withDevices delay sound display).fetch = m.fetch := rfl
    have hpc : (m.withDevices delay sound display).pc = m.pc := rfl
    rw [step_of_some hi, step_of_some (hsame.trans hi), hadvance, hfetch, hpc,
      execute_withDevices (h i hi)]
    cases m.advance.execute m.fetch m.pc i <;> rfl

/-- An instruction and a timer step can change places, unless the instruction reads or writes a
timer or the display: the slot comes to the same, the machine is the same after both, and the same
is handed to the devices. -/
theorem tick_pulse_comm (h : ¬ m.fetch.split.SharesWithPulse) (held : Keypad) :
    (m.pulse.1.step held).result = (m.step held).result ∧
    m.acts [.pulse, .tick held] = m.acts [.tick held, .pulse] ∧
    handed (m.log [.pulse, .tick held]) = handed (m.log [.tick held, .pulse]) := by
  have hfree : ∀ i, m.instruction? = some i → ¬ i.SharesWithPulse := fun i hi hshares =>
    h (Instruction.sharesWithPulse_of_ofFields (instruction?_eq m ▸ hi) hshares)
  have hpulse : m.pulse.1 =
      m.withDevices m.delay.step m.sound.step { m.display with dirty := false } := rfl
  have hstep := step_withDevices hfree m.delay.step m.sound.step
    { m.display with dirty := false } held
  have hkept : ∀ p, p = .delay ∨ p = .sound ∨ p = .display → Agree m (m.step held).machine p :=
    fun p hp => step_frame held fun i hi => Instruction.not_mem_writes (hfree i hi) hp
  have hdelay : (m.step held).machine.delay = m.delay := hkept .delay (.inl rfl)
  have hsound : (m.step held).machine.sound = m.sound := hkept .sound (.inr (.inl rfl))
  have hdisplay : (m.step held).machine.display = m.display := hkept .display (.inr (.inr rfl))
  rw [hpulse]
  refine ⟨by rw [hstep], ?_, ?_⟩
  · change ((m.withDevices _ _ _).step held).machine =
      (m.step held).machine.withDevices (m.step held).machine.delay.step
        (m.step held).machine.sound.step { (m.step held).machine.display with dirty := false }
    rw [hstep, hdelay, hsound, hdisplay]
  · change [m.pulse.2] = [(m.step held).machine.pulse.2]
    simp only [pulse, hsound, hdisplay]

/-- A return with no call open, with both timers running and a changed screen: it fails the same way
before the timer step and after it. -/
theorem tick_pulse_comm_failing :
    let m : Machine :=
      { powerOn (.loaded Font.glyphs #[0x00,0xEE]) (.ofSeed 0) with
        delay := ⟨3⟩, sound := ⟨2⟩, display := ⟨.blank, true⟩ }
    let why : Halt := .error (.returnWithoutCall ⟨0x00EE⟩ 0x200)
    (m.step .released).result = .error why ∧ (m.pulse.1.step .released).result = .error why ∧
      m.acts [.pulse, .tick .released] = m.acts [.tick .released, .pulse] ∧
      handed (m.log [.tick .released, .pulse]) = [⟨some .blank, true⟩] ∧
      handed (m.log [.pulse, .tick .released]) = [⟨some .blank, true⟩] := by
  intro m why
  have hm : m.memory = .loaded Font.glyphs #[0x00,0xEE] := rfl
  have hf : m.fetch = ⟨0x00EE⟩ := fetch_of_loaded (k := 0) hm (by decide) (by decide) rfl rfl
  have hi : m.instruction? = some .ret := by
    rw [instruction?_eq, hf]
    rfl
  have hr : (m.step .released).result = .error why := by
    rw [step_of_some hi, hf]
    rfl
  have hword : ¬ m.fetch.split.SharesWithPulse := by
    rw [hf]
    change (0xEE : UInt8) ≠ 0xE0
    decide
  obtain ⟨hresult, hafter, hhanded⟩ := tick_pulse_comm hword .released
  have hbeep : (Timer.mk 2).step.isActive = true := by decide
  have hpulse : handed (m.log [.pulse, .tick .released]) = [⟨some .blank, true⟩] := by
    change [Pulse.mk (some .blank) (Timer.mk 2).step.isActive] = _
    rw [hbeep]
  exact ⟨hr, hresult.trans hr, hafter, hhanded.symm.trans hpulse, hpulse⟩

/-- A word that clears the screen without being `00E0` cannot change places with a timer step. -/
theorem clear_pulse_not_comm :
    ∃ m, boot Font.glyphs #[0x01,0xE0] (.ofSeed 0) = .ok m ∧ m.fetch = ⟨0x01E0⟩ ∧
      m.acts [.pulse, .tick .released] ≠ m.acts [.tick .released, .pulse] ∧
      handed (m.log [.pulse, .tick .released]) ≠ handed (m.log [.tick .released, .pulse]) := by
  obtain ⟨m, hboot, hm, hpc, hdisplay⟩ : ∃ m, boot Font.glyphs #[0x01,0xE0] (.ofSeed 0) = .ok m ∧
      m.memory = .loaded Font.glyphs #[0x01,0xE0] ∧ m.pc = 0x200 ∧ m.display = .blank :=
    ⟨_, boot_eq_ok_iff.mpr ⟨by decide, by decide, rfl⟩, rfl, by decide, rfl⟩
  have hf : m.fetch = ⟨0x01E0⟩ :=
    fetch_of_loaded (k := 0) hm (by rw [hpc]; rfl) (by decide) rfl rfl
  have hi : m.instruction? = some .clearScreen := by
    rw [instruction?_eq, hf]
    rfl
  have hi' : m.pulse.1.instruction? = some .clearScreen := hi
  have hclear : (m.step .released).machine.display.dirty = true := by
    rw [step_of_some hi]
    rfl
  have hclear' : (m.pulse.1.step .released).machine.display.dirty = true := by
    rw [step_of_some hi']
    rfl
  refine ⟨m, hboot, hf, fun h => ?_, fun h => ?_⟩
  · -- cleared last, the screen is still to be shown
    have hdirty : (m.acts [.tick .released, .pulse]).display.dirty = false := rfl
    rw [← h] at hdirty
    exact absurd (hclear'.symm.trans hdirty) (by decide)
  · have hframe : m.pulse.2.frame = (m.step .released).machine.pulse.2.frame :=
      congrArg Pulse.frame (List.cons.inj h).1
    simp [pulse, Display.refresh, hclear, hdisplay, Display.blank] at hframe

end Machine
end Chip8
