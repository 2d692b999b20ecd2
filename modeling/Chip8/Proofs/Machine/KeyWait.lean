import Chip8.Proofs.Machine.Bounds
import Chip8.Proofs.Machine.Counter
import Chip8.Proofs.Machine.Timers

/-! The wait for a key. A slot that finds no key held moves the counter back to where it was, so
that the slots of a wait leave no trace and only the timer steps between them count. That the
counter comes back exactly needs it to lie within the memory, which every running machine grants. -/
namespace Chip8

/-- What may happen while nobody presses a key: timer steps, and slots that see no key held. -/
def Action.Idle : Action → Prop
  | .tick held => held.isEmpty = true
  | .pulse => True
  | .reset => False

namespace Machine

variable {m : Machine} {x : Fin 16} {held : Keypad} {key : UInt8} {actions : List Action}

lemma rewind_advance (h : m.pc.toNat ≤ 0xFFF) : m.advance.rewind = m := by
  have hpc : m.advance.rewind.pc = m.pc := by
    apply UInt16.toNat_inj.mp
    rw [toNat_pc_rewind]
    omega
  calc m.advance.rewind = { m with pc := m.advance.rewind.pc } := rfl
    _ = m := by rw [hpc]

/-- A machine that stands at `p`, on the wait for a key. -/
structure Waiting (x : Fin 16) (p : UInt16) (m : Machine) : Prop where
  instruction : m.instruction? = some (.awaitKey x)
  pc_eq : m.pc = p
  pc_le : p.toNat ≤ 0xFFF

namespace Waiting

variable {p : UInt16}

/-- A slot of the wait changes nothing at all. -/
lemma step_of_empty (h : Waiting x p m) (hheld : held.isEmpty = true) :
    m.step held = ⟨m, .ok (), 1⟩ := by
  have hpc : m.pc.toNat ≤ 0xFFF := by
    rw [h.pc_eq]
    exact h.pc_le
  have hnone : held.first? = none := Keypad.first?_eq_none_iff.mpr (beq_iff_eq.mp hheld)
  simp only [step_of_some h.instruction, execute, hnone, rewind_advance hpc]

/-- The slot that ends the wait. -/
lemma step_of_first (h : Waiting x p m) (hfirst : held.first? = some key) :
    m.step held = ⟨m.advance.setReg x key, .ok (), 1⟩ := by
  simp only [step_of_some h.instruction, execute, hfirst]

lemma act_tick (h : Waiting x p m) (hheld : held.isEmpty = true) : m.act (.tick held) = m :=
  congrArg Step.machine (h.step_of_empty hheld)

lemma act (h : Waiting x p m) {a : Action} (ha : a.Idle) : Waiting x p (m.act a) := by
  cases a with
  | tick held => rwa [h.act_tick ha]
  | pulse => exact ⟨h.instruction, h.pc_eq, h.pc_le⟩
  | reset => exact ha.elim

lemma acts (h : Waiting x p m) (hidle : ∀ a ∈ actions, a.Idle) : Waiting x p (m.acts actions) := by
  induction actions generalizing m with
  | nil => exact h
  | cons a actions ih =>
    obtain ⟨ha, hlater⟩ := List.forall_mem_cons.mp hidle
    exact ih (h.act ha) hlater

/-- Of a wait only its timer steps are left. -/
lemma acts_eq_pulses (h : Waiting x p m) (hidle : ∀ a ∈ actions, a.Idle) :
    (m.acts actions,handed (m.log actions)) = m.pulses (pulseCount actions) := by
  induction actions generalizing m with
  | nil => rfl
  | cons a actions ih =>
    obtain ⟨ha, hlater⟩ := List.forall_mem_cons.mp hidle
    have hrest := ih (h.act ha) hlater
    cases a with
    | tick held =>
      change ((m.act (.tick held)).acts actions,handed ((m.act (.tick held)).log actions)) = _
      rw [hrest, h.act_tick ha, pulseCount_cons_tick]
    | pulse =>
      have hpulses : m.pulse.1.pulses (pulseCount actions) =
        (m.pulse.1.acts actions,handed (m.pulse.1.log actions)) := hrest.symm
      rw [pulseCount_cons_pulse]
      simp only [pulses, hpulses]
      rfl
    | reset => exact ha.elim

/-- No slot of a wait leaves a trace, wherever between the timer steps it comes. -/
lemma step_of_mem_log (h : Waiting x p m) (hidle : ∀ a ∈ actions, a.Idle) {e : Event}
    (he : e ∈ m.log actions) (haction : e.action = .tick held) :
    e.before.step held = ⟨e.before, .ok (), 1⟩ := by
  obtain ⟨before, later, rfl, hbefore⟩ := exists_split_of_mem_log he
  obtain ⟨hearlier, hlater⟩ := List.forall_mem_append.mp hidle
  have hheld : Action.Idle (.tick held) := haction ▸ hlater e.action (List.mem_cons_self ..)
  rw [hbefore]
  exact (h.acts hearlier).step_of_empty hheld

end Waiting

/-- The keys of a pad on which something is held have a lowest one, which is one of the sixteen. -/
lemma exists_lowest_key (h : held.isEmpty = false) :
    ∃ key, held.first? = some key ∧ key ≤ 0xF ∧ held.isHeld key = true ∧
      ∀ other, held.isHeld other = true → key ≤ other := by
  have hmask : held.mask ≠ 0 := by
    intro hzero
    simp [Keypad.isEmpty, hzero] at h
  cases hfirst : held.first? with
  | none => exact absurd (Keypad.first?_eq_none_iff.mp hfirst) hmask
  | some key =>
    obtain ⟨hkey, hlowest⟩ := Keypad.first?_eq_some_iff.mp hfirst
    exact ⟨key, rfl, (Keypad.isHeld_iff.mp hkey).1, hkey, hlowest⟩

/-- Waiting for a key is standing still. While no key is held, every slot of a machine that stands
on `FX0A` succeeds and leaves the machine exactly as it found it, so that after any number of them
between any timer steps the machine is what the timer steps alone make of it, and the same was
handed to the devices. The first slot that sees a key held puts the lowest one into the register,
moves on and changes nothing else. -/
theorem key_wait_stands_still (h : m.Reachable) (hw : m.fetch = .ofDigits 0xF x 0x0 0xA)
    (hidle : ∀ a ∈ actions, a.Idle) :
    let waited := m.acts actions
    (∀ e ∈ m.log actions, ∀ held, e.action = .tick held →
      e.before.step held = ⟨e.before, .ok (), 1⟩) ∧
    (waited,handed (m.log actions)) = m.pulses (pulseCount actions) ∧
    ∀ held, held.isEmpty = false → ∃ key, key ≤ 0xF ∧ held.isHeld key = true ∧
      (∀ other, held.isHeld other = true → key ≤ other) ∧
      waited.step held =
        ⟨{ waited with
          registers := waited.registers.set x key
          pc := .ofNat ((m.pc.toNat+2) % 4096) }, .ok (), 1⟩ := by
  intro waited
  have hwaiting : Waiting x m.pc m := ⟨instruction?_of_digits hw, rfl, h.within.pc_le⟩
  have hlater : Waiting x m.pc waited := hwaiting.acts hidle
  refine ⟨fun e he held haction => hwaiting.step_of_mem_log hidle he haction,
    hwaiting.acts_eq_pulses hidle, fun held hheld => ?_⟩
  obtain ⟨key, hfirst, hle, hkey, hlowest⟩ := exists_lowest_key hheld
  refine ⟨key, hle, hkey, hlowest, ?_⟩
  rw [hlater.step_of_first hfirst, ← hlater.pc_eq, ← advance_pc_eq]
  rfl

/-- A wait in the last two bytes of the memory, with a timer step in its midst: the key that ends it
lets the machine go on at address zero. -/
theorem key_wait_stands_still_at_end :
    ∃ m : Machine, m.Reachable ∧ m.pc = 0xFFE ∧ m.fetch = .ofDigits 0xF 0x1 0x0 0xA ∧
      let waited := m.acts [.tick .released, .pulse, .tick .released]
      let after := waited.step (.ofList [0xB,0x5])
      waited = m.pulse.1 ∧ after.result = .ok () ∧ after.machine.reg 1 = 5 ∧
        after.machine.pc = 0 := by
  let rom : Array UInt8 := #[0x1F,0xFE] ++ Array.replicate 3580 0 ++ #[0xF1,0x0A]
  have hsize : rom.size ≤ Memory.romLimit := by
    simp [rom, Memory.romLimit, Memory.size, Memory.programStart]
  have hbytes : rom[0]? = some 0x1F ∧ rom[1]? = some 0xFE ∧ rom[3582]? = some 0xF1 ∧
      rom[3583]? = some 0x0A := by simp [rom]
  -- only these facts are kept of the machine that is switched on, so that its memory stays folded
  obtain ⟨on, hboot, hm, hpc⟩ : ∃ on, boot Font.glyphs rom (.ofSeed 0) = .ok on ∧
      on.memory = .loaded Font.glyphs rom ∧ on.pc = 0x200 :=
    ⟨_, boot_eq_ok_iff.mpr ⟨by decide, hsize, rfl⟩, rfl, by decide⟩
  have hjump : on.instruction? = some (.jump 0xFFE) :=
    instruction?_of_loaded (k := 0) hm (congrArg UInt16.toNat hpc) (by decide) hbytes.1 hbytes.2.1
      (by decide)
  let m := on.act (.tick .released)
  have hstep : m = on.advance.jump 0xFFE := by
    change (on.step .released).machine = _
    rw [step_of_done hjump rfl]
  have hm' : m.memory = .loaded Font.glyphs rom := by
    rw [hstep]
    exact hm
  have hpc' : m.pc = 0xFFE := by
    rw [hstep]
    exact (by decide : wrap 0xFFE = 0xFFE)
  have hw : m.fetch = .ofDigits 0xF 0x1 0x0 0xA := by
    rw [fetch_of_loaded (k := 3582) hm' (by rw [hpc']; rfl) (by decide) hbytes.2.2.1 hbytes.2.2.2]
    decide
  have hidle : ∀ a ∈ [Action.tick .released, .pulse, .tick .released], a.Idle := by
    simp [Action.Idle, Keypad.isEmpty, Keypad.released]
  have hreach : m.Reachable := (Reachable.boot hboot).act _
  obtain ⟨-, hwaited, hends⟩ := key_wait_stands_still hreach hw hidle
  obtain ⟨key, -, hkey, hlowest, hafter⟩ := hends (.ofList [0xB,0x5]) (by decide)
  have hfirst : (Keypad.ofList [0xB,0x5]).first? = some 5 := by decide
  have hfive : key = 5 := by
    rw [Keypad.first?_eq_some_iff.mpr ⟨hkey, hlowest⟩] at hfirst
    exact Option.some.inj hfirst
  refine ⟨m, hreach, hpc', hw, congrArg Prod.fst hwaited, ?_⟩
  rw [hafter, hfive, hpc']
  refine ⟨rfl, ?_, rfl⟩
  simp [reg]

end Machine
end Chip8
