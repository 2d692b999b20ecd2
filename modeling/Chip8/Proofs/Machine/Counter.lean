import Chip8.Proofs.Keypad
import Chip8.Proofs.Machine.Effect
import Chip8.Proofs.Machine.Subroutine

/-! Where a machine goes on, word by word. A slot moves the counter behind its word before anything
else; a jump overwrites it, a skip moves it on once more and the wait for a key moves it back. Each
of these cuts the counter to the memory, so that what is left is plain arithmetic modulo 4096. -/
namespace Chip8

/-- The instructions that move the counter once it stands behind them. -/
def Instruction.Steers : Instruction → Prop
  | .ret | .jump _ | .call _ | .jumpOffset _ | .awaitKey _ => True
  | .skipEqualByte _ _ | .skipUnequalByte _ _ | .skipEqual _ _ | .skipUnequal _ _ => True
  | .skipHeld _ | .skipNotHeld _ => True
  | _ => False

namespace Machine

/-- The place behind the word a machine stands on, or behind the next one too. -/
def behind (m : Machine) (skips : Bool) : Nat :=
  if skips then (m.pc.toNat+4) % 4096 else (m.pc.toNat+2) % 4096

/-- Whether the register names a key of the pad that is held. -/
def Presses (m : Machine) (held : Keypad) (x : Fin 16) : Prop :=
  m.reg x ≤ 0xF ∧ held.mask.toNat.testBit (m.reg x).toNat = true

instance {m : Machine} {held : Keypad} {x : Fin 16} : Decidable (m.Presses held x) :=
  inferInstanceAs (Decidable (_ ∧ _))

/-- Where a machine goes on from a word that runs. -/
def nextPc (m : Machine) (held : Keypad) : Nat :=
  let w := m.fetch.split
  match w.kind with
  | 0x0 => if w.nn = 0xEE then (m.stack.frames.headD 0).toNat % 4096 else m.behind false
  | 0x1 | 0x2 => w.nnn.toNat
  | 0x3 => m.behind (m.reg w.x = w.nn)
  | 0x4 => m.behind (m.reg w.x ≠ w.nn)
  | 0x5 => m.behind (m.reg w.x = m.reg w.y)
  | 0x9 => m.behind (m.reg w.x ≠ m.reg w.y)
  | 0xB => (w.nnn.toNat+(m.reg RegisterFile.first).toNat) % 4096
  | 0xE => if w.nn = 0x9E then m.behind (m.Presses held w.x) else m.behind (¬ m.Presses held w.x)
  | 0xF => if w.nn = 0x0A ∧ held.mask = 0 then m.pc.toNat % 4096 else m.behind false
  | _ => m.behind false

variable {m after : Machine} {held : Keypad} {i : Instruction}

/-! ### Moves of the counter -/

lemma toNat_pc_skipIf (m : Machine) (skips : Bool) :
    (m.advance.skipIf skips).pc.toNat = m.behind skips := by
  cases skips with
  | false => exact m.toNat_advance_pc
  | true =>
    change m.advance.advance.pc.toNat = (m.pc.toNat+4) % 4096
    rw [toNat_advance_pc, toNat_advance_pc]
    omega

/-- Moving back cancels moving on, up to the size of the memory. -/
lemma toNat_pc_rewind (m : Machine) : m.advance.rewind.pc.toNat = m.pc.toNat % 4096 := by
  have htwo : (2 : UInt16).toNat = 2 := rfl
  rw [rewind, toNat_wrap, UInt16.toNat_sub, toNat_advance_pc, htwo]
  omega

lemma toNat_wrap_of_lt {w : UInt16} (h : w.toNat < 4096) : (wrap w).toNat = w.toNat := by
  rw [toNat_wrap, Nat.mod_eq_of_lt h]

lemma toNat_pc_jump_add (m : Machine) (nnn : UInt16) (value : UInt8) :
    (m.jump (nnn+value.toUInt16)).pc.toNat = (nnn.toNat+value.toNat) % 4096 := by
  have hv := value.toNat_lt
  rw [jump, toNat_wrap, UInt16.toNat_add, UInt8.toNat_toUInt16]
  omega

lemma isHeld_eq (m : Machine) (held : Keypad) (x : Fin 16) :
    held.isHeld (m.reg x) = decide (m.Presses held x) := by
  apply Bool.eq_iff_iff.mpr
  rw [decide_eq_true_iff]
  exact Keypad.isHeld_iff

/-! ### Instructions -/

lemma execute_pc {opcode : Opcode} {origin : UInt16} (hi : ¬ i.Steers)
    (h : (m.execute opcode origin i).result? held = some after) : after.pc = m.pc := by
  cases i with
  | addIndex x | pointGlyph x =>
    obtain ⟨value, rfl⟩ := result?_ofChecked h
    rfl
  | ret | jump _ | call _ | jumpOffset _ | awaitKey _ | skipEqualByte _ _ | skipUnequalByte _ _
  | skipEqual _ _ | skipUnequal _ _ | skipHeld _ | skipNotHeld _ => exact absurd trivial hi
  | _ =>
    cases h
    rfl

lemma nextPc_of_not_steers (hw : Instruction.ofFields m.fetch.split = some i) (hi : ¬ i.Steers)
    (held : Keypad) : m.nextPc held = m.behind false := by
  obtain ⟨hkind, hnn⟩ := Instruction.kind_of_ofFields hw
  cases i with
  | ret | jump _ | call _ | jumpOffset _ | awaitKey _ | skipEqualByte _ _ | skipUnequalByte _ _
  | skipEqual _ _ | skipUnequal _ _ | skipHeld _ | skipNotHeld _ => exact absurd trivial hi
  | clearScreen =>
    have hk : m.fetch.split.kind = 0x0 := Fin.ext hkind
    simp [nextPc, hk, hnn _ rfl]
  | getDelay _ | setDelay _ | setSound _ | addIndex _ | pointGlyph _ | storeDecimal _
  | storeRegisters _ | loadRegisters _ =>
    have hk : m.fetch.split.kind = 0xF := Fin.ext hkind
    simp [nextPc, hk, hnn _ rfl]
  | _ =>
    -- the leading digits of these words are none of those the table names
    simp only [nextPc]
    split
    all_goals first
      | rfl
      | (have hk : m.fetch.split.kind = _ := ‹_›
         exact absurd (hk ▸ hkind) nofun)

/-- A slot goes on where the table says. The instructions that steer are told apart by the digits
the table looks at; the others leave the counter behind their word. -/
theorem step_pc (hi : m.instruction? = some i) (hok : (m.step held).result = .ok ()) :
    (m.step held).machine.pc.toNat = m.nextPc held := by
  have hw : Instruction.ofFields m.fetch.split = some i := m.instruction?_eq ▸ hi
  obtain ⟨j, hj, he⟩ := step_ok_iff.mp hok
  obtain rfl := Option.some.inj (hi.symm.trans hj)
  by_cases hsteers : i.Steers
  case neg =>
    rw [nextPc_of_not_steers hw hsteers, execute_pc hsteers he]
    exact m.toNat_advance_pc
  obtain ⟨hkind, hnn⟩ := Instruction.kind_of_ofFields hw
  have hreads := Instruction.reads_of_ofFields hw
  cases i with
  | ret =>
    have hk : m.fetch.split.kind = 0x0 := Fin.ext hkind
    obtain ⟨address, hframes, hpc⟩ := step_ret hi hok
    rw [hpc, toNat_wrap]
    simp [nextPc, hk, hnn _ rfl, hframes]
  | jump nnn =>
    have hk : m.fetch.split.kind = 0x1 := Fin.ext hkind
    have hpc : (m.step held).machine.pc = wrap nnn := congrArg pc (Option.some.inj he).symm
    rw [hpc, toNat_wrap_of_lt (address_lt hi rfl), hreads]
    simp [nextPc, hk]
  | call nnn =>
    have hk : m.fetch.split.kind = 0x2 := Fin.ext hkind
    rw [(step_call hi hok).2, toNat_wrap_of_lt (address_lt hi rfl), hreads]
    simp [nextPc, hk]
  | jumpOffset nnn =>
    have hk : m.fetch.split.kind = 0xB := Fin.ext hkind
    rw [execute_jumpOffset _ _ _ (address_lt hi rfl)] at he
    rw [← Option.some.inj he, toNat_pc_jump_add, hreads]
    simp only [nextPc, hk]
    rfl
  | skipEqualByte x nn =>
    have hk : m.fetch.split.kind = 0x3 := Fin.ext hkind
    obtain ⟨rfl, rfl⟩ := hreads
    rw [← Option.some.inj he, toNat_pc_skipIf]
    simp only [nextPc, hk]
    rfl
  | skipUnequalByte x nn =>
    have hk : m.fetch.split.kind = 0x4 := Fin.ext hkind
    obtain ⟨rfl, rfl⟩ := hreads
    rw [← Option.some.inj he, toNat_pc_skipIf]
    simp only [nextPc, hk, ne_eq, decide_not]
    rfl
  | skipEqual x y =>
    have hk : m.fetch.split.kind = 0x5 := Fin.ext hkind
    obtain ⟨rfl, rfl⟩ := hreads
    rw [← Option.some.inj he, toNat_pc_skipIf]
    simp only [nextPc, hk]
    rfl
  | skipUnequal x y =>
    have hk : m.fetch.split.kind = 0x9 := Fin.ext hkind
    obtain ⟨rfl, rfl⟩ := hreads
    rw [← Option.some.inj he, toNat_pc_skipIf]
    simp only [nextPc, hk, ne_eq, decide_not]
    rfl
  | skipHeld x =>
    have hk : m.fetch.split.kind = 0xE := Fin.ext hkind
    cases hreads
    rw [← Option.some.inj he, toNat_pc_skipIf]
    simp only [nextPc, hk, hnn _ rfl, ← isHeld_eq]
    rfl
  | skipNotHeld x =>
    have hk : m.fetch.split.kind = 0xE := Fin.ext hkind
    have hne : m.fetch.split.nn ≠ 0x9E := by
      rw [hnn _ rfl]
      decide
    cases hreads
    rw [← Option.some.inj he, toNat_pc_skipIf]
    simp only [nextPc, hk, hne, decide_not, ← isHeld_eq]
    rfl
  | awaitKey x =>
    have hk : m.fetch.split.kind = 0xF := Fin.ext hkind
    rw [← Option.some.inj he]
    dsimp only
    cases hfirst : held.first? with
    | none =>
      rw [toNat_pc_rewind]
      simp [nextPc, hk, hnn _ rfl, Keypad.first?_eq_none_iff.mp hfirst]
    | some key =>
      have hmask : held.mask ≠ 0 := by
        rw [Ne, ← Keypad.first?_eq_none_iff, hfirst]
        exact nofun
      simp only [nextPc, hk, hmask, and_false]
      exact m.toNat_advance_pc
  | _ => exact hsteers.elim

/-- Every slot that runs goes on where the table says, wherever the counter stands. A return takes
its target off the call stack, and a call leaves the place behind itself there. -/
theorem next_pc (hok : (m.step held).result = .ok ()) :
    let w := m.fetch.split
    let after := (m.step held).machine
    after.pc.toNat = m.nextPc held ∧
    (w.kind = 0x0 → w.nn = 0xEE →
      ∃ address, m.stack.frames = address :: after.stack.frames ∧
        after.pc.toNat = address.toNat % 4096) ∧
    (w.kind = 0x2 → after.stack.frames = .ofNat ((m.pc.toNat+2) % 4096) :: m.stack.frames) := by
  intro w after
  obtain ⟨i, hi, -⟩ := step_ok_iff.mp hok
  refine ⟨step_pc hi hok, fun hk hnn => ?_, fun hk => ?_⟩
  · have hret : m.instruction? = some .ret :=
      m.instruction?_eq.trans (Instruction.ofFields_eq_ret_iff.mpr ⟨hk, hnn⟩)
    obtain ⟨address, hframes, hpc⟩ := step_ret hret hok
    exact ⟨address, hframes, by rw [hpc, toNat_wrap]⟩
  · obtain ⟨nnn, hw⟩ := Instruction.ofFields_eq_call_iff.mpr hk
    rw [(step_call (m.instruction?_eq.trans hw) hok).1, ← toNat_advance_pc, UInt16.ofNat_toNat]

/-- A skip in the last two bytes of the memory, for a key that is not held because its number is
none of the pad's, though the key of its last digit is down: the machine goes on at the third
byte. -/
theorem next_pc_across_end :
    ∃ m : Machine, m.fetch = .ofDigits 0xE 0x1 0xA 0x1 ∧ m.pc = 0xFFFE ∧ m.reg 1 = 0x12 ∧
      (m.step (Keypad.released.hold 2)).result = .ok () ∧
      (m.step (Keypad.released.hold 2)).machine.pc = 2 := by
  obtain ⟨m, hm, hpc, h1⟩ : ∃ m : Machine,
      m.memory = (Memory.blank.write 4094 0xE1).write 4095 0xA1 ∧ m.pc = 0xFFFE ∧
        m.reg 1 = 0x12 := by
    refine ⟨{ powerOn ((Memory.blank.write 4094 0xE1).write 4095 0xA1) (.ofSeed 0) with
      pc := 0xFFFE, registers := RegisterFile.zero.set 1 0x12 }, rfl, rfl, ?_⟩
    simp [reg]
  have hw : m.fetch = .ofDigits 0xE 0x1 0xA 0x1 := by
    have hword := m.memory.toNat_readWord m.pc
    have hleft : (.ofNat 4096 (0xFFFE : UInt16).toNat : Address) = 4094 := by decide
    have hright : (.ofNat 4096 ((0xFFFE : UInt16).toNat+1) : Address) = 4095 := by decide
    rw [hpc, hleft, hright, hm] at hword
    simp only [Memory.read_write] at hword
    rw [fetch, hpc, hm]
    exact congrArg Opcode.mk (UInt16.toNat_inj.mp hword)
  have hi : m.instruction? = some (.skipNotHeld 1) := instruction?_of_digits hw
  have hok : (m.step (Keypad.released.hold 2)).result = .ok () := by
    rw [step_of_some hi]
    rfl
  have hnot : ¬ m.Presses (Keypad.released.hold 2) 1 := by
    rw [Presses, h1]
    decide
  have hsplit : m.fetch.split = ⟨0xE, 0x1, 0xA, 0x1, 0xA1, 0x1A1⟩ := by
    rw [hw]
    decide
  have hnext : m.nextPc (Keypad.released.hold 2) = 2 := by
    simp [nextPc, hsplit, hnot, behind, hpc]
  have hto := (next_pc hok).1
  rw [hnext] at hto
  exact ⟨m, hw, hpc, h1, hok, UInt16.toNat_inj.mp hto⟩

end Machine
end Chip8
