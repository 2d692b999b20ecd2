import Chip8.Proofs.Machine.Arithmetic
import Chip8.Proofs.Machine.Subroutine

/-! Two ways to tell that an addition takes the index out of the memory. The instruction raises its
flag by the sum as a number; whoever looks at the index afterwards sees what sixteen bits have kept
of that sum. They tell the same of every sum that fits, and a program that goes on adding comes to
one that does not. -/
namespace Chip8

namespace Machine

variable {m : Machine} {held : Keypad} {x : Fin 16} {i : Nat}

lemma indexIsOut_addIndex (m : Machine) (value : UInt8) :
    (m.addIndex value).indexIsOut = decide (0xFFF < (m.index.toNat+value.toNat) % 65536) := by
  rw [← toNat_addIndex]
  rfl

/-- Sixteen bits show that a sum is out of the memory unless they lose it. -/
lemma indexIsOut_addIndex_iff (m : Machine) (value : UInt8) :
    (m.addIndex value).indexIsOut = decide (0xFFF < m.index.toNat+value.toNat) ↔
      m.index.toNat+value.toNat < 65536 := by
  have hindex := m.index.toNat_lt
  have hvalue := value.toNat_lt
  rw [indexIsOut_addIndex, decide_eq_decide]
  omega

/-- A register that is not the flag is added as it was. -/
lemma step_of_addIndex_plain (hw : m.fetch = .ofDigits 0xF x 0x1 0xE)
    (hx : x ≠ RegisterFile.flag) (held : Keypad) :
    let flagged := m.advance.setFlag (0xFFF < m.index.toNat+(m.reg x).toNat)
    m.step held = ⟨flagged.addIndex (m.reg x), .ok (), 0⟩ := by
  intro flagged
  have hreg : flagged.reg x = m.reg x := by
    apply UInt8.toNat_inj.mp
    rw [toNat_reg_setFlag, operand_of_ne hx]
    rfl
  rw [step_of_addIndex hw, hreg]

lemma flag_of_addIndex (hw : m.fetch = .ofDigits 0xF x 0x1 0xE) (hx : x ≠ RegisterFile.flag)
    (held : Keypad) :
    ((m.step held).machine.reg RegisterFile.flag).toNat =
      (decide (0xFFF < m.index.toNat+(m.reg x).toNat)).toNat := by
  rw [step_of_addIndex_plain hw hx]
  exact (toNat_reg_setFlag m.advance _ _).trans (if_pos rfl)

/-! ### A program that goes on adding -/

/-- Adds 255 to the index again and again. -/
def climb : Array UInt8 := #[0x60,0xFF,0xF0,0x1E,0x12,0x02]

/-- A machine that is about to add, with the index at `i`. -/
structure Climbing (i : Nat) (m : Machine) : Prop where
  memory : m.memory = .loaded Font.glyphs climb
  pc_eq : m.pc = 0x202
  reg_eq : m.reg 0 = 0xFF
  index_eq : m.index.toNat = i

namespace Climbing

lemma fetch_eq (h : Climbing i m) : m.fetch = .ofDigits 0xF 0x0 0x1 0xE := by
  have hpc : m.pc.toNat = Memory.programStart+2 := congrArg UInt16.toNat h.pc_eq
  rw [fetch_of_loaded h.memory hpc (by decide) rfl rfl]
  decide

lemma toNat_reg (h : Climbing i m) : (m.reg 0).toNat = 255 := by
  rw [h.reg_eq]
  rfl

/-- An addition and the jump back to it. -/
lemma round (h : Climbing i m) :
    Climbing ((i+255) % 65536) (m.acts [.tick .released,.tick .released]) := by
  let added := (m.step .released).machine
  have hadd : added =
      (m.advance.setFlag (0xFFF < m.index.toNat+(m.reg 0).toNat)).addIndex (m.reg 0) := by
    change (m.step .released).machine = _
    rw [step_of_addIndex_plain h.fetch_eq (by decide)]
  have hmemory : added.memory = .loaded Font.glyphs climb := by
    rw [hadd]
    exact h.memory
  have hpc : added.pc.toNat = Memory.programStart+4 := by
    rw [hadd]
    exact m.toNat_advance_pc.trans (by rw [h.pc_eq]; rfl)
  have hjump : added.instruction? = some (.jump 0x202) :=
    instruction?_of_loaded hmemory hpc (by decide) rfl rfl (by decide)
  have hround : m.acts [.tick .released,.tick .released] = added.advance.jump 0x202 :=
    congrArg Step.machine (step_of_done hjump rfl .released)
  rw [hround]
  refine ⟨hmemory, (by decide : wrap 0x202 = 0x202), ?_, ?_⟩
  · rw [hadd]
    exact (RegisterFile.get_setFlag ..).trans ((if_neg (by decide)).trans h.reg_eq)
  · rw [← h.index_eq, ← h.toNat_reg, ← m.toNat_addIndex, hadd]
    rfl

end Climbing

/-- Round by round the index goes through the multiples of 255. -/
lemma exists_climbing (n : Nat) : ∃ m : Machine, m.Reachable ∧ Climbing (255*n % 65536) m := by
  induction n with
  | zero =>
    -- only these facts are kept of the machine that is switched on, so that its memory stays folded
    obtain ⟨on, hboot, hm, hpc, hindex⟩ : ∃ on, boot Font.glyphs climb (.ofSeed 0) = .ok on ∧
        on.memory = .loaded Font.glyphs climb ∧ on.pc = 0x200 ∧ on.index = 0 :=
      ⟨_, boot_eq_ok_iff.mpr ⟨by decide, by decide, rfl⟩, rfl, by decide, rfl⟩
    have hset : on.instruction? = some (.setByte 0 0xFF) :=
      instruction?_of_loaded (k := 0) hm (congrArg UInt16.toNat hpc) (by decide) rfl rfl (by decide)
    have hact : on.act (.tick .released) = on.advance.setReg 0 0xFF :=
      congrArg Step.machine (step_of_done hset rfl .released)
    refine ⟨on.act (.tick .released), (Reachable.boot hboot).act _, ?_⟩
    rw [hact]
    refine ⟨hm, ?_, (RegisterFile.get_set ..).trans (if_pos rfl), congrArg UInt16.toNat hindex⟩
    change wrap (on.pc+2) = 0x202
    rw [hpc]
    decide
  | succ n ih =>
    obtain ⟨m, hm, hclimb⟩ := ih
    refine ⟨_, hm.acts [.tick .released,.tick .released], ?_⟩
    have hnext : (255*n % 65536+255) % 65536 = 255*(n+1) % 65536 := by omega
    exact hnext ▸ hclimb.round

/-! ### The flag and the index -/

/-- The flag that an addition to the index leaves behind agrees with the index it leaves behind
exactly if the sum fits into sixteen bits. Any other sum raises the flag, and the index has come
round to an address of the memory. -/
theorem index_flag_agrees_iff (hw : m.fetch = .ofDigits 0xF x 0x1 0xE)
    (hx : x ≠ RegisterFile.flag) (held : Keypad) :
    let slot := m.step held
    let flag := (slot.machine.reg RegisterFile.flag).toNat
    let sum := m.index.toNat+(m.reg x).toNat
    let added := m.addIndex (m.reg x)
    slot.result = .ok () ∧ slot.machine.index = added.index ∧
    flag = (decide (0xFFF < sum)).toNat ∧
    (flag = added.indexIsOut.toNat ↔ sum < 65536) ∧
    (65536 ≤ sum → flag = 1 ∧ added.indexIsOut = false ∧ added.index.toNat = sum-65536) := by
  intro slot flag sum added
  have hslot := step_of_addIndex_plain hw hx held
  have hflag : flag = (decide (0xFFF < sum)).toNat := flag_of_addIndex hw hx held
  have hindex := m.index.toNat_lt
  have hvalue := (m.reg x).toNat_lt
  refine ⟨congrArg Step.result hslot, congrArg (fun s => s.machine.index) hslot, hflag, ?_, ?_⟩
  · have hbits : ∀ a b : Bool, a.toNat = b.toNat ↔ b = a := by decide
    rw [hflag, hbits]
    exact m.indexIsOut_addIndex_iff (m.reg x)
  · intro hsum
    have hadded : added.index.toNat = sum-65536 := by
      rw [toNat_addIndex]
      omega
    refine ⟨?_, ?_, hadded⟩
    · rw [hflag, decide_eq_true (by omega)]
      rfl
    · rw [indexIsOut_addIndex]
      exact decide_eq_false (by omega)

/-- After 256 rounds the next addition comes to 65535, the highest index there is. The flag and the
index both show that it is out of the memory. -/
theorem index_flag_agrees_iff_at_limit :
    ∃ m : Machine, m.Reachable ∧ m.fetch = .ofDigits 0xF 0x0 0x1 0xE ∧
      0 ≠ RegisterFile.flag ∧ m.index.toNat+(m.reg 0).toNat = 65535 ∧
      ((m.step .released).machine.reg RegisterFile.flag).toNat = 1 ∧
      (m.addIndex (m.reg 0)).indexIsOut = true := by
  obtain ⟨m, hm, hclimb⟩ := exists_climbing 256
  have hne : 0 ≠ RegisterFile.flag := by decide
  have hsum : m.index.toNat+(m.reg 0).toNat = 65535 := by
    rw [hclimb.index_eq, hclimb.toNat_reg]
  obtain ⟨-, -, hflag, hagrees, -⟩ := index_flag_agrees_iff hclimb.fetch_eq hne .released
  have hraised : ((m.step .released).machine.reg RegisterFile.flag).toNat = 1 := by
    rw [hflag, hsum]
    rfl
  refine ⟨m, hm, hclimb.fetch_eq, hne, hsum, hraised, ?_⟩
  have hout := hagrees.mpr (by omega)
  rw [hraised] at hout
  exact Bool.toNat_eq_one.mp hout.symm

/-- One round later the flag is raised by an addition after which the index says nothing of it. -/
theorem raised_flag_with_index_inside :
    ∃ m : Machine, m.Reachable ∧ m.fetch = .ofDigits 0xF 0x0 0x1 0xE ∧
      m.index = 0xFFFF ∧ m.reg 0 = 0xFF ∧
      ((m.step .released).machine.reg RegisterFile.flag).toNat = 1 ∧
      (m.addIndex (m.reg 0)).indexIsOut = false := by
  obtain ⟨m, hm, hclimb⟩ := exists_climbing 257
  have hindex : m.index.toNat = 65535 := hclimb.index_eq
  refine ⟨m, hm, hclimb.fetch_eq, UInt16.toNat_inj.mp hindex, hclimb.reg_eq, ?_, ?_⟩
  · rw [flag_of_addIndex hclimb.fetch_eq (by decide), hindex, hclimb.toNat_reg]
    rfl
  · rw [indexIsOut_addIndex, hindex, hclimb.toNat_reg]
    rfl

end Machine
end Chip8
