import Chip8.Proofs.Machine.Effect

/-! Instructions that report a flag, whichever registers they are given. The flag is computed from
the operands as they were and is written first; then the operands are read again, and one that is
kept in the flag register counts as the flag. With no operand there the laws are those of plain
arithmetic modulo 256. -/
namespace Chip8

namespace Machine

/-- What a register counts once the flag has been written. -/
def operand (m : Machine) (f : Bool) (r : Fin 16) : Nat :=
  if r = RegisterFile.flag then f.toNat else (m.reg r).toNat

/-- How a slot ends that computes `z` of the registers `x` and `y` into `x` and reports `f`. A
result that goes to the flag register takes the place of the flag. -/
structure Reports (m : Machine) (slot : Step) (x y : Fin 16) (f : Bool) (z : Int → Int → Int) :
    Prop where
  ok : slot.result = .ok ()
  value : ((slot.machine.reg x).toNat : Int) = z (m.operand f x) (m.operand f y)
  plain : x ≠ RegisterFile.flag → y ≠ RegisterFile.flag →
    ((slot.machine.reg x).toNat : Int) = z (m.reg x).toNat (m.reg y).toNat
  flag : x ≠ RegisterFile.flag → (slot.machine.reg RegisterFile.flag).toNat = f.toNat
  others : ∀ r, r ≠ x → r ≠ RegisterFile.flag → slot.machine.reg r = m.reg r
  index : slot.machine.index = m.index

variable {m : Machine} {held : Keypad} {x y : Fin 16} {f : Bool}

lemma operand_of_ne {r : Fin 16} (hr : r ≠ RegisterFile.flag) (f : Bool) :
    m.operand f r = (m.reg r).toNat := if_neg hr

lemma toNat_reg_setFlag (m : Machine) (f : Bool) (r : Fin 16) :
    ((m.setFlag f).reg r).toNat = m.operand f r := by
  rw [reg, setFlag, RegisterFile.get_setFlag, operand]
  by_cases hr : r = RegisterFile.flag
  · rw [if_pos hr.symm, if_pos hr]
    cases f <;> rfl
  · rw [if_neg (Ne.symm hr), if_neg hr]
    rfl

/-- What these instructions come to: a flag is written, and then a register. -/
lemma reports_of_execute {i : Instruction} {g : UInt8 → UInt8 → UInt8} {z : Int → Int → Int}
    (hi : m.instruction? = some i)
    (he : m.advance.execute m.fetch m.pc i =
      let flagged := m.advance.setFlag f
      .done (flagged.setReg x (g (flagged.reg x) (flagged.reg y))))
    (hz : ∀ a b, ((g a b).toNat : Int) = z a.toNat b.toNat) (held : Keypad) :
    m.Reports (m.step held) x y f z := by
  have hs := step_of_done hi he held
  have hreg : ∀ r, (m.step held).machine.reg r =
      if x = r then g ((m.setFlag f).reg x) ((m.setFlag f).reg y) else (m.setFlag f).reg r := by
    intro r
    rw [hs]
    exact RegisterFile.get_set _ x r _
  have hvalue : ((m.step held).machine.reg x).toNat = z (m.operand f x) (m.operand f y) := by
    rw [hreg, if_pos rfl, hz, toNat_reg_setFlag, toNat_reg_setFlag]
  refine ⟨by rw [hs], hvalue, fun hx hy => ?_, fun hx => ?_, fun r hx hr => ?_, by rw [hs]; rfl⟩
  · rw [hvalue, operand_of_ne hx, operand_of_ne hy]
  · rw [hreg, if_neg hx, toNat_reg_setFlag, operand, if_pos rfl]
  · rw [hreg, if_neg (Ne.symm hx)]
    apply UInt8.toNat_inj.mp
    rw [toNat_reg_setFlag, operand_of_ne hr]

/-- A bit written as a byte is a flag. -/
lemma setReg_flag {bit : UInt8} (h : bit.toNat = f.toNat) (m : Machine) :
    m.setReg RegisterFile.flag bit = m.setFlag f := by
  have hbit : bit = if f then 1 else 0 := by
    apply UInt8.toNat_inj.mp
    rw [h]
    cases f <;> rfl
  rw [hbit]
  rfl

/-! ### Bytes -/

lemma toNat_lowBit (a : UInt8) : (a &&& 1).toNat = (decide (a.toNat % 2 = 1)).toNat := by
  have hone : (1 : UInt8).toNat = 1 := rfl
  rw [UInt8.toNat_and, hone, Nat.and_one_is_mod]
  rcases Nat.mod_two_eq_zero_or_one a.toNat with h | h <;> simp [h]

lemma toNat_highBit (a : UInt8) : (a >>> 7 &&& 1).toNat = (decide (128 ≤ a.toNat)).toNat := by
  have hlt := a.toNat_lt
  have hshift : (a >>> 7).toNat = a.toNat / 128 := by
    rw [UInt8.toNat_shiftRight]
    exact Nat.shiftRight_eq_div_pow a.toNat 7
  rw [toNat_lowBit, hshift]
  congr 2
  rw [eq_iff_iff]
  omega

lemma toNat_shiftRight_one (a : UInt8) : (a >>> 1).toNat = a.toNat / 2 := by
  rw [UInt8.toNat_shiftRight]
  exact Nat.shiftRight_eq_div_pow a.toNat 1

lemma toNat_shiftLeft_one (a : UInt8) : (a <<< 1).toNat = 2*a.toNat % 256 := by
  rw [UInt8.toNat_shiftLeft]
  change a.toNat <<< 1 % 256 = _
  rw [Nat.shiftLeft_eq]
  omega

/-! ### The instructions -/

lemma reports_add (hw : m.fetch = .ofDigits 0x8 x y 0x4) (held : Keypad) :
    m.Reports (m.step held) x y (255 < (m.reg x).toNat+(m.reg y).toNat)
      fun a b => (a+b) % 256 := by
  refine reports_of_execute (g := fun a b => a+b) (instruction?_of_digits hw) rfl
    (fun a b => ?_) held
  rw [UInt8.toNat_add]
  rfl

lemma reports_subtract (hw : m.fetch = .ofDigits 0x8 x y 0x5) (held : Keypad) :
    m.Reports (m.step held) x y ((m.reg y).toNat ≤ (m.reg x).toNat) fun a b => (a-b) % 256 := by
  refine reports_of_execute (g := fun a b => a-b) (instruction?_of_digits hw) rfl
    (fun a b => ?_) held
  have ha := a.toNat_lt
  have hb := b.toNat_lt
  rw [UInt8.toNat_sub]
  omega

lemma reports_subtractFrom (hw : m.fetch = .ofDigits 0x8 x y 0x7) (held : Keypad) :
    m.Reports (m.step held) x y ((m.reg x).toNat ≤ (m.reg y).toNat) fun a b => (b-a) % 256 := by
  refine reports_of_execute (g := fun a b => b-a) (instruction?_of_digits hw) rfl
    (fun a b => ?_) held
  have ha := a.toNat_lt
  have hb := b.toNat_lt
  rw [UInt8.toNat_sub]
  omega

lemma reports_shiftRight (hw : m.fetch = .ofDigits 0x8 x y 0x6) (held : Keypad) :
    m.Reports (m.step held) x y ((m.reg x).toNat % 2 = 1) fun a _ => a / 2 := by
  refine reports_of_execute (g := fun a _ => a >>> 1) (instruction?_of_digits hw) ?_
    (fun a b => ?_) held
  · rw [← setReg_flag (toNat_lowBit (m.reg x))]
    rfl
  · rw [toNat_shiftRight_one]
    rfl

lemma reports_shiftLeft (hw : m.fetch = .ofDigits 0x8 x y 0xE) (held : Keypad) :
    m.Reports (m.step held) x y (128 ≤ (m.reg x).toNat) fun a _ => 2*a % 256 := by
  refine reports_of_execute (g := fun a _ => a <<< 1) (instruction?_of_digits hw) ?_
    (fun a b => ?_) held
  · rw [← setReg_flag (toNat_highBit (m.reg x))]
    rfl
  · rw [toNat_shiftLeft_one]
    rfl

lemma step_of_addIndex (hw : m.fetch = .ofDigits 0xF x 0x1 0xE) (held : Keypad) :
    let flagged := m.advance.setFlag (0xFFF < m.index.toNat+(m.reg x).toNat)
    m.step held = ⟨flagged.addIndex (flagged.reg x), .ok (), 0⟩ := by
  have hindex := m.index.toNat_lt
  have hx := (m.reg x).toNat_lt
  have hsum : (m.index.toUInt32+(m.reg x).toUInt32).toNat = m.index.toNat+(m.reg x).toNat := by
    rw [UInt32.toNat_add, UInt16.toNat_toUInt32, UInt8.toNat_toUInt32]
    omega
  have hout : decide ((0x0FFF : UInt32) < m.index.toUInt32+(m.reg x).toUInt32) =
      decide (0xFFF < m.index.toNat+(m.reg x).toNat) := by
    rw [← hsum]
    rfl
  refine step_of_done (instruction?_of_digits hw) ?_ held
  rw [← hout]
  exact execute_addIndex m.advance m.fetch m.pc x

lemma toNat_addIndex (m : Machine) (value : UInt8) :
    (m.addIndex value).index.toNat = (m.index.toNat+value.toNat) % 65536 := by
  rw [addIndex, UInt16.toNat_add, UInt8.toNat_toUInt16]

/-- The six instructions that report a flag, for all operands and with any of them in the flag
register. The flag is computed from the operands as they were, the result from what they count once
it is written. All but the last keep their result in the register `x`; the last adds it to the
index, which has sixteen bits. -/
theorem flag_arithmetic (m : Machine) (held : Keypad) (x y : Fin 16) :
    let slot := m.step held
    let a := (m.reg x).toNat
    let b := (m.reg y).toNat
    (m.fetch = .ofDigits 0x8 x y 0x4 → m.Reports slot x y (255 < a+b) fun a b => (a+b) % 256) ∧
    (m.fetch = .ofDigits 0x8 x y 0x5 → m.Reports slot x y (b ≤ a) fun a b => (a-b) % 256) ∧
    (m.fetch = .ofDigits 0x8 x y 0x7 → m.Reports slot x y (a ≤ b) fun a b => (b-a) % 256) ∧
    (m.fetch = .ofDigits 0x8 x y 0x6 → m.Reports slot x y (a % 2 = 1) fun a _ => a / 2) ∧
    (m.fetch = .ofDigits 0x8 x y 0xE → m.Reports slot x y (128 ≤ a) fun a _ => 2*a % 256) ∧
    (m.fetch = .ofDigits 0xF x 0x1 0xE →
      let f : Bool := 0xFFF < m.index.toNat+a
      slot.result = .ok () ∧ slot.machine.index.toNat = (m.index.toNat+m.operand f x) % 65536 ∧
      (slot.machine.reg RegisterFile.flag).toNat = f.toNat ∧
      ∀ r, r ≠ RegisterFile.flag → slot.machine.reg r = m.reg r) := by
  intro slot a b
  refine ⟨fun hw => reports_add hw held, fun hw => reports_subtract hw held,
    fun hw => reports_subtractFrom hw held, fun hw => reports_shiftRight hw held,
    fun hw => reports_shiftLeft hw held, fun hw => ?_⟩
  intro f
  have hslot : slot = ⟨(m.advance.setFlag f).addIndex ((m.advance.setFlag f).reg x), .ok (), 0⟩ :=
    step_of_addIndex hw held
  have hreg : ∀ r, (slot.machine.reg r).toNat = m.operand f r := by
    intro r
    rw [hslot]
    exact m.advance.toNat_reg_setFlag f r
  refine ⟨by rw [hslot], ?_, (hreg _).trans (if_pos rfl), fun r hr => ?_⟩
  · have hoperand : ((m.advance.setFlag f).reg x).toNat = m.operand f x :=
      m.advance.toNat_reg_setFlag f x
    rw [hslot, ← hoperand]
    exact (m.advance.setFlag f).toNat_addIndex _
  · apply UInt8.toNat_inj.mp
    rw [hreg, operand_of_ne hr]

/-- A sum that is kept in the flag register, and an index moved by it. The first loses its carry to
the result; the second goes on by the flag it has just raised. -/
theorem flag_arithmetic_in_flag_register :
    (∃ m : Machine, m.fetch = .ofDigits 0x8 0xF 0x1 0x4 ∧ m.reg 0xF = 1 ∧ m.reg 1 = 255 ∧
      ((m.step .released).machine.reg 0xF).toNat = 0) ∧
    ∃ m : Machine, m.fetch = .ofDigits 0xF 0xF 0x1 0xE ∧ m.reg 0xF = 0x10 ∧ m.index = 0xFFF ∧
      (m.step .released).machine.index.toNat = 0x1000 ∧
      ((m.step .released).machine.reg 0xF).toNat = 1 := by
  constructor
  · obtain ⟨m, hm, hpc, hf, h1⟩ : ∃ m : Machine,
        m.memory = .loaded Font.glyphs #[0x8F,0x14] ∧ m.pc = 0x200 ∧ m.reg 0xF = 1 ∧
          m.reg 1 = 255 := by
      refine ⟨{ powerOn (.loaded Font.glyphs #[0x8F,0x14]) (.ofSeed 0) with
        registers := (RegisterFile.zero.set 0xF 1).set 1 255 }, rfl, by decide, ?_⟩
      simp [reg]
    have hw : m.fetch = .ofDigits 0x8 0xF 0x1 0x4 :=
      (fetch_of_start hm hpc rfl rfl).trans (by decide)
    have hvalue := ((flag_arithmetic m .released 0xF 0x1).1 hw).value
    rw [operand, operand, hf, h1] at hvalue
    exact ⟨m, hw, hf, h1, Int.ofNat.inj hvalue⟩
  · obtain ⟨m, hm, hpc, hindex, hf⟩ : ∃ m : Machine,
        m.memory = .loaded Font.glyphs #[0xFF,0x1E] ∧ m.pc = 0x200 ∧ m.index = 0xFFF ∧
          m.reg 0xF = 0x10 := by
      refine ⟨{ powerOn (.loaded Font.glyphs #[0xFF,0x1E]) (.ofSeed 0) with
        registers := RegisterFile.zero.set 0xF 0x10, index := 0xFFF }, rfl, by decide, rfl, ?_⟩
      simp [reg]
    have hw : m.fetch = .ofDigits 0xF 0xF 0x1 0xE :=
      (fetch_of_start hm hpc rfl rfl).trans (by decide)
    obtain ⟨-, hsum, hflag, -⟩ := (flag_arithmetic m .released 0xF 0x1).2.2.2.2.2 hw
    rw [operand, hindex, hf] at hsum
    rw [hindex, hf] at hflag
    exact ⟨m, hw, hf, hindex, hsum, hflag⟩

end Machine
end Chip8
