import Chip8.Proofs.Display
import Chip8.Proofs.Machine.Effect

/-! Drawing as a program sees it, with registers, memory and screen together. The sprites of a
program are lower than the screen, so that at most one bit of a sprite falls on a pixel, and drawing
toggles the pixels that are covered. Drawn once more, the sprite covers the same pixels, unless its
corner is kept in the flag register, which drawing itself writes. -/
namespace Chip8

namespace Machine

/-- The pixels under the set bits of the sprite at the index, with its corner at column `x` and row
`y`. Its rows are read around the end of the memory, and it goes on around both edges of the
screen. -/
def Covers (m : Machine) (x y height : Nat) (c : Cell) : Prop :=
  ∃ k < height, ∃ j < 8,
    (m.memory.read (m.place k)).toNat.testBit (7-j) = true ∧
      c.row.val = (y+k) % 32 ∧ c.col.val = (x+j) % 64

variable {m : Machine} {x y : UInt8} {n : Fin 16} {c : Cell}

instance {x y height : Nat} : Decidable (m.Covers x y height c) :=
  inferInstanceAs (Decidable (∃ k < height, ∃ j < 8, _))

lemma length_sprite (m : Machine) (n : Fin 16) : (m.sprite n).length = n := by
  simp [sprite]

lemma mem_cells_sprite : c ∈ Sprite.cells x y (m.sprite n) ↔ m.Covers x.toNat y.toNat n c := by
  have hrow : ∀ k (hk : k < (m.sprite n).length),
      (m.sprite n)[k] = m.memory.read (m.place k) := by
    intro k hk
    rw [length_sprite] at hk
    simp only [sprite, List.getElem_map, List.getElem_range]
    rw [m.indexed_toUInt16 (by omega)]
  rw [Sprite.mem_cells_iff]
  constructor
  · rintro ⟨k, hk, j, hj, hbit, hc⟩
    rw [hrow k hk] at hbit
    rw [length_sprite] at hk
    exact ⟨k, hk, j, hj, hbit, hc⟩
  · rintro ⟨k, hk, j, hj, hbit, hc⟩
    rw [← m.length_sprite n] at hk
    rw [← hrow k hk] at hbit
    exact ⟨k, hk, j, hj, hbit, hc⟩

lemma nodup_cells_sprite (m : Machine) (x y : UInt8) (n : Fin 16) :
    (Sprite.cells x y (m.sprite n)).Nodup := by
  apply Sprite.nodup_cells
  rw [length_sprite]
  omega

lemma isLit_draw (m : Machine) (x y : UInt8) (n : Fin 16) (c : Cell) :
    (m.draw x y n).display.screen.isLit c =
      (m.display.screen.isLit c ^^ decide (m.Covers x.toNat y.toNat n c)) := by
  change (m.display.screen.toggleAll (Sprite.cells x y (m.sprite n))).1.isLit c = _
  rw [Screen.isLit_toggleAll_of_nodup (m.nodup_cells_sprite x y n)]
  simp only [mem_cells_sprite]

lemma reg_draw (m : Machine) (x y : UInt8) (n : Fin 16) {r : Fin 16} (hr : r ≠ RegisterFile.flag) :
    (m.draw x y n).reg r = m.reg r := by
  simp [draw, reg, setFlag, hr.symm]

/-- The flag is left at one if a covered pixel was lit, and at zero if none was. -/
lemma flag_draw (m : Machine) (x y : UInt8) (n : Fin 16) :
    let hit := ∃ c, m.Covers x.toNat y.toNat n c ∧ m.display.screen.isLit c = true
    ((m.draw x y n).reg RegisterFile.flag = 1 ↔ hit) ∧
      ((m.draw x y n).reg RegisterFile.flag = 0 ↔ ¬ hit) := by
  intro hit
  have hflag : (m.draw x y n).reg RegisterFile.flag =
      if (m.display.screen.toggleAll (Sprite.cells x y (m.sprite n))).2 then 1 else 0 := by
    simp [draw, reg, setFlag, Display.draw]
    rfl
  have hhit : (m.display.screen.toggleAll (Sprite.cells x y (m.sprite n))).2 = true ↔ hit := by
    rw [Screen.toggleAll_hit_of_nodup (m.nodup_cells_sprite x y n)]
    simp only [mem_cells_sprite, hit]
  rw [hflag, ← hhit]
  cases (m.display.screen.toggleAll (Sprite.cells x y (m.sprite n))).2 <;> simp

/-! ### Drawing once more -/

section Again

variable {again : Machine} (hmemory : again.memory = m.memory) (hindex : again.index = m.index)
  (hscreen : again.display.screen = (m.draw x y n).display.screen)

include hmemory hindex

/-- The same bytes at the index are the same sprite. -/
lemma covers_congr {x y height : Nat} : again.Covers x y height c ↔ m.Covers x y height c := by
  unfold Covers place
  rw [hmemory, hindex]

include hscreen

lemma screen_draw_again : (again.draw x y n).display.screen = m.display.screen := by
  ext c
  rw [isLit_draw, hscreen, isLit_draw, decide_eq_decide.mpr (covers_congr hmemory hindex),
    Bool.xor_assoc, Bool.xor_self, Bool.xor_false]

/-- The pixels that are lit for the second drawing are those that were not for the first. -/
lemma hit_draw_again :
    (∃ c, again.Covers x.toNat y.toNat n c ∧ again.display.screen.isLit c = true) ↔
      ∃ c, m.Covers x.toNat y.toNat n c ∧ m.display.screen.isLit c = false := by
  refine exists_congr fun c => ?_
  rw [covers_congr hmemory hindex]
  refine and_congr_right fun hc => ?_
  rw [hscreen, isLit_draw, decide_eq_true hc, Bool.xor_true, Bool.not_eq_true']

end Again

/-! ### The instruction -/

lemma step_of_draw {x y : Fin 16} (hw : m.fetch = .ofDigits 0xD x y n) (held : Keypad) :
    m.step held = ⟨m.advance.draw (m.reg x) (m.reg y) n, .ok (), 0⟩ :=
  step_of_done (instruction?_of_digits hw) rfl held

/-- Drawing toggles exactly the covered pixels; the flag tells whether one of them was lit, and no
other register, no byte and not the index changes. The corner is read before the flag is cleared.
Run once more from wherever in the memory, the same instruction restores the screen and tells
whether a covered pixel was unlit at first; this needs a corner that is not kept in the flag. -/
theorem draw_toggles_covered {x y n : Fin 16} (hw : m.fetch = .ofDigits 0xD x y n)
    (held : Keypad) :
    let covered := m.Covers (m.reg x).toNat (m.reg y).toNat n
    let after := (m.step held).machine
    (m.step held).result = .ok () ∧
    (∀ c, after.display.screen.isLit c = (m.display.screen.isLit c ^^ decide (covered c))) ∧
    (after.reg RegisterFile.flag = 1 ↔ ∃ c, covered c ∧ m.display.screen.isLit c = true) ∧
    (after.reg RegisterFile.flag = 0 ↔ ¬ ∃ c, covered c ∧ m.display.screen.isLit c = true) ∧
    (∀ r, r ≠ RegisterFile.flag → after.reg r = m.reg r) ∧
    after.index = m.index ∧ after.memory = m.memory ∧
    (x ≠ RegisterFile.flag → y ≠ RegisterFile.flag → ∀ pc later,
      let again : Machine := { after with pc := pc }
      let last := (again.step later).machine
      again.fetch = .ofDigits 0xD x y n →
        last.display.screen = m.display.screen ∧
        (last.reg RegisterFile.flag = 1 ↔ ∃ c, covered c ∧ m.display.screen.isLit c = false) ∧
        (last.reg RegisterFile.flag = 0 ↔
          ¬ ∃ c, covered c ∧ m.display.screen.isLit c = false)) := by
  intro covered after
  have hstep := step_of_draw hw held
  have hafter : after = m.advance.draw (m.reg x) (m.reg y) n := congrArg Step.machine hstep
  have hreg : ∀ r, r ≠ RegisterFile.flag → after.reg r = m.reg r := by
    intro r hr
    rw [hafter]
    exact m.advance.reg_draw (m.reg x) (m.reg y) n hr
  have hindex : after.index = m.index := by rw [hafter]; rfl
  have hmemory : after.memory = m.memory := by rw [hafter]; rfl
  have hscreen : after.display.screen = (m.draw (m.reg x) (m.reg y) n).display.screen := by
    rw [hafter]
    rfl
  obtain ⟨hone, hzero⟩ := m.advance.flag_draw (m.reg x) (m.reg y) n
  rw [← hafter] at hone hzero
  refine ⟨by rw [hstep], fun c => ?_, hone, hzero, hreg, hindex, hmemory, ?_⟩
  · rw [hscreen]
    exact m.isLit_draw (m.reg x) (m.reg y) n c
  · intro hx hy pc later again last hagain
    have hlast : last = again.advance.draw (m.reg x) (m.reg y) n := by
      rw [← hreg x hx, ← hreg y hy]
      exact congrArg Step.machine (step_of_draw hagain later)
    have hmemory' : again.advance.memory = m.memory := hmemory
    have hindex' : again.advance.index = m.index := hindex
    obtain ⟨hone', hzero'⟩ := again.advance.flag_draw (m.reg x) (m.reg y) n
    rw [← hlast, hit_draw_again hmemory' hindex' hscreen] at hone' hzero'
    refine ⟨?_, hone', hzero'⟩
    rw [hlast]
    exact screen_draw_again hmemory' hindex' hscreen

/-- A sprite over the lower right corner of the screen, read with an index that points past the last
address. One of its pixels was lit, the others were not. -/
theorem draw_toggles_covered_over_corner :
    ∃ m : Machine, m.memory = .loaded Font.glyphs #[0xD0,0x12,0x81,0xC0] ∧ m.index = 0x1202 ∧
      m.reg 0 = 60 ∧ m.reg 1 = 31 ∧ m.fetch = .ofDigits 0xD 0 1 2 ∧
      m.display.screen.isLit (.wrap 3 31) = true ∧ m.display.screen.isLit (.wrap 61 0) = false ∧
      let after := (m.step .released).machine
      let last := ({ after with pc := m.pc }.step .released).machine
      after.display.screen.isLit (.wrap 3 31) = false ∧
      after.display.screen.isLit (.wrap 61 0) = true ∧ after.reg RegisterFile.flag = 1 ∧
      last.display.screen = m.display.screen ∧ last.reg RegisterFile.flag = 1 := by
  -- of the machine only these facts are kept, so that nothing below unfolds its memory
  obtain ⟨m, hm, hpc, hindex, hx, hy, hlit, hunlit⟩ : ∃ m : Machine,
      m.memory = .loaded Font.glyphs #[0xD0,0x12,0x81,0xC0] ∧ m.pc = 0x200 ∧ m.index = 0x1202 ∧
        m.reg 0 = 60 ∧ m.reg 1 = 31 ∧ m.display.screen.isLit (.wrap 3 31) = true ∧
          m.display.screen.isLit (.wrap 61 0) = false := by
    refine ⟨{ powerOn (.loaded Font.glyphs #[0xD0,0x12,0x81,0xC0]) (.ofSeed 0) with
      registers := (RegisterFile.zero.set 0 60).set 1 31, index := 0x1202
      display := ⟨Screen.blank.toggle (.wrap 3 31), false⟩ }, rfl, by decide, rfl, ?_⟩
    simp [reg, Cell.wrap]
  have hw : m.fetch = .ofDigits 0xD 0 1 2 :=
    (fetch_of_start hm hpc rfl rfl).trans (by decide)
  have hupper : m.memory.read (m.place 0) = 0x81 := by
    rw [hm, place, hindex]
    exact Memory.read_loaded (k := 2) (by decide) rfl
  have hlower : m.memory.read (m.place 1) = 0xC0 := by
    rw [hm, place, hindex]
    exact Memory.read_loaded (k := 3) (by decide) rfl
  have hright : m.Covers (m.reg 0).toNat (m.reg 1).toNat (2 : Fin 16) (.wrap 3 31) := by
    refine ⟨0, by decide, 7, by decide, ?_⟩
    rw [hupper, hx, hy]
    decide
  have hbelow : m.Covers (m.reg 0).toNat (m.reg 1).toNat (2 : Fin 16) (.wrap 61 0) := by
    refine ⟨1, by decide, 1, by decide, ?_⟩
    rw [hlower, hx, hy]
    decide
  obtain ⟨-, hpixels, hflag, -, -, -, hmemory, hagain⟩ := draw_toggles_covered hw .released
  have hw' : { (m.step .released).machine with pc := m.pc }.fetch = .ofDigits 0xD 0 1 2 := by
    rw [← hw, fetch, hmemory, fetch]
  obtain ⟨hscreen, hflag', -⟩ := hagain (by decide) (by decide) m.pc .released hw'
  refine ⟨m, hm, hindex, hx, hy, hw, hlit, hunlit, ?_, ?_, hflag.mpr ⟨_, hright, hlit⟩, hscreen,
    hflag'.mpr ⟨_, hbelow, hunlit⟩⟩
  · rw [hpixels, hlit, decide_eq_true hright]
    rfl
  · rw [hpixels, hunlit, decide_eq_true hbelow]
    rfl

end Machine
end Chip8
