import Chip8.Proofs.Machine.Boot
import Chip8.Proofs.Machine.Command
import Chip8.Proofs.Machine.Frame
import Chip8.Proofs.Screen
import Mathlib.Data.List.Induction

/-! How a changed screen reaches the devices. Whatever changes the screen sets the mark, and only a
timer step takes it away, which hands the screen out at the same time; so a screen without the mark
is the one handed out last. -/
namespace Chip8

namespace Display

variable {d : Display} {x y : UInt8} {rows : List UInt8}

lemma draw_eq_of_blank (h : ∀ row ∈ rows, row = 0) : (d.draw x y rows).1 = d := by
  have hcells : Sprite.cells x y rows = [] := Sprite.cells_eq_nil_iff.mpr h
  simp [draw, hcells, Screen.toggleAll]

lemma dirty_draw {row : UInt8} (hrow : row ∈ rows) (h : row ≠ 0) :
    (d.draw x y rows).1.dirty = true := by
  have hcells : Sprite.cells x y rows ≠ [] := fun hc => h (Sprite.cells_eq_nil_iff.mp hc row hrow)
  simp [draw, hcells]

/-- A display as it is when `shown` was handed out last: any later change has set the mark. -/
def Shows (d : Display) (shown : Screen) : Prop := d.dirty = false → d.screen = shown

end Display

/-- The frame handed out last, if none was handed out since `shown`. -/
def lastFrame (shown : Screen) (pulses : List Pulse) : Screen :=
  (pulses.filterMap Pulse.frame).getLastD shown

@[simp] lemma lastFrame_nil (shown : Screen) : lastFrame shown [] = shown := rfl

lemma lastFrame_cons (shown : Screen) (pulse : Pulse) (pulses : List Pulse) :
    lastFrame shown (pulse :: pulses) = lastFrame (pulse.frame.getD shown) pulses := by
  cases h : pulse.frame with
  | none => simp only [lastFrame, List.filterMap_cons_none h, Option.getD_none]
  | some screen =>
    simp only [lastFrame, List.filterMap_cons_some h, List.getLastD_cons, Option.getD_some]

namespace Event

/-- Whether an event changes what is on the screen, as far as the mark tells: a reset does, so does
a clearing instruction, and a sprite does unless it is blank. -/
def Repaints (e : Event) : Prop :=
  match e.action with
  | .tick _ =>
    e.before.instruction? = some .clearScreen ∨
      ∃ x y n, e.before.instruction? = some (.draw x y n) ∧ ∃ row ∈ e.before.sprite n, row ≠ 0
  | .pulse => False
  | .reset => True

end Event

/-- Among some events, one that changes the screen was not followed by a timer step. -/
def Pending (events : List Event) : Prop :=
  ∃ older e newer, events = older ++ e :: newer ∧ e.Repaints ∧ ∀ f ∈ newer, f.action ≠ .pulse

lemma not_pending_nil : ¬ Pending [] := by
  rintro ⟨older, e, newer, h, -⟩
  simp at h

lemma pending_snoc {events : List Event} {e : Event} :
    Pending (events ++ [e]) ↔ e.Repaints ∨ e.action ≠ .pulse ∧ Pending events := by
  constructor
  · rintro ⟨older, f, newer, h, hf, hnewer⟩
    rcases List.eq_nil_or_concat newer with rfl | ⟨newer, g, rfl⟩
    · obtain ⟨-, hef⟩ := List.append_inj' h rfl
      obtain rfl := (List.cons.inj hef).1
      exact .inl hf
    · have hsplit : events ++ [e] = (older ++ f :: newer) ++ [g] := by simpa using h
      obtain ⟨hevents, heg⟩ := List.append_inj' hsplit rfl
      obtain rfl := (List.cons.inj heg).1
      refine .inr ⟨hnewer e (by simp), older, f, newer, hevents, hf, fun k hk => ?_⟩
      exact hnewer k (by simp [hk])
  · rintro (he | ⟨he, older, f, newer, rfl, hf, hnewer⟩)
    · exact ⟨events, e, [], rfl, he, by simp⟩
    · refine ⟨older, f, newer ++ [e], by simp, hf, fun k hk => ?_⟩
      rcases List.mem_append.mp hk with hk | hk
      · exact hnewer k hk
      · rwa [List.mem_singleton.mp hk]

namespace Machine

variable {m : Machine} {held : Keypad} {shown : Screen}

lemma step_clearScreen (hi : m.instruction? = some .clearScreen) (held : Keypad) :
    (m.step held).machine.display = m.display.clear := by
  rw [step_of_some hi]
  rfl

lemma step_draw {x y n : Fin 16} (hi : m.instruction? = some (.draw x y n)) (held : Keypad) :
    (m.step held).machine.display =
      (m.display.draw (m.reg x) (m.reg y) (m.sprite n)).1 := by
  rw [step_of_some hi]
  rfl

/-- A slot sets the mark if it changes the screen, and leaves the display alone if it does not. -/
lemma step_display (m : Machine) (held : Keypad) :
    (Event.Repaints ⟨m, .tick held⟩ ∧ (m.step held).machine.display.dirty = true) ∨
      (¬ Event.Repaints ⟨m, .tick held⟩ ∧ (m.step held).machine.display = m.display) := by
  by_cases hclear : m.instruction? = some .clearScreen
  · refine .inl ⟨.inl hclear, ?_⟩
    rw [step_clearScreen hclear]
    rfl
  · by_cases hdraw : ∃ x y n, m.instruction? = some (.draw x y n)
    · obtain ⟨x, y, n, hi⟩ := hdraw
      by_cases hrow : ∃ row ∈ m.sprite n, row ≠ 0
      · obtain ⟨row, hmem, hne⟩ := hrow
        refine .inl ⟨.inr ⟨x, y, n, hi, row, hmem, hne⟩, ?_⟩
        rw [step_draw hi]
        exact Display.dirty_draw hmem hne
      · refine .inr ⟨?_, ?_⟩
        · rintro (h | ⟨x', y', n', hi', hrow'⟩)
          · exact hclear h
          · obtain ⟨-, -, rfl⟩ := Instruction.draw.inj (Option.some.inj (hi.symm.trans hi'))
            exact hrow hrow'
        · rw [step_draw hi]
          refine Display.draw_eq_of_blank fun row hmem => ?_
          exact Classical.not_not.mp fun hne => hrow ⟨row, hmem, hne⟩
    · refine .inr ⟨?_, ?_⟩
      · rintro (h | ⟨x, y, n, hi, -⟩)
        · exact hclear h
        · exact hdraw ⟨x, y, n, hi⟩
      · refine step_frame (p := .display) held fun i hi => ?_
        rw [hi] at hclear hdraw
        cases i <;> simp [Instruction.writes] at hclear hdraw ⊢

lemma shows_step (h : m.display.Shows shown) (held : Keypad) :
    (m.step held).machine.display.Shows shown := by
  rcases m.step_display held with ⟨-, hdirty⟩ | ⟨-, hsame⟩
  · intro hclean
    simp [hdirty] at hclean
  · rwa [hsame]

lemma shows_pulse (h : m.display.Shows shown) :
    m.pulse.1.display.Shows (m.pulse.2.frame.getD shown) := by
  intro _
  change m.display.screen = (if m.display.dirty then some m.display.screen else none).getD shown
  cases hd : m.display.dirty with
  | true => rfl
  | false => exact h hd

/-- Over a run, a screen without the mark stays the one handed out last. -/
theorem shows_acts (h : m.display.Shows shown) (actions : List Action) :
    (m.acts actions).display.Shows (lastFrame shown (handed (m.log actions))) := by
  induction actions generalizing m shown with
  | nil => exact h
  | cons a actions ih =>
    cases a with
    | tick held => exact ih (shows_step h held)
    | pulse =>
      change (m.pulse.1.acts actions).display.Shows
        (lastFrame shown (m.pulse.2 :: handed (m.pulse.1.log actions)))
      rw [lastFrame_cons]
      exact ih (shows_pulse h)
    | reset =>
      refine ih (m := m.reset) fun hclean => ?_
      cases hclean

lemma dirty_pulses (m : Machine) {n : Nat} (hn : n ≠ 0) :
    (m.pulses n).1.display.dirty = false := by
  obtain ⟨n, rfl⟩ := Nat.exists_eq_succ_of_ne_zero hn
  rw [pulses_eq, List.replicate_succ', acts_append]
  rfl

/-- A machine that caught up with a timer step has nothing left to show. -/
lemma dirty_catchUp {schedule : Schedule} {now : Nat} {work : Work}
    (h : (m.catchUp held schedule now).result = .ok work) (hwork : work.timerSteps ≠ 0) :
    (m.catchUp held schedule now).machine.display.dirty = false := by
  let c : Console Keypad := ⟨m, held⟩
  rw [catchUp] at h ⊢
  cases hr : (c.steps Keypad.still (schedule.instructions.grant now).1).result with
  | error why =>
    rw [Console.catchUp_of_error hr] at h
    cases h
  | ok _ =>
    rw [Console.catchUp_of_ok hr] at h ⊢
    cases h
    exact dirty_pulses _ hwork

/-- Over a run from a display without the mark, the mark is there exactly if a change is pending. -/
theorem dirty_acts_iff (h : m.display.dirty = false) (actions : List Action) :
    (m.acts actions).display.dirty = true ↔ Pending (m.log actions) := by
  induction actions using List.reverseRecOn with
  | nil => simp [h, log, not_pending_nil]
  | append_singleton actions a ih =>
    rw [log_append, acts_append]
    change ((m.acts actions).act a).display.dirty = true ↔
      Pending (m.log actions ++ [⟨m.acts actions, a⟩])
    rw [pending_snoc, ← ih]
    cases a with
    | tick held =>
      rcases (m.acts actions).step_display held with ⟨hpaints, hdirty⟩ | ⟨hpaints, hsame⟩
      · simp [act, hpaints, hdirty]
      · simp [act, hpaints, hsame]
    | pulse => simp [act, pulse, Display.refresh, Event.Repaints]
    | reset => simp [act, reset, Display.clear, Event.Repaints]

/-- The timer steps among some events hand out the screens that are marked, and nothing else. -/
lemma frames_handed (actions : List Action) :
    (handed (m.log actions)).map Pulse.frame =
      ((m.log actions).filter fun e => e.action matches .pulse).map fun e =>
        if e.before.display.dirty then some e.before.display.screen else none := by
  induction actions generalizing m with
  | nil => rfl
  | cons a actions ih =>
    cases a with
    | pulse => exact congrArg _ ih
    | tick held => exact ih
    | reset => exact ih

/-- No change of the screen is lost on its way to the devices. However a machine is driven, its
screen is the last frame handed out unless the mark is there; the mark is there exactly if the
screen was changed and no timer step came after it; and every timer step hands out the screen as one
frame if it finds the mark, and no frame if it does not. -/
theorem no_change_lost {font rom : Array UInt8} {random : Random}
    (h : boot font rom random = .ok m) (commands : List Command) :
    let after := (m.obeyAll commands).1
    let pulses := (m.obeyAll commands).2
    let events := m.history commands
    (after.display.dirty = false →
      after.display.screen = (pulses.filterMap Pulse.frame).getLastD .blank) ∧
    (after.display.dirty = true ↔ ∃ older e newer, events = older ++ e :: newer ∧ e.Repaints ∧
      ∀ f ∈ newer, f.action ≠ .pulse) ∧
    pulses.map Pulse.frame =
      (events.filter fun e => e.action matches .pulse).map fun e =>
        if e.before.display.dirty then some e.before.display.screen else none := by
  obtain ⟨-, -, hm⟩ := boot_eq_ok_iff.mp h
  have hdisplay : m.display = .blank := by rw [hm]; rfl
  have hshows : m.display.Shows .blank := by
    intro _
    rw [hdisplay]
    rfl
  rw [obeyAll_eq]
  refine ⟨shows_acts hshows _, dirty_acts_iff ?_ _, frames_handed _⟩
  rw [hdisplay]
  rfl

/-- A program that clears the screen: the mark is set, and the timer step after it hands out a
frame. -/
theorem no_change_lost_clear_screen :
    ∃ m, boot Font.glyphs #[0x00,0xE0] (.ofSeed 0) = .ok m ∧
      (m.obeyAll [.tick .released]).1.display.dirty = true ∧
      (m.obeyAll [.tick .released, .pulse]).2.map Pulse.frame = [some .blank] ∧
      (m.obeyAll [.tick .released, .pulse]).1.display.dirty = false ∧
      (m.obeyAll [.tick .released, .pulse]).1.display.screen = .blank := by
  obtain ⟨m, h, hm, hpc⟩ : ∃ m, boot Font.glyphs #[0x00,0xE0] (.ofSeed 0) = .ok m ∧
      m.memory = .loaded Font.glyphs #[0x00,0xE0] ∧ m.pc = 0x200 :=
    ⟨_, boot_eq_ok_iff.mpr ⟨by decide, by decide, rfl⟩, rfl, by decide⟩
  have hi : m.instruction? = some .clearScreen :=
    instruction?_of_loaded (k := 0) hm (by rw [hpc]; rfl) (by decide) rfl rfl rfl
  obtain ⟨-, hmark, -⟩ := no_change_lost h [.tick .released]
  obtain ⟨hlast, -, hframes⟩ := no_change_lost h [.tick .released, .pulse]
  have hhanded : (m.obeyAll [.tick .released, .pulse]).2.map Pulse.frame = [some .blank] := by
    rw [hframes]
    change [if (m.step .released).machine.display.dirty then
      some (m.step .released).machine.display.screen else none] = _
    rw [step_clearScreen hi]
    rfl
  refine ⟨m, h, hmark.mpr ⟨[], _, [], rfl, .inl hi, by simp⟩, hhanded, rfl, ?_⟩
  rw [hlast rfl]
  change ([(m.step .released).machine.pulse.2].filterMap Pulse.frame).getLastD .blank = _
  change [(m.step .released).machine.pulse.2].map Pulse.frame = _ at hhanded
  rw [List.map_singleton, List.cons.injEq] at hhanded
  rw [List.filterMap_cons_some hhanded.1]
  rfl

end Machine
end Chip8
