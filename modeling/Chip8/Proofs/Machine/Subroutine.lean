import Chip8.Proofs.Machine.Boot
import Chip8.Proofs.Machine.Frame
import Chip8.Proofs.Machine.Run

/-! Calls and returns over whole runs. While a subroutine runs, the frames below it lie untouched
under whatever it calls itself; the slot that takes its frame away is a return, and it goes on right
behind the call. -/
namespace Chip8

namespace Machine

variable {m : Machine} {held : Keypad}

/-- A return takes the innermost frame away and goes there. -/
lemma step_of_pop {address : UInt16} {below : CallStack} (hi : m.instruction? = some .ret)
    (hs : m.stack.pop? = some (address, below)) (held : Keypad) :
    m.step held = ⟨{ m with stack := below, pc := wrap address }, .ok (), 0⟩ := by
  have hs' : m.advance.stack.pop? = some (address, below) := hs
  simp only [step_of_some hi, execute, hs']
  rfl

/-- A call puts the place behind itself on top and goes to its address. -/
lemma step_of_push {nnn : UInt16} {above : CallStack} (hi : m.instruction? = some (.call nnn))
    (hs : m.stack.push? m.advance.pc = some above) (held : Keypad) :
    m.step held = ⟨{ m with stack := above, pc := wrap nnn }, .ok (), 0⟩ := by
  have hs' : m.advance.stack.push? m.advance.pc = some above := hs
  simp only [step_of_some hi, execute, hs']
  rfl

/-- A return that succeeds had a frame to take away. -/
lemma step_ret (hi : m.instruction? = some .ret) (hok : (m.step held).result = .ok ()) :
    ∃ address, m.stack.frames = address :: (m.step held).machine.stack.frames ∧
      (m.step held).machine.pc = wrap address := by
  obtain ⟨i, hi', he⟩ := step_ok_iff.mp hok
  obtain rfl := Option.some.inj (hi.symm.trans hi')
  cases hp : m.stack.pop? with
  | none =>
    have hp' : m.advance.stack.pop? = none := hp
    simp [execute, hp', Execution.result?] at he
  | some top =>
    rw [step_of_pop hi hp]
    exact ⟨top.1, CallStack.pop?_eq_some_iff.mp hp, rfl⟩

/-- A call that succeeds had a place left. -/
lemma step_call {nnn : UInt16} (hi : m.instruction? = some (.call nnn))
    (hok : (m.step held).result = .ok ()) :
    (m.step held).machine.stack.frames = m.advance.pc :: m.stack.frames ∧
      (m.step held).machine.pc = wrap nnn := by
  obtain ⟨i, hi', he⟩ := step_ok_iff.mp hok
  obtain rfl := Option.some.inj (hi.symm.trans hi')
  cases hp : m.stack.push? m.advance.pc with
  | none =>
    have hp' : m.advance.stack.push? m.advance.pc = none := hp
    simp [execute, hp', Execution.result?] at he
  | some above =>
    rw [step_of_push hi hp]
    exact ⟨(CallStack.push?_eq_some_iff.mp hp).2, rfl⟩

lemma toNat_advance_pc (m : Machine) : m.advance.pc.toNat = (m.pc.toNat+2) % 4096 := by
  have htwo : (2 : UInt16).toNat = 2 := rfl
  rw [advance, toNat_wrap, UInt16.toNat_add, htwo]
  omega

lemma advance_pc_eq (m : Machine) : m.advance.pc = .ofNat ((m.pc.toNat+2) % 4096) := by
  rw [← toNat_advance_pc, UInt16.ofNat_toNat]

/-- Every other instruction leaves the call stack alone. -/
lemma step_stack {i : Instruction} (hi : m.instruction? = some i) (hret : i ≠ .ret)
    (hcall : ∀ nnn, i ≠ .call nnn) (held : Keypad) : (m.step held).machine.stack = m.stack := by
  have hwrites : Part.stack ∉ i.writes := by
    cases i <;> simp [Instruction.writes] at hret hcall ⊢
  refine step_frame (p := .stack) held fun j hj => ?_
  rw [← Option.some.inj (hi.symm.trans hj)]
  exact hwrites

/-- A frame stays buried under what is called on top of it, until a return takes it away. -/
lemma buried_step {back : UInt16} {below : List UInt16}
    (h : (back :: below) <:+ m.stack.frames) (hok : (m.step held).result = .ok ()) :
    (back :: below) <:+ (m.step held).machine.stack.frames ∨
      m.instruction? = some .ret ∧ (m.step held).machine.stack.frames = below ∧
        (m.step held).machine.pc = wrap back := by
  obtain ⟨i, hi, -⟩ := step_ok_iff.mp hok
  by_cases hret : i = .ret
  · subst i
    obtain ⟨address, hframes, hpc⟩ := step_ret hi hok
    rw [hframes, List.suffix_cons_iff] at h
    rcases h with h | h
    · obtain ⟨rfl, rfl⟩ := List.cons.inj h
      exact .inr ⟨hi, rfl, hpc⟩
    · exact .inl h
  · by_cases hcall : ∃ nnn, i = .call nnn
    · obtain ⟨nnn, rfl⟩ := hcall
      rw [(step_call hi hok).1]
      exact .inl (h.trans (List.suffix_cons _ _))
    · rw [step_stack hi hret fun nnn hn => hcall ⟨nnn, hn⟩]
      exact .inl h

/-- A run inside a subroutine: no reset, every instruction succeeds, and after each of them more
than `depth` calls are open. -/
def StaysInside (m : Machine) (depth : Nat) (actions : List Action) : Prop :=
  ∀ e ∈ m.log actions,
    match e.action with
    | .tick held => (e.before.step held).result = .ok () ∧ depth < e.after.stack.depth
    | .pulse => True
    | .reset => False

lemma buried_acts {back : UInt16} {below : List UInt16} {actions : List Action}
    (h : (back :: below) <:+ m.stack.frames) (hin : m.StaysInside below.length actions) :
    (back :: below) <:+ (m.acts actions).stack.frames := by
  induction actions generalizing m with
  | nil => exact h
  | cons a actions ih =>
    have hhead := hin ⟨m, a⟩ (List.mem_cons_self ..)
    refine ih ?_ fun e he => hin e (List.mem_cons_of_mem _ he)
    cases a with
    | tick held =>
      obtain ⟨hok, hdepth⟩ := hhead
      rcases buried_step h hok with h | ⟨-, hframes, -⟩
      · exact h
      · exact absurd (congrArg List.length hframes) (Nat.ne_of_gt hdepth)
    | pulse => exact h
    | reset => exact hhead.elim

/-- From a call on, as long as more calls are open than before it, the frames before it and the
place behind it lie at the bottom of the call stack. No slot opens less than the calls before it,
and the first one that leaves just these is a return to the place behind the call. -/
theorem call_returns {nnn : UInt16} (hcall : m.instruction? = some (.call nnn))
    (hok : (m.step held).result = .ok ()) {actions : List Action}
    (hin : (m.step held).machine.StaysInside m.stack.depth actions) :
    let inner := (m.step held).machine.acts actions
    (m.stack.oldestFirst ++ [.ofNat ((m.pc.toNat+2) % 4096)]) <+: inner.stack.oldestFirst ∧
    ∀ next, (inner.step next).result = .ok () →
      let after := (inner.step next).machine
      m.stack.depth ≤ after.stack.depth ∧
      (after.stack.depth = m.stack.depth →
        inner.instruction? = some .ret ∧ after.stack = m.stack ∧
          after.pc.toNat = (m.pc.toNat+2) % 4096) := by
  have hpc : m.advance.pc.toNat = (m.pc.toNat+2) % 4096 := m.toNat_advance_pc
  have hback : m.advance.pc = .ofNat ((m.pc.toNat+2) % 4096) := by
    rw [← hpc, UInt16.ofNat_toNat]
  have hbottom : (m.advance.pc :: m.stack.frames) <:+ (m.step held).machine.stack.frames :=
    (step_call hcall hok).1 ▸ List.suffix_refl _
  have hburied := buried_acts hbottom hin
  intro inner
  refine ⟨?_, fun next hnext => ?_⟩
  · rw [← hback, CallStack.oldestFirst, CallStack.oldestFirst, ← List.reverse_cons]
    exact List.reverse_prefix.mpr hburied
  · rcases buried_step hburied hnext with h | ⟨hret, hframes, hto⟩
    · have hlt : m.stack.depth < (inner.step next).machine.stack.depth := h.length_le
      exact ⟨Nat.le_of_lt hlt, fun he => absurd he (Nat.ne_of_gt hlt)⟩
    · have hstack : (inner.step next).machine.stack = m.stack := CallStack.ext hframes
      intro after
      refine ⟨Nat.le_of_eq (congrArg CallStack.depth hstack).symm, fun _ => ⟨hret, hstack, ?_⟩⟩
      change (inner.step next).machine.pc.toNat = _
      rw [hto, toNat_wrap, hpc, Nat.mod_mod]

/-- A subroutine that calls another one, with a timer step while the inner one is open. -/
theorem call_returns_nested :
    ∃ m,
      boot Font.glyphs #[0x22,0x04,0x12,0x02,0x22,0x08,0x00,0xEE,0x00,0xEE] (.ofSeed 0) = .ok m ∧
      let inner := (m.step .released).machine.acts [.tick .released, .pulse, .tick .released]
      inner.stack.oldestFirst = [0x202] ∧ (inner.step .released).result = .ok () ∧
        inner.instruction? = some .ret ∧ (inner.step .released).machine.stack = m.stack ∧
          (inner.step .released).machine.pc.toNat = (m.pc.toNat+2) % 4096 := by
  -- of the machine only these four facts are kept, so that nothing below unfolds its memory
  obtain ⟨m, hboot, hm, hpc, hstack⟩ : ∃ m,
      boot Font.glyphs #[0x22,0x04,0x12,0x02,0x22,0x08,0x00,0xEE,0x00,0xEE] (.ofSeed 0) = .ok m ∧
        m.memory = .loaded Font.glyphs #[0x22,0x04,0x12,0x02,0x22,0x08,0x00,0xEE,0x00,0xEE] ∧
          m.pc = 0x200 ∧ m.stack = .empty :=
    ⟨_, boot_eq_ok_iff.mpr ⟨by decide, by decide, rfl⟩, rfl, by decide, rfl⟩
  let outer : Machine := { m with stack := ⟨[0x202], by decide⟩, pc := wrap 0x204 }
  let deep : Machine := { m with stack := ⟨[0x206,0x202], by decide⟩, pc := wrap 0x208 }
  let back : Machine := { deep.pulse.1 with stack := ⟨[0x202], by decide⟩, pc := wrap 0x206 }
  have hcall : m.instruction? = some (.call 0x204) :=
    instruction?_of_loaded (k := 0) hm (by rw [hpc]; rfl) (by decide) rfl rfl rfl
  have hcall' : outer.instruction? = some (.call 0x208) :=
    instruction?_of_loaded (m := outer) (k := 4) hm rfl (by decide) rfl rfl rfl
  have hret : deep.pulse.1.instruction? = some .ret :=
    instruction?_of_loaded (m := deep.pulse.1) (k := 8) hm rfl (by decide) rfl rfl rfl
  have hret' : back.instruction? = some .ret :=
    instruction?_of_loaded (m := back) (k := 6) hm rfl (by decide) rfl rfl rfl
  have hpush : m.stack.push? m.advance.pc = some outer.stack := by
    rw [hstack, advance, hpc]
    rfl
  have hpush' : outer.stack.push? outer.advance.pc = some deep.stack := by
    have hpc : wrap (wrap 0x204+2) = 0x206 := by decide
    rw [advance, hpc]
    rfl
  have hs : m.step .released = ⟨outer, .ok (), 0⟩ := step_of_push hcall hpush .released
  have hs' : outer.step .released = ⟨deep, .ok (), 0⟩ := step_of_push hcall' hpush' .released
  have hs'' : deep.pulse.1.step .released = ⟨back, .ok (), 0⟩ := step_of_pop hret rfl .released
  have hlast : back.step .released = ⟨{ back with stack := .empty, pc := wrap 0x202 }, .ok (), 0⟩ :=
    step_of_pop hret' rfl .released
  have hinner :
      (m.step .released).machine.acts [.tick .released, .pulse, .tick .released] = back := by
    simp only [hs, acts_cons, act, hs', hs'', acts_nil]
  have hin : (m.step .released).machine.StaysInside m.stack.depth
      [.tick .released, .pulse, .tick .released] := by
    simp only [StaysInside, hs, log, act, hs', hs'', Event.after, List.mem_cons, List.not_mem_nil,
      or_false, forall_eq_or_imp, forall_eq, true_and, hstack]
    exact ⟨Nat.two_pos, Nat.one_pos⟩
  have hreturns := (call_returns hcall (by rw [hs]) hin).2 .released
  rw [hinner, hlast] at hreturns
  obtain ⟨-, hstack', hpc'⟩ := (hreturns rfl).2 (by rw [hstack])
  refine ⟨m, hboot, ?_⟩
  rw [hinner]
  dsimp only
  rw [hlast]
  exact ⟨rfl, rfl, hret', hstack', hpc'⟩

end Machine
end Chip8
