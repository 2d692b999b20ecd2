import Chip8.Proofs.Machine.Outcome
import Chip8.Proofs.Machine.Run
import Chip8.Proofs.Watched

/-! The machine read with every operation watched. Each arm of an instruction goes through the
watched operations, from the fetched bytes to the last pixel of a sprite, and has the value of the
machine's own. So a step, a timer step and a reset come to their end whatever machine they find, and
the only failures are those of the program that runs. -/
namespace Chip8

/-- The slot that an instruction comes to, run by `before` with some keys held. -/
def Execution.toStep (before : Machine) (held : Keypad) : Execution → Step
  | .done after => ⟨after, .ok (), 0⟩
  | .asking answer => ⟨answer held, .ok (), 1⟩
  | .halted why => ⟨before, .error why, 0⟩

namespace Watched

variable (m : Machine) (held : Keypad)

def reg (x : Fin 16) : Watched UInt8 := register m.registers x.val.toUInt8

def setReg (x : Fin 16) (value : UInt8) : Watched Machine := do
  return { m with registers := ← setRegister m.registers x.val.toUInt8 value }

def setFlag (raised : Bool) : Watched Machine :=
  setReg m RegisterFile.flag (if raised then 1 else 0)

/-- The byte `k` past the index. -/
def loadIndexed (k : UInt16) : Watched UInt8 := load m.memory (m.index+k)

def storeIndexed (k : UInt16) (value : UInt8) : Watched Machine := do
  return { m with memory := ← store m.memory (m.index+k) value }

def storeDecimal (value : UInt8) : Watched Machine := do
  let m ← storeIndexed m 0 (← divide value 100)
  let m ← storeIndexed m 1 (← remainder (← divide value 10) 10)
  storeIndexed m 2 (← remainder value 10)

def storeRegisters (x : Fin 16) : Watched Machine :=
  (Machine.upTo x).foldlM (fun m k => do storeIndexed m k.val.toUInt16 (← reg m k)) m

def loadRegisters (x : Fin 16) : Watched Machine :=
  (Machine.upTo x).foldlM (fun m k => do setReg m k (← loadIndexed m k.val.toUInt16)) m

def sprite (height : Fin 16) : Watched (List UInt8) :=
  (List.range height.val).mapM fun k => loadIndexed m k.toUInt16

def draw (x y : UInt8) (height : Fin 16) : Watched Machine := do
  let m ← setFlag m false
  let (display, hit) ← paint m.display x y (← sprite m height)
  setFlag { m with display := display } hit

/-- An instruction that ran to its end. -/
def done (after : Machine) : Watched Step := return ⟨after, .ok (), 0⟩

/-- An instruction that ran to its end and asked for the held keys. -/
def asked (after : Machine) : Watched Step := return ⟨after, .ok (), 1⟩

/-- Runs an instruction as the machine does, every operation watched. -/
def execute (opcode : Opcode) (origin : UInt16) : Instruction → Watched Step
  | .clearScreen => done { m with display := m.display.clear }
  | .ret =>
    match m.stack.pop? with
    | some (address, below) => done ({ m with stack := below }.jump address)
    | none => return ⟨m, .error (.error (.returnWithoutCall opcode origin)), 0⟩
  | .jump nnn => done (m.jump nnn)
  | .call nnn =>
    match m.stack.push? m.pc with
    | some stack => done ({ m with stack := stack }.jump nnn)
    | none => return ⟨m, .error (.error (.callTooDeep opcode origin)), 0⟩
  | .skipEqualByte x nn => do done (m.skipIf ((← reg m x) == nn))
  | .skipUnequalByte x nn => do done (m.skipIf ((← reg m x) != nn))
  | .skipEqual x y => do done (m.skipIf ((← reg m x) == (← reg m y)))
  | .skipUnequal x y => do done (m.skipIf ((← reg m x) != (← reg m y)))
  | .setByte x nn => do done (← setReg m x nn)
  | .addByte x nn => do done (← setReg m x ((← reg m x)+nn))
  | .copy x y => do done (← setReg m x (← reg m y))
  | .or x y => do done (← setReg m x ((← reg m x) ||| (← reg m y)))
  | .and x y => do done (← setReg m x ((← reg m x) &&& (← reg m y)))
  | .xor x y => do done (← setReg m x ((← reg m x) ^^^ (← reg m y)))
  | .add x y => do
    let m ← setFlag m (255 < (← reg m x).toNat+(← reg m y).toNat)
    done (← setReg m x ((← reg m x)+(← reg m y)))
  | .subtract x y => do
    let m ← setFlag m ((← reg m y) ≤ (← reg m x))
    done (← setReg m x ((← reg m x)-(← reg m y)))
  | .subtractFrom x y => do
    let m ← setFlag m ((← reg m x) ≤ (← reg m y))
    done (← setReg m x ((← reg m y)-(← reg m x)))
  | .shiftRight x _ => do
    let m ← setReg m RegisterFile.flag ((← reg m x) &&& 1)
    done (← setReg m x (← shiftRightByte (← reg m x) 1))
  | .shiftLeft x _ => do
    let m ← setReg m RegisterFile.flag ((← shiftRightByte (← reg m x) 7) &&& 1)
    done (← setReg m x (← shiftLeftByte (← reg m x) 1))
  | .setIndex nnn => done (m.setIndex nnn)
  | .jumpOffset nnn => do
    done (m.jump (← checked (Checked.addWord nnn (← reg m RegisterFile.first).toUInt16)))
  | .random x nn => do
    let (byte, random) := m.random.next
    done (← setReg { m with random := random } x (nn &&& byte))
  | .draw x y n => do done (← draw m (← reg m x) (← reg m y) n)
  | .skipHeld x => do asked (m.skipIf (← isHeld held (← reg m x)))
  | .skipNotHeld x => do asked (m.skipIf (!(← isHeld held (← reg m x))))
  | .getDelay x => do done (← setReg m x m.delay.count)
  | .awaitKey x =>
    match held.first? with
    | some key => do asked (← setReg m x key)
    | none => asked m.rewind
  | .setDelay x => do done { m with delay := ⟨← reg m x⟩ }
  | .setSound x => do done { m with sound := ⟨← reg m x⟩ }
  | .addIndex x => do
    let sum ← checked (Checked.addLong m.index.toUInt32 (← reg m x).toUInt32)
    let m ← setFlag m (0x0FFF < sum)
    done (m.addIndex (← reg m x))
  | .pointGlyph x => do
    let offset ← checked (Checked.mulWord (← reg m x).toUInt16 Font.glyphHeight)
    done (m.setIndex (← checked (Checked.addWord Memory.fontStart.toUInt16 offset)))
  | .storeDecimal x => do done (← storeDecimal m (← reg m x))
  | .storeRegisters x => do done (← storeRegisters m x)
  | .loadRegisters x => do done (← loadRegisters m x)

def step : Watched Step := do
  let opcode : Opcode := ⟨← readWord m.memory m.pc⟩
  match Instruction.ofFields (← fields opcode) with
  | some i => execute m.advance held opcode m.pc i
  | none => return ⟨m, .error (.error (.unknownOpcode opcode m.pc)), 0⟩

def pulse : Watched (Machine × Pulse) := do
  let delay ← countDown m.delay
  let sound ← countDown m.sound
  let (display, frame) := m.display.refresh
  return ({ m with delay := delay, sound := sound, display := display }, ⟨frame, sound.isActive⟩)

/-- A reset writes constants and has nothing to watch. -/
def act : Action → Watched Machine
  | .tick held => do return (← step m held).machine
  | .pulse => do return (← pulse m).1
  | .reset => return m.reset

def acts (actions : List Action) : Watched Machine := actions.foldlM act m

/-! ### Nothing stops -/

variable {m held}

@[simp] lemma reg_eq (x : Fin 16) : reg m x = pure (m.reg x) := register_eq m.registers x

@[simp] lemma setReg_eq (x : Fin 16) (value : UInt8) :
    setReg m x value = pure (m.setReg x value) := by
  simp only [setReg, setRegister_eq, pure_bind, Machine.setReg]

@[simp] lemma setFlag_eq (raised : Bool) : setFlag m raised = pure (m.setFlag raised) :=
  setReg_eq _ _

@[simp] lemma loadIndexed_eq (k : UInt16) :
    loadIndexed m k = pure (m.memory.read (m.indexed k)) := load_eq ..

@[simp] lemma storeIndexed_eq (k : UInt16) (value : UInt8) :
    storeIndexed m k value = pure { m with memory := m.memory.write (m.indexed k) value } := by
  simp only [storeIndexed, store_eq, pure_bind, Machine.indexed]

@[simp] lemma storeDecimal_eq (value : UInt8) :
    storeDecimal m value = pure (m.storeDecimal value) := by
  have hten : (10 : UInt8) ≠ 0 := by decide
  have hhundred : (100 : UInt8) ≠ 0 := by decide
  simp only [storeDecimal, divide, remainder, require_of hten, require_of hhundred,
    storeIndexed_eq, pure_bind]
  rfl

/-- Storing looks at the index and the registers only, which it leaves alone. -/
lemma foldl_storeIndexed (ks : List (Fin 16)) (m : Machine) :
    ks.foldl (fun m k =>
      { m with memory := m.memory.write (m.indexed k.val.toUInt16) (m.reg k) }) m =
    { m with
      memory := ks.foldl
        (fun memory k => memory.write (m.indexed k.val.toUInt16) (m.reg k)) m.memory } := by
  induction ks generalizing m with
  | nil => rfl
  | cons k ks ih => exact ih _

/-- Loading looks at the index and the memory only, which it leaves alone. -/
lemma foldl_setReg (ks : List (Fin 16)) (m : Machine) :
    ks.foldl (fun m k => m.setReg k (m.memory.read (m.indexed k.val.toUInt16))) m =
    { m with
      registers := ks.foldl
        (fun registers k => registers.set k (m.memory.read (m.indexed k.val.toUInt16)))
        m.registers } := by
  induction ks generalizing m with
  | nil => rfl
  | cons k ks ih => exact ih _

@[simp] lemma storeRegisters_eq (x : Fin 16) :
    storeRegisters m x = pure (m.storeRegisters x) := by
  simp only [storeRegisters, reg_eq, storeIndexed_eq, pure_bind, List.foldlM_pure,
    foldl_storeIndexed]
  rfl

@[simp] lemma loadRegisters_eq (x : Fin 16) : loadRegisters m x = pure (m.loadRegisters x) := by
  simp only [loadRegisters, loadIndexed_eq, setReg_eq, pure_bind, List.foldlM_pure, foldl_setReg]
  rfl

@[simp] lemma sprite_eq (height : Fin 16) : sprite m height = pure (m.sprite height) := by
  simp only [sprite, loadIndexed_eq, List.mapM_pure]
  rfl

@[simp] lemma draw_eq (x y : UInt8) (height : Fin 16) :
    draw m x y height = pure (m.draw x y height) := by
  have hrows : ((m.setFlag false).sprite height).length ≤ 16 := by
    simp only [Machine.sprite, List.length_map, List.length_range]
    omega
  simp only [draw, setFlag_eq, sprite_eq, paint_eq _ _ _ hrows, pure_bind]
  rfl

/-- A checked sum that has a value is none that stops. -/
lemma done_checked {α : Type} {sum : Except Trap α} {use : α → Machine}
    (h : ∃ after, Execution.ofChecked sum use = .done after) :
    (checked sum >>= fun value => done (use value)) =
      pure ((Execution.ofChecked sum use).toStep m held) := by
  cases sum with
  | ok value => rfl
  | error t =>
    obtain ⟨after, hafter⟩ := h
    cases hafter

/-- Every instruction whose address has twelve bits does watched what it does unwatched. -/
theorem execute_eq {opcode : Opcode} {origin : UInt16} {i : Instruction}
    (hi : ∀ nnn, i.address? = some nnn → nnn.toNat < 4096) :
    execute m held opcode origin i = pure ((m.execute opcode origin i).toStep m held) := by
  cases i with
  | ret => cases hs : m.stack.pop? <;> simp only [execute, Machine.execute, hs] <;> rfl
  | call nnn => cases hs : m.stack.push? m.pc <;> simp only [execute, Machine.execute, hs] <;> rfl
  | shiftRight x y =>
    simp only [execute, reg_eq, setReg_eq, pure_bind, shiftRightByte,
      require_of (by decide : 1 < 8)]
    rfl
  | shiftLeft x y =>
    simp only [execute, reg_eq, setReg_eq, pure_bind, shiftRightByte, shiftLeftByte,
      require_of (by decide : 7 < 8), require_of (by decide : 1 < 8)]
    rfl
  -- the sums of the next three could leave their width, were their operands not bounded
  | jumpOffset nnn =>
    simp only [execute, reg_eq, pure_bind]
    exact done_checked ⟨_, m.execute_jumpOffset opcode origin (hi nnn rfl)⟩
  | addIndex x =>
    simp only [execute, reg_eq, setFlag_eq, pure_bind]
    exact done_checked ⟨_, m.execute_addIndex opcode origin x⟩
  | pointGlyph x =>
    simp only [execute, reg_eq, pure_bind]
    rw [← bind_assoc, ← checked_bind]
    exact done_checked ⟨_, m.execute_pointGlyph opcode origin x⟩
  | awaitKey x =>
    cases hk : held.first? <;>
      simp only [execute, Machine.execute, Execution.toStep, hk, setReg_eq, pure_bind] <;> rfl
  | _ =>
    simp only [execute, reg_eq, setReg_eq, setFlag_eq, isHeld_eq, storeDecimal_eq,
      storeRegisters_eq, loadRegisters_eq, draw_eq, pure_bind]
    rfl

/-- The bound is needed: an indexed jump from beyond it can leave its sixteen bits. -/
theorem execute_jumpOffset_stops {opcode : Opcode} {origin nnn : UInt16}
    (h : 65536 ≤ nnn.toNat+(m.reg RegisterFile.first).toNat) :
    execute m held opcode origin (.jumpOffset nnn) = .error (.trap .addOverflow) := by
  have hout : ¬ nnn.toNat+(m.reg RegisterFile.first).toUInt16.toNat < UInt16.size := by
    rw [UInt8.toNat_toUInt16]
    exact Nat.not_lt.mpr h
  simp only [execute, reg_eq, pure_bind, Checked.addWord, if_neg hout]
  rfl

theorem step_eq : step m held = pure (m.step held) := by
  simp only [step, readWord_eq, fields_eq, pure_bind]
  change (match Instruction.ofFields m.fetch.split with
    | some i => execute m.advance held m.fetch m.pc i
    | none => pure ⟨m, .error (.error (.unknownOpcode m.fetch m.pc)), 0⟩) = _
  rw [← Machine.instruction?_eq]
  cases hi : m.instruction? with
  | none => rw [Machine.step_of_none hi]
  | some i =>
    rw [Machine.step_of_some hi]
    change execute m.advance held m.fetch m.pc i = _
    rw [execute_eq fun nnn ha => Machine.address_lt hi ha]
    cases m.advance.execute m.fetch m.pc i <;> rfl

theorem pulse_eq : pulse m = pure m.pulse := by
  simp only [pulse, countDown_eq, pure_bind, Machine.pulse]

theorem act_eq (a : Action) : act m a = pure (m.act a) := by
  cases a with
  | tick held =>
    rw [act, step_eq, pure_bind]
    rfl
  | pulse =>
    rw [act, pulse_eq, pure_bind]
    rfl
  | reset => rfl

/-- A run does not stop, whatever it is made of. -/
theorem acts_eq (m : Machine) (actions : List Action) : acts m actions = pure (m.acts actions) :=
  foldlM_eq_pure (fun _ a _ => act_eq a) m

end Watched

namespace Machine

/-- Nothing a machine can be asked to do stops it. Watched for sums, differences and products out of
their width, shifts by too many bits, divisions by zero and indices out of range, an instruction, a
timer step and any run of these and of resets come to the same end as unwatched, on every machine.
An instruction succeeds, or it fails with one of the three errors of a running program. A schedule
can be made for every rate, its first deadlines at most a second away. -/
theorem nothing_stops (m : Machine) :
    (∀ held, Watched.step m held = .ok (m.step held) ∧
      ((m.step held).result = .ok () ∨
        ∃ cause, (m.step held).result = .error (.error cause) ∧
          (cause = .unknownOpcode m.fetch m.pc ∨ cause = .returnWithoutCall m.fetch m.pc ∨
            cause = .callTooDeep m.fetch m.pc))) ∧
    Watched.pulse m = .ok m.pulse ∧
    (∀ actions, Watched.acts m actions = .ok (m.acts actions)) ∧
    ∀ ips now, Watched.schedule ips now = .ok (Schedule.new ips now) ∧
      (Schedule.new ips now).instructions.next ≤ now+1000000000 ∧
      (Schedule.new ips now).timerSteps.next ≤ now+1000000000 := by
  refine ⟨fun held => ⟨Watched.step_eq, ?_⟩, Watched.pulse_eq, Watched.acts_eq m,
    fun ips now => ⟨Watched.schedule_eq ips now, Watched.next_new_le ips now,
      Watched.next_new_le Schedule.timerRate now⟩⟩
  cases hr : (m.step held).result with
  | ok _ => exact .inl rfl
  | error why =>
    right
    rcases step_error_iff.mp hr with ⟨-, rfl⟩ | ⟨-, rfl⟩ | ⟨-, rfl⟩
    · exact ⟨_, rfl, .inl rfl⟩
    · exact ⟨_, rfl, .inr (.inl rfl)⟩
    · exact ⟨_, rfl, .inr (.inr rfl)⟩

end Machine
end Chip8
