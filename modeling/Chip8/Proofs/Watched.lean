import Chip8.Machine.Basic
import Chip8.Proofs.Opcode
import Chip8.Schedule

/-! A second reading of the machine's parts on plain numbers. Where a part relies on its types, for
a register below sixteen, an address below 4096, a cell of the screen or a shift within its width,
the reading here looks first and stops if it must. Applied as the machine applies it, each operation
has the value of the part it reads, so that none of them ever stops. -/
namespace Chip8

/-- Why a watched computation stops. -/
inductive Fault
  | trap (cause : Trap)
  | outOfRange (index size : Nat)
  | divisionByZero
  deriving DecidableEq, Repr

abbrev Watched := Except Fault

namespace Watched

variable {α β : Type}

/-- A value that is there under a condition only. -/
def require (p : Prop) [Decidable p] (fault : Fault) (value : α) : Watched α :=
  if p then pure value else throw fault

lemma require_of {p : Prop} [Decidable p] (h : p) (fault : Fault) (value : α) :
    require p fault value = pure value := if_pos h

/-- Checked arithmetic as a watched computation. -/
def checked (value : Except Trap α) : Watched α := value.mapError .trap

@[simp] lemma checked_ok (value : α) : checked (.ok value) = pure value := rfl

lemma checked_bind (value : Except Trap α) (f : α → Except Trap β) :
    checked (value >>= f) = checked value >>= fun a => checked (f a) := by
  cases value <;> rfl

/-- A loop of which no pass stops does what it does unwatched. -/
lemma foldlM_eq_pure {f : β → α → Watched β} {g : β → α → β} {l : List α}
    (h : ∀ b, ∀ a ∈ l, f b a = pure (g b a)) (b : β) : l.foldlM f b = pure (l.foldl g b) := by
  induction l generalizing b with
  | nil => rfl
  | cons a l ih =>
    rw [List.foldlM_cons, h b a (List.mem_cons_self ..), pure_bind, List.foldl_cons]
    exact ih (fun b a' ha' => h b a' (List.mem_cons_of_mem _ ha')) _

/-! ### Numbers -/

/-- Sizes are taken to have sixteen bits, the fewest they can have. -/
def addSize (a b : Nat) : Watched Nat := require (a+b < 2^16) (.trap .addOverflow) (a+b)

def subSize (a b : Nat) : Watched Nat := require (b ≤ a) (.trap .subtractOverflow) (a-b)

def mulLong (a b : UInt32) : Watched UInt32 :=
  require (a.toNat*b.toNat < UInt32.size) (.trap .multiplyOverflow) (a*b)

def divide [Div α] [OfNat α 0] [DecidableEq α] (a b : α) : Watched α :=
  require (b ≠ 0) .divisionByZero (a/b)

def remainder [Mod α] [OfNat α 0] [DecidableEq α] (a b : α) : Watched α :=
  require (b ≠ 0) .divisionByZero (a%b)

def shiftRightByte (a : UInt8) (places : Nat) : Watched UInt8 :=
  require (places < 8) (.trap .shiftRightOverflow) (a >>> places.toUInt8)

def shiftLeftByte (a : UInt8) (places : Nat) : Watched UInt8 :=
  require (places < 8) (.trap .shiftLeftOverflow) (a <<< places.toUInt8)

def shiftLeftWord (a : UInt16) (places : Nat) : Watched UInt16 :=
  require (places < 16) (.trap .shiftLeftOverflow) (a <<< places.toUInt16)

/-! ### Tables -/

/-- The entry at a plain index. -/
def entry {n : Nat} (t : Table α n) (i : Nat) : Watched α :=
  if h : i < n then pure (t.get ⟨i, h⟩) else throw (.outOfRange i n)

def setEntry {n : Nat} (t : Table α n) (i : Nat) (a : α) : Watched (Table α n) :=
  if h : i < n then pure (t.set ⟨i, h⟩ a) else throw (.outOfRange i n)

example : entry (.fill 16 (0 : UInt8)) 16 = .error (.outOfRange 16 16) := rfl

lemma entry_of_lt {n : Nat} (t : Table α n) {i : Nat} (h : i < n) :
    entry t i = pure (t.get ⟨i, h⟩) := dif_pos h

lemma setEntry_of_lt {n : Nat} (t : Table α n) {i : Nat} (h : i < n) (a : α) :
    setEntry t i a = pure (t.set ⟨i, h⟩ a) := dif_pos h

/-! ### Memory -/

def load (memory : Memory) (address : UInt16) : Watched UInt8 :=
  entry memory.bytes (Machine.wrap address).toNat

def store (memory : Memory) (address : UInt16) (value : UInt8) : Watched Memory := do
  return ⟨← setEntry memory.bytes (Machine.wrap address).toNat value⟩

def readWord (memory : Memory) (address : UInt16) : Watched UInt16 := do
  let left ← load memory address
  let right ← load memory (address+1)
  return (← shiftLeftWord left.toUInt16 8) ||| right.toUInt16

lemma wrap_lt (address : UInt16) : (Machine.wrap address).toNat < 4096 := by
  rw [Machine.toNat_wrap]
  exact Nat.mod_lt _ (by decide)

lemma wrap_eq (address : UInt16) :
    (⟨(Machine.wrap address).toNat, wrap_lt address⟩ : Address) = Address.ofWord address :=
  Fin.ext (Machine.toNat_wrap address)

@[simp] lemma load_eq (memory : Memory) (address : UInt16) :
    load memory address = pure (memory.read (Address.ofWord address)) := by
  rw [load, entry_of_lt _ (wrap_lt address), wrap_eq]
  rfl

@[simp] lemma store_eq (memory : Memory) (address : UInt16) (value : UInt8) :
    store memory address value = pure (memory.write (Address.ofWord address) value) := by
  rw [store, setEntry_of_lt _ (wrap_lt address), wrap_eq]
  rfl

@[simp] lemma readWord_eq (memory : Memory) (address : UInt16) :
    readWord memory address = pure (memory.readWord address) := by
  simp only [readWord, load_eq, pure_bind, shiftLeftWord, require_of (by decide : 8 < 16)]
  rfl

/-! ### Registers -/

/-- The register that the low digit of a number names. -/
def register (v : RegisterFile) (number : UInt8) : Watched UInt8 :=
  entry v.values (number &&& 0xF).toNat

def setRegister (v : RegisterFile) (number value : UInt8) : Watched RegisterFile := do
  return ⟨← setEntry v.values (number &&& 0xF).toNat value⟩

lemma toNat_lowDigit (number : UInt8) : (number &&& 0xF).toNat = number.toNat % 16 := by
  rw [UInt8.toNat_and]
  exact Nat.and_two_pow_sub_one_eq_mod number.toNat 4

lemma toNat_lowDigit_val (x : Fin 16) : (x.val.toUInt8 &&& 0xF).toNat = x.val := by
  rw [toNat_lowDigit, UInt8.toNat_ofNat']
  omega

@[simp] lemma register_eq (v : RegisterFile) (x : Fin 16) :
    register v x.val.toUInt8 = pure (v.get x) := by
  rw [register, toNat_lowDigit_val, entry_of_lt _ x.isLt]
  rfl

@[simp] lemma setRegister_eq (v : RegisterFile) (x : Fin 16) (value : UInt8) :
    setRegister v x.val.toUInt8 value = pure (v.set x value) := by
  rw [setRegister, toNat_lowDigit_val, setEntry_of_lt _ x.isLt]
  rfl

/-! ### Words -/

/-- One digit of a word. Nothing is made of a number that is no digit. -/
def digit (w : Opcode) (place : UInt8) : Watched (Fin 16) := do
  let value ← checked (w.digits place 1)
  if h : value.toNat < 16 then return ⟨value.toNat, h⟩ else throw (.outOfRange value.toNat 16)

def fields (w : Opcode) : Watched Opcode.Fields := do
  return {
    kind := ← digit w 1
    x := ← digit w 2
    y := ← digit w 3
    n := ← digit w 4
    nn := (← checked (w.digits 3 2)).toUInt8
    nnn := ← checked (w.digits 2 3) }

/-- A digit is below sixteen before it is cut down to be. -/
lemma digit_eq (w : Opcode) (place : UInt8) (hp : 0 < place.toNat) (h : place.toNat ≤ 4) :
    digit w place = checked (w.digit place) := by
  have hone : (1 : UInt8).toNat = 1 := rfl
  obtain ⟨value, hv, hn⟩ := w.digits_eq_ok place 1 hp (by omega) (by omega)
  have hlt : value.toNat < 16 := by
    rw [hn, hone, Nat.pow_one]
    exact Nat.mod_lt _ (by decide)
  rw [digit, Opcode.digit, hv, checked_ok, pure_bind, dif_pos hlt]
  change _ = pure (⟨value.toNat % 16, _⟩ : Fin 16)
  simp only [Nat.mod_eq_of_lt hlt]

@[simp] lemma fields_eq (w : Opcode) : fields w = pure w.split := by
  have hfields : fields w = checked w.fields := by
    simp only [fields, Opcode.fields, checked_bind, digit_eq w 1 (by decide) (by decide),
      digit_eq w 2 (by decide) (by decide), digit_eq w 3 (by decide) (by decide),
      digit_eq w 4 (by decide) (by decide)]
    rfl
  rw [hfields, w.fields_eq, checked_ok]

/-! ### Screen -/

/-- The cell in a plain row and column. -/
def cell (row col : Nat) : Watched Cell :=
  if hr : row < Screen.height then
    if hc : col < Screen.width then pure ⟨⟨row, hr⟩, ⟨col, hc⟩⟩
    else throw (.outOfRange col Screen.width)
  else throw (.outOfRange row Screen.height)

/-- Toggles one cell of a display and notes whether it was lit. -/
def dab (s : Display × Bool) (c : Cell) : Display × Bool :=
  (⟨s.1.screen.toggle c, true⟩, s.2 || s.1.screen.isLit c)

/-- The pixel that a row of a sprite has in column `j`, for the screen's row `row`. -/
def paintPixel (x bits : UInt8) (row : Nat) (s : Display × Bool) (j : Nat) :
    Watched (Display × Bool) := do
  let col ← remainder (← addSize x.toNat j) Screen.width
  let bit ← shiftRightByte bits (← subSize 7 j)
  if bit &&& 1 = 1 then return dab s (← cell row col) else return s

def paintRow (x y : UInt8) (s : Display × Bool) (line : UInt8 × Nat) :
    Watched (Display × Bool) := do
  let row ← remainder (← addSize y.toNat line.2) Screen.height
  (List.range 8).foldlM (paintPixel x line.1 row) s

/-- Paints a sprite pixel by pixel; the answer tells whether a lit pixel went out. -/
def paint (d : Display) (x y : UInt8) (rows : List UInt8) : Watched (Display × Bool) :=
  rows.zipIdx.foldlM (paintRow x y) (d, false)

example : cell 32 0 = .error (.outOfRange 32 32) := rfl

lemma foldl_dab (cells : List Cell) (d : Display) (hit : Bool) :
    cells.foldl dab (d, hit) =
      (⟨(d.screen.toggleAll cells).1, d.dirty || !cells.isEmpty⟩,
        hit || (d.screen.toggleAll cells).2) := by
  induction cells generalizing d hit with
  | nil => simp [Screen.toggleAll]
  | cons c cells ih =>
    rw [List.foldl_cons, dab, ih]
    simp [Screen.toggleAll, Bool.or_assoc]

lemma bit_eq_one_iff (bits : UInt8) {place : Nat} (hp : place < 8) :
    bits >>> place.toUInt8 &&& 1 = 1 ↔ bits.toNat.testBit place = true := by
  have hplace : place.toUInt8.toNat % 8 = place := by
    rw [UInt8.toNat_ofNat']
    omega
  rw [← UInt8.toNat_inj, UInt8.toNat_and, UInt8.toNat_shiftRight, hplace, UInt8.toNat_one,
    Nat.and_one_is_mod, Nat.shiftRight_eq_div_pow, Nat.testBit_eq_decide_div_mod_eq,
    decide_eq_true_iff]

lemma paintPixel_eq (x bits : UInt8) (n : Nat) (s : Display × Bool) {j : Nat} (hj : j < 8) :
    paintPixel x bits (n % Screen.height) s j =
      pure (if bits.toNat.testBit (7-j) then dab s (.wrap (x.toNat+j) n) else s) := by
  have hx := x.toNat_lt
  have hsum : x.toNat+j < 2^16 := by omega
  have hplace : 7-j < 8 := by omega
  have hrow : n % Screen.height < Screen.height := Nat.mod_lt _ (by decide)
  have hcol : (x.toNat+j) % Screen.width < Screen.width := Nat.mod_lt _ (by decide)
  simp only [paintPixel, addSize, subSize, remainder, shiftRightByte, require_of hsum,
    require_of (by omega : j ≤ 7), require_of hplace, require_of (by decide : Screen.width ≠ 0),
    pure_bind, bit_eq_one_iff bits hplace, cell, dif_pos hrow, dif_pos hcol]
  split <;> rfl

lemma paintRow_eq (x y : UInt8) (s : Display × Bool) {line : UInt8 × Nat} (hl : line.2 < 16) :
    paintRow x y s line =
      pure (((Sprite.litColumns line.1).map fun j =>
        Cell.wrap (x.toNat+j) (y.toNat+line.2)).foldl dab s) := by
  have hy := y.toNat_lt
  have hsum : y.toNat+line.2 < 2^16 := by omega
  rw [paintRow, addSize, require_of hsum, pure_bind, remainder,
    require_of (by decide : Screen.height ≠ 0), pure_bind,
    foldlM_eq_pure fun s j hj => paintPixel_eq x line.1 _ s (List.mem_range.mp hj),
    List.foldl_map, Sprite.litColumns, List.foldl_filter]

/-- A sprite of at most sixteen rows is painted to its end. -/
lemma paint_eq (d : Display) (x y : UInt8) {rows : List UInt8} (h : rows.length ≤ 16) :
    paint d x y rows = pure (d.draw x y rows) := by
  have hrow : ∀ line ∈ rows.zipIdx, line.2 < 16 := fun line hl => by
    have := List.snd_lt_of_mem_zipIdx hl
    omega
  rw [paint, foldlM_eq_pure fun s line hl => paintRow_eq x y s (hrow line hl),
    ← List.foldl_flatMap]
  change pure ((Sprite.cells x y rows).foldl dab (d, false)) = _
  rw [foldl_dab, Bool.false_or]
  rfl

/-! ### Keys and timers -/

def isHeld (held : Keypad) (key : UInt8) : Watched Bool := do
  if key ≤ 0xF then return held.mask &&& (← shiftLeftWord 1 key.toNat) != 0 else return false

def countDown (t : Timer) : Watched Timer := do
  if t.count = 0 then return t else return ⟨← checked (Checked.subByte t.count 1)⟩

@[simp] lemma isHeld_eq (held : Keypad) (key : UInt8) :
    isHeld held key = pure (held.isHeld key) := by
  unfold isHeld Keypad.isHeld
  by_cases hk : key ≤ 0xF
  · have hlt : key.toNat < 16 := Nat.lt_succ_of_le (UInt8.le_iff_toNat_le.mp hk)
    have hdigit : key &&& 0xF = key :=
      UInt8.toNat_inj.mp ((toNat_lowDigit key).trans (Nat.mod_eq_of_lt hlt))
    have hbit : Keypad.bit key = 1 <<< key.toNat.toUInt16 := by
      rw [Keypad.bit, hdigit]
      simp
    rw [if_pos hk, shiftLeftWord, require_of hlt, pure_bind, hbit]
    simp [hk]
  · simp [hk]

@[simp] lemma countDown_eq (t : Timer) : countDown t = pure t.step := by
  obtain ⟨c⟩ := t
  by_cases hc : c = 0
  · simp [countDown, Timer.step, hc]
  · have hone : (1 : UInt8).toNat ≤ c.toNat := by
      have : c.toNat ≠ 0 := fun h => hc (UInt8.toNat_inj.mp h)
      change 1 ≤ _
      omega
    simp only [countDown, Timer.step, if_neg hc, Checked.subByte_of_le hone, checked_ok, pure_bind]

/-! ### Paces -/

def pace (hz : UInt32) (now : Nat) : Watched Pace := do
  let period ← divide 1000000000 (max hz.toNat 1)
  return { Pace.new hz now with period := period, next := now+period }

/-- A schedule with every operation watched that has no answer in its width. -/
def schedule (ips : UInt32) (now : Nat) : Watched Schedule := do
  let frame ← checked (Checked.addLong (← divide ips Schedule.timerRate) 1)
  let burst ← mulLong frame 2
  let instructions ← pace ips now
  return { instructions := instructions.withBurst burst.toNat
           timerSteps := ← pace Schedule.timerRate now }

lemma pace_eq (hz : UInt32) (now : Nat) : pace hz now = pure (Pace.new hz now) := by
  rw [pace, divide, require_of (by omega : max hz.toNat 1 ≠ 0), pure_bind]
  rfl

/-- The first deadline is at most a second away. -/
lemma next_new_le (hz : UInt32) (now : Nat) : (Pace.new hz now).next ≤ now+1000000000 :=
  Nat.add_le_add_left (Nat.div_le_self ..) now

/-- No rate is too high for a schedule. -/
theorem schedule_eq (ips : UInt32) (now : Nat) :
    schedule ips now = pure (Schedule.new ips now) := by
  have hips := ips.toNat_lt
  have hrate : Schedule.timerRate.toNat = 60 := rfl
  have hone : (1 : UInt32).toNat = 1 := rfl
  have htwo : (2 : UInt32).toNat = 2 := rfl
  have hadd : (ips/Schedule.timerRate).toNat+(1 : UInt32).toNat < 4294967296 := by
    rw [UInt32.toNat_div, hrate, hone]
    omega
  have hframe : (ips/Schedule.timerRate+1).toNat = ips.toNat/60+1 := by
    rw [UInt32.toNat_add, UInt32.toNat_div, hrate, hone]
    omega
  have hmul : (ips/Schedule.timerRate+1).toNat*(2 : UInt32).toNat < UInt32.size := by
    rw [hframe, htwo]
    change _ < 4294967296
    omega
  have hburst : ((ips/Schedule.timerRate+1)*2).toNat = (ips.toNat/60+1)*2 := by
    rw [UInt32.toNat_mul, hframe, htwo]
    omega
  rw [schedule, divide, require_of (by decide : Schedule.timerRate ≠ 0), pure_bind,
    Checked.addLong_of_lt hadd, checked_ok, pure_bind, mulLong, require_of hmul, pure_bind,
    pace_eq, pure_bind, pace_eq, pure_bind, hburst]
  rfl

end Watched
end Chip8
