import Chip8.Proofs.Keypad
import Mathlib.Data.List.Induction

/-! A pad after keys went down and came up any number of times. Each change is about one key, and
only the latest change about a key counts. All views of a pad tell the same keys: the question
whether a key is held, the list, the lowest key, the question whether none is held, and the mask,
which is what pads are compared by. -/
namespace Chip8

namespace Keypad

/-- A key that goes down or comes up. Any number names a key, by its low digit. -/
inductive Change
  | hold (key : UInt8)
  | release (key : UInt8)
  deriving DecidableEq, Repr

namespace Change

/-- The key of the pad that changes. -/
def place : Change → Nat
  | .hold key | .release key => key.toNat%16

def isDown : Change → Bool
  | .hold _ => true
  | .release _ => false

/-- The latest of some changes of the key at a place. -/
def latest? (changes : List Change) (place : Nat) : Option Change :=
  changes.reverse.find? (·.place = place)

lemma latest?_concat (changes : List Change) (c : Change) (place : Nat) :
    latest? (changes ++ [c]) place = if c.place = place then some c else latest? changes place := by
  by_cases hc : c.place = place <;> simp [latest?, hc]

end Change

/-- One change. -/
def change (k : Keypad) : Change → Keypad
  | .hold key => k.hold key
  | .release key => k.release key

/-- One change after another. -/
def changeAll (k : Keypad) (changes : List Change) : Keypad := changes.foldl change k

/-- A key is down after some changes if there is such a key and the latest change of a key that
agrees with it modulo 16 was that it went down. -/
def Down (changes : List Change) (key : UInt8) : Prop :=
  key ≤ 0xF ∧ ∃ other, Change.latest? changes (key.toNat%16) = some (.hold other)

/-- The lowest key as the number of zeros behind the lowest bit of the mask. -/
def lowestBit? (k : Keypad) : Option UInt8 :=
  if k.isEmpty then none else some k.mask.toBitVec.ctz.toNat.toUInt8

variable {k : Keypad} {key : UInt8}

lemma isHeld_change (k : Keypad) (c : Change) (key : UInt8) :
    (k.change c).isHeld key = if c.place = key.toNat then c.isDown else k.isHeld key := by
  apply Bool.eq_iff_iff.mpr
  cases c with
  | hold other =>
    rw [change, isHeld_hold, Change.place]
    split <;> simp_all [Change.isDown]
  | release other =>
    rw [change, isHeld_release, Change.place]
    split <;> simp_all [Change.isDown]

/-- Whether a key is held is up to its latest change, and up to the start if there was none. -/
lemma isHeld_changeAll (k : Keypad) (changes : List Change) (key : UInt8) :
    (k.changeAll changes).isHeld key =
      ((Change.latest? changes key.toNat).map Change.isDown).getD (k.isHeld key) := by
  induction changes using List.reverseRecOn with
  | nil => rfl
  | append_singleton changes c ih =>
    rw [changeAll, List.foldl_append, List.foldl_cons, List.foldl_nil, isHeld_change,
      Change.latest?_concat]
    split
    · rfl
    · exact ih

lemma isHeld_changeAll_released {changes : List Change} :
    (released.changeAll changes).isHeld key = true ↔ Down changes key := by
  have hlatest : (released.changeAll changes).isHeld key = true ↔
      ∃ other, Change.latest? changes key.toNat = some (.hold other) := by
    rw [isHeld_changeAll, isHeld_released]
    cases Change.latest? changes key.toNat with
    | none => simp
    | some c => cases c <;> simp [Change.isDown]
  have hmod : key ≤ 0xF → key.toNat%16 = key.toNat := fun hkey =>
    Nat.mod_eq_of_lt (le_iff_lt.mp hkey)
  constructor
  · intro h
    have hkey := (isHeld_iff.mp h).1
    refine ⟨hkey, ?_⟩
    rw [hmod hkey]
    exact hlatest.mp h
  · rintro ⟨hkey, h⟩
    rw [hmod hkey] at h
    exact hlatest.mpr h

/-- A list of keys that are held is as many changes. -/
lemma changeAll_ofList (keys : List UInt8) (changes : List Change) :
    (ofList keys).changeAll changes = released.changeAll (keys.map .hold ++ changes) := by
  rw [changeAll, changeAll, List.foldl_append, List.foldl_map]
  rfl

lemma isEmpty_iff : k.isEmpty = true ↔ ∀ key, k.isHeld key = false := by
  rw [isEmpty, beq_iff_eq, mask_eq_zero_iff]

/-- The zeros behind the lowest bit are counted to the lowest key. -/
lemma lowestBit?_eq (k : Keypad) : k.lowestBit? = k.first? := by
  by_cases hmask : k.mask = 0
  · rw [first?_eq_none_iff.mpr hmask, lowestBit?, isEmpty, hmask]
    rfl
  · let zeros := k.mask.toBitVec.ctz.toNat
    have hne : k.mask.toBitVec ≠ 0 := fun h => hmask (UInt16.toBitVec_inj.mp h)
    have hbit : k.mask.toNat.testBit zeros = true := BitVec.getLsbD_true_ctz_of_ne_zero hne
    have hlt : zeros < 16 := BitVec.lt_of_getLsbD hbit
    have hkey : zeros.toUInt8.toNat = zeros := toNat_toUInt8 hlt
    have hfirst : k.first? = some zeros.toUInt8 := by
      refine first?_eq_some_iff.mpr ⟨(isHeld_toUInt8 hlt).mpr hbit, fun other hother => ?_⟩
      rw [UInt8.le_iff_toNat_le, hkey]
      refine Nat.le_of_not_lt fun hbelow => ?_
      have hzero : k.mask.toNat.testBit other.toNat = false :=
        BitVec.getLsbD_false_of_lt_ctz hbelow
      rw [(isHeld_iff.mp hother).2] at hzero
      cases hzero
    rw [hfirst, lowestBit?, if_neg (by simpa [isEmpty] using hmask)]

/-- Lists of keys make the same pad exactly if the same low digits occur in them. -/
lemma ofList_eq_iff {keys others : List UInt8} :
    ofList keys = ofList others ↔
      ∀ place, place ∈ keys.map (·.toNat%16) ↔ place ∈ others.map (·.toNat%16) := by
  constructor
  · intro h place
    by_cases hlt : place < 16
    · rw [← toNat_toUInt8 hlt, ← isHeld_ofList, ← isHeld_ofList, h]
    · have hout : ∀ l : List UInt8, place ∉ l.map (·.toNat%16) := by
        intro l hl
        obtain ⟨key, -, rfl⟩ := List.mem_map.mp hl
        exact hlt (Nat.mod_lt _ (by decide))
      exact iff_of_false (hout keys) (hout others)
  · intro h
    ext key
    apply Bool.eq_iff_iff.mpr
    rw [isHeld_ofList, isHeld_ofList, h]

/-- A pad is the set of the keys whose latest change was that they went down, whatever keys it was
made of and whatever changed since. The list has exactly these keys, each of them once and the
lower one first; the lowest key is the least of them, which the zeros of the mask tell too; a pad
is empty exactly if there is none of them; and pads are equal exactly if they have the same keys.
Which pad a list of keys makes is up to the low digits that occur in it. -/
theorem keys_by_latest_change (keys : List UInt8) (changes : List Change) :
    let k := (ofList keys).changeAll changes
    let history := keys.map .hold ++ changes
    (∀ key, k.isHeld key = true ↔ Down history key) ∧
    (∀ key, key ∈ k.toList ↔ Down history key) ∧ k.toList.Pairwise (· < ·) ∧
    (∀ key, k.first? = some key ↔
      Down history key ∧ ∀ other, Down history other → key ≤ other) ∧
    k.lowestBit? = k.first? ∧
    (k.first? = none ↔ k.isEmpty = true) ∧
    (k.isEmpty = true ↔ ∀ key, ¬ Down history key) ∧
    (∀ other : Keypad, k = other ↔ ∀ key, k.isHeld key = other.isHeld key) ∧
    ∀ others, ofList keys = ofList others ↔
      ∀ place, place ∈ keys.map (·.toNat%16) ↔ place ∈ others.map (·.toNat%16) := by
  intro k history
  have hdown : ∀ key, k.isHeld key = true ↔ Down history key := by
    intro key
    rw [← isHeld_changeAll_released, ← changeAll_ofList]
  refine ⟨hdown, fun key => mem_toList.trans (hdown key), k.pairwise_toList, fun key => ?_,
    k.lowestBit?_eq, ?_, ?_, fun other => ⟨fun h key => h ▸ rfl, Keypad.ext⟩,
    fun others => ofList_eq_iff⟩
  · simp only [first?_eq_some_iff, hdown]
  · rw [first?_eq_none_iff, isEmpty, beq_iff_eq]
  · simp only [isEmpty_iff, ← hdown, Bool.not_eq_true]

/-- Keys named by numbers above 15: key B is held down twice, under two names, and comes up under
a third; what is left are the keys 5 and F. -/
theorem keys_by_latest_change_wrapping :
    let k := (ofList [0x1B,0xB,0x3]).changeAll [.release 0x13,.hold 0xFF,.release 0x2B,.hold 0x5]
    k.toList = [0x5,0xF] ∧ k.isHeld 0xB = false ∧ k.isHeld 0x15 = false ∧
      ∀ other, k.isHeld other = true → 0x5 ≤ other := by
  intro k
  obtain ⟨hheld, -, -, hfirst, -⟩ := keys_by_latest_change [0x1B,0xB,0x3]
    [.release 0x13,.hold 0xFF,.release 0x2B,.hold 0x5]
  refine ⟨by decide, by decide, by decide, fun other hother => ?_⟩
  exact ((hfirst 0x5).mp (by decide)).2 other ((hheld other).mp hother)

end Keypad
end Chip8
