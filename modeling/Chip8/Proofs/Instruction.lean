import Chip8.Instruction
import Chip8.Proofs.Opcode

/-! Which words stand for which instruction. A word is sorted by its leading digit; the groups 0, 8,
E and F are sorted again by their last one or two digits. All other digits are operands, or nobody
looks at them: the second digit of group 0, the last digit of groups 5 and 9. -/
namespace Chip8

/-- The fields of the words that stand for an instruction: `0_E0`, `0_EE`, any word of the groups
1 to 7, `8XY0` to `8XY7`, `8XYE`, any word of the groups 9 to D, two of group E and nine of
group F. -/
def Opcode.Fields.Assigned (f : Opcode.Fields) : Prop :=
  match f.kind with
  | 0x0 => f.nn ∈ [0xE0, 0xEE]
  | 0x8 =>
    match f.n with
    | 0x0 | 0x1 | 0x2 | 0x3 | 0x4 | 0x5 | 0x6 | 0x7 | 0xE => True
    | _ => False
  | 0xE => f.nn ∈ [0x9E, 0xA1]
  | 0xF => f.nn ∈ [0x07, 0x0A, 0x15, 0x18, 0x1E, 0x29, 0x33, 0x55, 0x65]
  | _ => True

namespace Instruction

variable {f : Opcode.Fields} {i : Instruction}

theorem ofFields_eq_none_iff : ofFields f = none ↔ ¬ f.Assigned := by
  unfold Opcode.Fields.Assigned
  split
  case h_1 hk | h_2 hk | h_3 hk | h_4 hk =>
    simp only [ofFields, hk]
    split <;> simp_all
  case h_5 =>
    unfold ofFields
    split <;> simp_all
    -- group F is what `ofFields` takes every leading digit for that it does not name
    omega

/-- The leading digit of the words of an instruction. -/
def kind : Instruction → Nat
  | .clearScreen | .ret => 0x0
  | .jump _ => 0x1
  | .call _ => 0x2
  | .skipEqualByte _ _ => 0x3
  | .skipUnequalByte _ _ => 0x4
  | .skipEqual _ _ => 0x5
  | .setByte _ _ => 0x6
  | .addByte _ _ => 0x7
  | .copy _ _ | .or _ _ | .and _ _ | .xor _ _ | .add _ _ | .subtract _ _ | .shiftRight _ _
  | .subtractFrom _ _ | .shiftLeft _ _ => 0x8
  | .skipUnequal _ _ => 0x9
  | .setIndex _ => 0xA
  | .jumpOffset _ => 0xB
  | .random _ _ => 0xC
  | .draw _ _ _ => 0xD
  | .skipHeld _ | .skipNotHeld _ => 0xE
  | .getDelay _ | .awaitKey _ | .setDelay _ | .setSound _ | .addIndex _ | .pointGlyph _
  | .storeDecimal _ | .storeRegisters _ | .loadRegisters _ => 0xF

/-- The last two digits of the words of an instruction that is told apart by them. -/
def selector? : Instruction → Option UInt8
  | .clearScreen => some 0xE0
  | .ret => some 0xEE
  | .skipHeld _ => some 0x9E
  | .skipNotHeld _ => some 0xA1
  | .getDelay _ => some 0x07
  | .awaitKey _ => some 0x0A
  | .setDelay _ => some 0x15
  | .setSound _ => some 0x18
  | .addIndex _ => some 0x1E
  | .pointGlyph _ => some 0x29
  | .storeDecimal _ => some 0x33
  | .storeRegisters _ => some 0x55
  | .loadRegisters _ => some 0x65
  | _ => none

theorem kind_of_ofFields (h : ofFields f = some i) :
    f.kind.val = i.kind ∧ ∀ nn, i.selector? = some nn → f.nn = nn := by
  unfold ofFields at h
  split at h
  case h_16 =>
    have hk : f.kind = 0xF := by
      simp only [imp_false] at *
      omega
    split at h <;> cases h <;> refine ⟨congrArg Fin.val hk, ?_⟩ <;> simp_all [selector?]
  all_goals
    have hk : f.kind = _ := ‹_›
    first
    | (cases h; refine ⟨congrArg Fin.val hk, ?_⟩; simp [selector?])
    | (split at h <;> cases h <;> refine ⟨congrArg Fin.val hk, ?_⟩ <;> simp_all [selector?])

/-- The operands of an instruction are the fields of this word. -/
def Reads (f : Opcode.Fields) : Instruction → Prop
  | .clearScreen | .ret => True
  | .jump nnn | .call nnn | .setIndex nnn | .jumpOffset nnn => nnn = f.nnn
  | .skipEqualByte x nn | .skipUnequalByte x nn | .setByte x nn | .addByte x nn | .random x nn =>
    x = f.x ∧ nn = f.nn
  | .skipEqual x y | .skipUnequal x y | .copy x y | .or x y | .and x y | .xor x y | .add x y
  | .subtract x y | .shiftRight x y | .subtractFrom x y | .shiftLeft x y => x = f.x ∧ y = f.y
  | .draw x y n => x = f.x ∧ y = f.y ∧ n = f.n
  | .skipHeld x | .skipNotHeld x | .getDelay x | .awaitKey x | .setDelay x | .setSound x
  | .addIndex x | .pointGlyph x | .storeDecimal x | .storeRegisters x | .loadRegisters x => x = f.x

lemma reads_of_ofFields (h : ofFields f = some i) : i.Reads f := by
  unfold ofFields at h
  split at h
  all_goals first
    | (cases h; simp [Reads])
    | (split at h <;> cases h <;> simp [Reads])

lemma ofFields_eq_ret_iff : ofFields f = some .ret ↔ f.kind = 0x0 ∧ f.nn = 0xEE := by
  constructor
  · intro h
    obtain ⟨hk, hs⟩ := kind_of_ofFields h
    exact ⟨Fin.ext hk, hs _ rfl⟩
  · rintro ⟨hk, hs⟩
    simp [ofFields, hk, hs]

lemma ofFields_eq_call_iff : (∃ nnn, ofFields f = some (.call nnn)) ↔ f.kind = 0x2 := by
  constructor
  · rintro ⟨nnn, h⟩
    exact Fin.ext (kind_of_ofFields h).1
  · intro hk
    exact ⟨f.nnn, by simp [ofFields, hk]⟩

end Instruction
end Chip8
