/-! A byte that is counted down to zero. -/
namespace Chip8

structure Timer where
  count : UInt8
  deriving DecidableEq, Repr

namespace Timer

def isActive (t : Timer) : Bool := 0 < t.count

/-- One step down; zero stays zero. -/
def step (t : Timer) : Timer := ⟨if t.count = 0 then 0 else t.count - 1⟩

@[simp] theorem toNat_step (t : Timer) : t.step.count.toNat = t.count.toNat - 1 := by
  obtain ⟨c⟩ := t
  unfold step
  split
  · simp_all
  · rename_i h
    have : 1 ≤ c := by
      rw [UInt8.le_iff_toNat_le]
      have : c.toNat ≠ 0 := fun h0 => h (UInt8.toNat_inj.mp h0)
      simp; omega
    simp [UInt8.toNat_sub_of_le _ _ this]

end Timer
end Chip8
