import Mathlib.Algebra.Ring.Int.Defs
import Mathlib.Algebra.Ring.Nat

/-!
# Checked and saturating machine integers

The four operations a checked integer program performs on its fixed-width words, each with the one
lemma its callers use: a checked operation is *exact over the unbounded integers when it returns at
all*, and a saturating addition is the exact sum clipped to the range of the word.

Nothing downstream unfolds these operations. Every balance argument moves to `ℕ` through
`checkedAdd_eq_some` and `checkedSub_eq_some` and finishes there.
-/

namespace MachineInt

/-! ## Unsigned words -/

/-- Addition that refuses to wrap. -/
def checkedAdd (a b : UInt64) : Option UInt64 :=
  if a.toNat + b.toNat < 2 ^ 64 then some (a + b) else none

/-- Subtraction that refuses to wrap. -/
def checkedSub (a b : UInt64) : Option UInt64 :=
  if b ≤ a then some (a - b) else none

theorem checkedAdd_eq_some {a b c : UInt64} :
    checkedAdd a b = some c ↔ c.toNat = a.toNat + b.toNat := by
  have hc := c.toNat_lt
  rw [checkedAdd]
  split_ifs with h
  · rw [Option.some_inj, ← UInt64.toNat_inj, UInt64.toNat_add, Nat.mod_eq_of_lt h]
    exact eq_comm
  · simp only [false_iff]
    omega

theorem checkedSub_eq_some {a b c : UInt64} :
    checkedSub a b = some c ↔ a.toNat = b.toNat + c.toNat := by
  rw [checkedSub]
  split_ifs with h
  · have hle := UInt64.le_iff_toNat_le.mp h
    rw [Option.some_inj, ← UInt64.toNat_inj, UInt64.toNat_sub_of_le a b h]
    omega
  · rw [UInt64.le_iff_toNat_le] at h
    simp only [false_iff]
    omega

@[simp] theorem checkedAdd_eq_none {a b : UInt64} :
    checkedAdd a b = none ↔ 2 ^ 64 ≤ a.toNat + b.toNat := by
  rw [checkedAdd]
  split_ifs with h
  · simp only [false_iff]
    omega
  · simp only [true_iff]
    omega

@[simp] theorem checkedSub_eq_none {a b : UInt64} : checkedSub a b = none ↔ ¬b ≤ a := by
  rw [checkedSub]
  split_ifs with h <;> simp [h]

theorem toNat_min (a b : UInt64) : (min a b).toNat = min a.toNat b.toNat := by
  change (if a ≤ b then a else b).toNat = min a.toNat b.toNat
  split_ifs with h <;> rw [UInt64.le_iff_toNat_le] at h <;> omega

theorem min_le_right (a b : UInt64) : min a b ≤ b := by
  rw [UInt64.le_iff_toNat_le, toNat_min]
  omega

/-- Truncated subtraction. -/
def saturatingSub (a b : UInt64) : UInt64 := if b ≤ a then a - b else 0

theorem toNat_saturatingSub (a b : UInt64) : (saturatingSub a b).toNat = a.toNat - b.toNat := by
  rw [saturatingSub]
  split_ifs with h
  · exact UInt64.toNat_sub_of_le a b h
  · rw [UInt64.le_iff_toNat_le] at h
    rw [UInt64.toNat_zero]
    omega

/-! ## Signed words -/

/-- Addition clipped to the range of the word. -/
def saturatingAdd (a b : Int64) : Int64 :=
  if a.toInt + b.toInt < -2 ^ 63 then Int64.minValue
  else if a.toInt + b.toInt < 2 ^ 63 then Int64.ofInt (a.toInt + b.toInt)
  else Int64.maxValue

theorem toInt_saturatingAdd (a b : Int64) :
    (saturatingAdd a b).toInt = max (-2 ^ 63) (min (2 ^ 63 - 1) (a.toInt + b.toInt)) := by
  rw [saturatingAdd]
  split_ifs with h h'
  · rw [Int64.toInt_minValue]
    omega
  · rw [Int64.toInt_ofInt_of_le (by omega) h']
    omega
  · rw [Int64.toInt_maxValue]
    omega

end MachineInt
