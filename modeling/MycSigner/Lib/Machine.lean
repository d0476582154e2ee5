import Mathlib.Data.Nat.Notation
import Mathlib.Tactic.Ring

/-!
# Checked and saturating machine arithmetic

The operations of a 64-bit word that do not wrap: a checked operation has no result where the
exact one does not fit, and a saturating operation stops at the end of the range.  Each comes
with what it computes over the natural numbers.
-/

namespace Machine

/-- `u64::MAX` -/
def u64Max : UInt64 := UInt64.ofNat (2 ^ 64 - 1)

/-- `u32::saturating_sub` -/
def saturatingSub (a b : UInt32) : UInt32 := if b ≤ a then a - b else 0

/-- `u64::saturating_mul` -/
def saturatingMul (a b : UInt64) : UInt64 :=
  if a.toNat * b.toNat < 2 ^ 64 then a * b else u64Max

/-- `u64::checked_add` -/
def checkedAdd (a b : UInt64) : Option UInt64 :=
  if a.toNat + b.toNat < 2 ^ 64 then some (a + b) else none

/-- `u64::checked_shl` -/
def checkedShl (a : UInt64) (exponent : UInt32) : Option UInt64 :=
  if exponent.toNat < 64 then some (a <<< exponent.toUInt64) else none

theorem toNat_min_u32 (a b : UInt32) : (min a b).toNat = min a.toNat b.toNat := by
  rw [UInt32.min_def]
  split
  next h => exact (Nat.min_eq_left (UInt32.le_iff_toNat_le.mp h)).symm
  next h =>
    rw [UInt32.le_iff_toNat_le] at h
    exact (Nat.min_eq_right (by omega)).symm

theorem toNat_min_u64 (a b : UInt64) : (min a b).toNat = min a.toNat b.toNat := by
  rw [UInt64.min_def]
  split
  next h => exact (Nat.min_eq_left (UInt64.le_iff_toNat_le.mp h)).symm
  next h =>
    rw [UInt64.le_iff_toNat_le] at h
    exact (Nat.min_eq_right (by omega)).symm

theorem saturatingSub_toNat (a b : UInt32) : (saturatingSub a b).toNat = a.toNat - b.toNat := by
  unfold saturatingSub
  split
  next h => exact UInt32.toNat_sub_of_le _ _ h
  next h =>
    have hlt : a.toNat < b.toNat := by
      rw [UInt32.le_iff_toNat_le] at h
      omega
    simp
    omega

theorem saturatingMul_toNat (a b : UInt64) :
    (saturatingMul a b).toNat = min (a.toNat * b.toNat) (2 ^ 64 - 1) := by
  unfold saturatingMul
  split
  next h =>
    rw [UInt64.toNat_mul, Nat.mod_eq_of_lt h]
    omega
  next h =>
    have hmax : u64Max.toNat = 2 ^ 64 - 1 := by decide
    omega

theorem checkedAdd_of_lt {a b : UInt64} (h : a.toNat + b.toNat < 2 ^ 64) :
    ∃ c, checkedAdd a b = some c ∧ c.toNat = a.toNat + b.toNat := by
  refine ⟨a + b, if_pos h, ?_⟩
  rw [UInt64.toNat_add, Nat.mod_eq_of_lt h]

theorem checkedShl_one (exponent : UInt32) (h : exponent.toNat < 64) :
    ∃ factor, checkedShl 1 exponent = some factor ∧ factor.toNat = 2 ^ exponent.toNat := by
  refine ⟨1 <<< exponent.toUInt64, if_pos h, ?_⟩
  have hfits : 2 ^ exponent.toNat < 2 ^ 64 := Nat.pow_lt_pow_right (by decide) h
  rw [UInt64.toNat_shiftLeft, UInt32.toNat_toUInt64, Nat.mod_eq_of_lt h, Nat.shiftLeft_eq,
    show (1 : UInt64).toNat = 1 from rfl, Nat.one_mul]
  exact Nat.mod_eq_of_lt hfits

end Machine
