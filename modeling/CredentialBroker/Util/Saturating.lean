import Mathlib.Data.UInt

/-!
# Saturating and checked 64-bit arithmetic

The operations that stop at the ends of the range instead of wrapping, and the ones that report an
overflow, each defined by its value in `Nat`.
-/

namespace UInt64

/-- The largest value. -/
def maxVal : Nat := UInt64.size - 1

/-- Addition that stops at the largest value. -/
def satAdd (a b : UInt64) : UInt64 := .ofNat (min (a.toNat + b.toNat) maxVal)

/-- Subtraction that stops at zero. -/
def satSub (a b : UInt64) : UInt64 := .ofNat (a.toNat - b.toNat)

/-- Multiplication that stops at the largest value. -/
def satMul (a b : UInt64) : UInt64 := .ofNat (min (a.toNat * b.toNat) maxVal)

/-- Addition, or nothing if it overflows. -/
def checkedAdd (a b : UInt64) : Option UInt64 :=
  if a.toNat + b.toNat ≤ maxVal then some (.ofNat (a.toNat + b.toNat)) else none

/-- Multiplication, or nothing if it overflows. -/
def checkedMul (a b : UInt64) : Option UInt64 :=
  if a.toNat * b.toNat ≤ maxVal then some (.ofNat (a.toNat * b.toNat)) else none

theorem toNat_ofNat_of_le {n : Nat} (h : n ≤ maxVal) : (UInt64.ofNat n).toNat = n := by
  apply UInt64.toNat_ofNat_of_lt'
  exact Nat.lt_of_le_pred (by decide) h

theorem max_comm (a b : UInt64) : max a b = max b a :=
  UInt64.toNat_inj.mp (by rw [toNat_max, toNat_max, Nat.max_comm])

theorem max_assoc (a b c : UInt64) : max (max a b) c = max a (max b c) :=
  UInt64.toNat_inj.mp (by simp only [toNat_max, Nat.max_assoc])

theorem max_zero (a : UInt64) : max a 0 = a :=
  UInt64.toNat_inj.mp (by rw [toNat_max, UInt64.toNat_zero, Nat.max_zero])

theorem zero_max (a : UInt64) : max 0 a = a :=
  UInt64.toNat_inj.mp (by rw [toNat_max, UInt64.toNat_zero, Nat.zero_max])

theorem le_max_right (a b : UInt64) : b ≤ max a b := by
  rw [UInt64.le_iff_toNat_le, toNat_max]
  exact Nat.le_max_right _ _

theorem min_le_right (a b : UInt64) : min a b ≤ b := by
  rw [UInt64.le_iff_toNat_le, toNat_min]
  exact Nat.min_le_right _ _

@[simp] theorem toNat_satAdd (a b : UInt64) :
    (a.satAdd b).toNat = min (a.toNat + b.toNat) maxVal :=
  toNat_ofNat_of_le (Nat.min_le_right _ _)

@[simp] theorem toNat_satSub (a b : UInt64) : (a.satSub b).toNat = a.toNat - b.toNat :=
  toNat_ofNat_of_le (Nat.le_trans (Nat.sub_le _ _) (Nat.le_of_lt_succ a.toNat_lt))

theorem satAdd_comm (a b : UInt64) : a.satAdd b = b.satAdd a := by
  unfold satAdd
  rw [Nat.add_comm]

theorem satAdd_assoc (a b c : UInt64) : (a.satAdd b).satAdd c = a.satAdd (b.satAdd c) := by
  rw [← UInt64.toNat_inj]
  simp only [toNat_satAdd]
  omega

@[simp] theorem satAdd_zero (a : UInt64) : a.satAdd 0 = a := by
  have hle : a.toNat ≤ maxVal := Nat.le_of_lt_succ a.toNat_lt
  rw [← UInt64.toNat_inj, toNat_satAdd]
  exact Nat.min_eq_left hle

theorem satAdd_le_satAdd {a b c d : UInt64} (h : a ≤ b) (h' : c ≤ d) :
    a.satAdd c ≤ b.satAdd d := by
  rw [UInt64.le_iff_toNat_le, toNat_satAdd, toNat_satAdd]
  exact min_le_min_right _
    (Nat.add_le_add (UInt64.le_iff_toNat_le.mp h) (UInt64.le_iff_toNat_le.mp h'))

theorem le_satAdd_left (a b : UInt64) : a ≤ a.satAdd b := by
  rw [UInt64.le_iff_toNat_le, toNat_satAdd]
  exact le_min (Nat.le_add_right _ _) (Nat.le_of_lt_succ a.toNat_lt)

/-- A sum that fits still does if what one part loses goes to the other. -/
theorem toNat_add_sub_of_lt {a b c : UInt64} (hlt : c < b) (hfits : b.toNat + a.toNat ≤ maxVal) :
    (a + (b - c)).toNat = a.toNat + (b.toNat - c.toNat) := by
  have hle : c.toNat < b.toNat := UInt64.lt_iff_toNat_lt.mp hlt
  have hmax : maxVal = 18446744073709551615 := rfl
  rw [UInt64.toNat_add, UInt64.toNat_sub_of_le _ _ (UInt64.le_of_lt hlt)]
  omega

@[simp] theorem toNat_satMul (a b : UInt64) :
    (a.satMul b).toNat = min (a.toNat * b.toNat) maxVal :=
  toNat_ofNat_of_le (Nat.min_le_right _ _)

/-- A checked sum is missing exactly when it overflows. -/
theorem checkedAdd_isNone {a b : UInt64} :
    (a.checkedAdd b).isNone = true ↔ maxVal < a.toNat + b.toNat := by
  unfold checkedAdd
  split
  · next h => simp; omega
  · next h => simp; omega

/-- A checked product is missing exactly when it overflows. -/
theorem checkedMul_isNone {a b : UInt64} :
    (a.checkedMul b).isNone = true ↔ maxVal < a.toNat * b.toNat := by
  unfold checkedMul
  split
  · next h => simp; omega
  · next h => simp; omega

end UInt64
