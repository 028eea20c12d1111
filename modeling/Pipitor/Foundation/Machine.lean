import Mathlib.Algebra.Group.Nat.Defs
import Mathlib.Order.MinMax

/-!
# 64-bit integers

The checked conversions between `i64` and `u64`, the saturating sum, and the order of `i64` as a linear
order, so that the lemmas about `min` and `max` apply to it.
-/

namespace Machine

instance linearOrderInt64 : LinearOrder Int64 where
  le_refl := Int64.le_refl
  le_trans _ _ _ := Int64.le_trans
  le_antisymm _ _ := Int64.le_antisymm
  le_total := Int64.le_total
  lt_iff_le_not_ge _ _ := Std.LawfulOrderLT.lt_iff _ _
  toDecidableLE := inferInstance

/-- The sum, or the greatest `u64`. -/
def saturatingAdd (a b : UInt64) : UInt64 :=
  if a.toNat + b.toNat < 2 ^ 64 then a + b else 0xffffffffffffffff

/-- A `u64` as an `i64`, if it fits. -/
def tryIntoI64 (a : UInt64) : Option Int64 :=
  if a.toNat < 2 ^ 63 then some a.toInt64 else none

/-- An `i64` as a `u64`, if it fits. -/
def tryIntoU64 (a : Int64) : Option UInt64 :=
  if 0 ≤ a then some a.toUInt64 else none

theorem tryIntoI64_eq_some {a : UInt64} {i : Int64} (h : tryIntoI64 a = some i) :
    i.toInt = a.toNat := by
  unfold tryIntoI64 at h
  split at h
  · rename_i hlt
    have hcast : a.toInt64 = Int64.ofNat a.toNat := by
      rw [← UInt64.toInt64_ofNat', UInt64.ofNat_toNat]
    rw [← Option.some.inj h, hcast, Int64.toInt_ofNat_of_lt hlt]
  · cases h

theorem toNat_toUInt64 {i : Int64} (h : 0 ≤ i) : (i.toUInt64.toNat : ℤ) = i.toInt := by
  rw [Int64.toNat_toUInt64_of_le h, Int64.toInt_eq_toNatClampNeg h]

theorem sub_one_lt_iff {a b c : Int64} (h : c < a) : a - 1 < b ↔ a ≤ b := by
  have hc := c.le_toInt
  have ha := a.toInt_lt
  rw [Int64.lt_iff_toInt_lt] at h
  have hsub : (a - 1).toInt = a.toInt - 1 := by
    rw [Int64.toInt_sub, show (1 : Int64).toInt = 1 from rfl, Int.bmod_eq_of_le] <;> omega
  rw [Int64.lt_iff_toInt_lt, Int64.le_iff_toInt_le, hsub]
  omega

end Machine
