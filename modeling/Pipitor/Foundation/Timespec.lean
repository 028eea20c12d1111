import Mathlib.Algebra.Order.Group.Nat
import Mathlib.Algebra.Order.Ring.Int
import Mathlib.Data.Int.Basic

/-!
# Seconds and nanoseconds

Spans and points of time as a clock keeps them: whole seconds, and nanoseconds under a second that every
operation has to carry. `toNanos` is the number that such a pair stands for; an operation that would
overflow gives `none`.
-/

namespace Timespec

def nanosPerSec : ℕ := 1000000000

structure Duration where
  secs : UInt64
  nanos : UInt32
  nanos_lt : nanos.toNat < nanosPerSec
deriving DecidableEq, Repr

/-- A point of time, counted from the epoch. -/
structure SystemTime where
  secs : Int64
  nanos : UInt32
  nanos_lt : nanos.toNat < nanosPerSec
deriving DecidableEq, Repr

def toI64 (n : ℤ) : Option Int64 := if -2 ^ 63 ≤ n ∧ n < 2 ^ 63 then some (.ofInt n) else none

def toU64 (n : ℕ) : Option UInt64 := if n < 2 ^ 64 then some (.ofNat n) else none

def toU32 (n : ℕ) : Option UInt32 := if n < 2 ^ 32 then some (.ofNat n) else none

namespace Duration

def toNanos (d : Duration) : ℕ := d.secs.toNat * nanosPerSec + d.nanos.toNat

theorem mod_nanosPerSec_lt (n : UInt32) : (n % 1000000000).toNat < nanosPerSec := by
  rw [UInt32.toNat_mod]
  exact Nat.mod_lt _ (by decide)

theorem toNat_nanos_add (d e : UInt32) (hd : d.toNat < nanosPerSec) (he : e.toNat < nanosPerSec) :
    (d + e).toNat = d.toNat + e.toNat := by
  unfold nanosPerSec at hd he
  rw [UInt32.toNat_add]
  apply Nat.mod_eq_of_lt
  omega

theorem toNat_nanos_carry (d e : UInt32) (hd : d.toNat < nanosPerSec) (he : e.toNat < nanosPerSec)
    (h : ¬ (d + e).toNat < nanosPerSec) :
    (d + e - 1000000000).toNat = d.toNat + e.toNat - nanosPerSec := by
  rw [toNat_nanos_add d e hd he] at h
  have hle : (1000000000 : UInt32) ≤ d + e := by
    rw [UInt32.le_iff_toNat_le, toNat_nanos_add d e hd he]
    exact Nat.le_of_not_lt h
  rw [UInt32.toNat_sub_of_le _ _ hle, toNat_nanos_add d e hd he]
  rfl

theorem carry_lt (d e : UInt32) (hd : d.toNat < nanosPerSec) (he : e.toNat < nanosPerSec)
    (h : ¬ (d + e).toNat < nanosPerSec) : (d + e - 1000000000).toNat < nanosPerSec := by
  rw [toNat_nanos_carry d e hd he h]
  omega

/-- The nanoseconds may make up a second or more. -/
def new (secs : UInt64) (nanos : UInt32) : Option Duration :=
  if h : nanos.toNat < nanosPerSec then some ⟨secs, nanos, h⟩
  else do
    let secs ← toU64 (secs.toNat + (nanos / 1000000000).toNat)
    return ⟨secs, nanos % 1000000000, mod_nanosPerSec_lt nanos⟩

def asMillis (d : Duration) : ℕ := d.secs.toNat * 1000 + (d.nanos / 1000000).toNat

end Duration

namespace SystemTime

def toNanos (t : SystemTime) : ℤ := t.secs.toInt * nanosPerSec + t.nanos.toNat

def unixEpoch : SystemTime := ⟨0, 0, by decide⟩

/-- Seconds first. -/
instance : LE SystemTime :=
  ⟨fun t u => t.secs < u.secs ∨ t.secs = u.secs ∧ t.nanos ≤ u.nanos⟩

instance (t u : SystemTime) : Decidable (t ≤ u) :=
  inferInstanceAs (Decidable (t.secs < u.secs ∨ t.secs = u.secs ∧ t.nanos ≤ u.nanos))

def add (t : SystemTime) (d : Duration) : Option SystemTime := do
  let secs ← toI64 (t.secs.toInt + d.secs.toNat)
  let nanos := t.nanos + d.nanos
  if h : nanos.toNat < nanosPerSec then some ⟨secs, nanos, h⟩
  else do
    let secs ← toI64 (secs.toInt + 1)
    return ⟨secs, nanos - 1000000000, Duration.carry_lt _ _ t.nanos_lt d.nanos_lt h⟩

/-- The span from `u` to `t`, if `u` is not after `t`. -/
def durationSince (t u : SystemTime) : Option Duration :=
  if u ≤ t then
    if u.nanos ≤ t.nanos then Duration.new (t.secs - u.secs).toUInt64 (t.nanos - u.nanos)
    else Duration.new (t.secs - u.secs - 1).toUInt64 (t.nanos + 1000000000 - u.nanos)
  else none

end SystemTime

namespace SystemTime

/-- The milliseconds since the epoch. -/
def millis (t : SystemTime) : ℤ := t.toNanos / 1000000

theorem toNat_wholeMillis (n : UInt32) :
    (n / 1000000 * 1000000).toNat = n.toNat / 1000000 * 1000000 := by
  have hn := n.toNat_lt
  have hdiv : (n / 1000000).toNat = n.toNat / 1000000 := UInt32.toNat_div _ _
  rw [UInt32.toNat_mul, hdiv]
  apply Nat.mod_eq_of_lt
  show n.toNat / 1000000 * 1000000 < _
  omega

theorem wholeMillis_lt (t : SystemTime) : (t.nanos / 1000000 * 1000000).toNat < nanosPerSec := by
  have ht := t.nanos_lt
  rw [toNat_wholeMillis]
  omega

/-- The time without the part of it under a millisecond. -/
def truncMillis (t : SystemTime) : SystemTime := ⟨t.secs, t.nanos / 1000000 * 1000000, t.wholeMillis_lt⟩

end SystemTime

/-! ### What the pairs stand for -/

theorem toI64_eq {n : ℤ} (h : -2 ^ 63 ≤ n ∧ n < 2 ^ 63) : ∃ i, toI64 n = some i ∧ i.toInt = n := by
  refine ⟨.ofInt n, if_pos h, ?_⟩
  apply Int64.toInt_ofInt_of_le
  · exact h.1
  · exact h.2

theorem toU64_eq {n : ℕ} (h : n < 2 ^ 64) : ∃ i, toU64 n = some i ∧ i.toNat = n :=
  ⟨.ofNat n, if_pos h, UInt64.toNat_ofNat_of_lt' h⟩

theorem toU32_eq {n : ℕ} (h : n < 2 ^ 32) : ∃ i, toU32 n = some i ∧ i.toNat = n :=
  ⟨.ofNat n, if_pos h, UInt32.toNat_ofNat_of_lt' h⟩

namespace Duration

theorem exists_new (secs : UInt64) (nanos : UInt32) (h : secs.toNat + nanos.toNat / nanosPerSec < 2 ^ 64) :
    ∃ d, new secs nanos = some d ∧ d.toNanos = secs.toNat * nanosPerSec + nanos.toNat := by
  unfold new
  by_cases hn : nanos.toNat < nanosPerSec
  · exact ⟨⟨secs, nanos, hn⟩, dif_pos hn, rfl⟩
  · have hdiv : (nanos / 1000000000).toNat = nanos.toNat / nanosPerSec := UInt32.toNat_div _ _
    have hmod : (nanos % 1000000000).toNat = nanos.toNat % nanosPerSec := UInt32.toNat_mod _ _
    obtain ⟨s, hs, hsum⟩ := toU64_eq h
    refine ⟨⟨s, nanos % 1000000000, mod_nanosPerSec_lt nanos⟩, ?_, ?_⟩
    · rw [dif_neg hn, hdiv, hs]
      rfl
    · simp only [toNanos]
      rw [hsum, hmod]
      unfold nanosPerSec
      omega

theorem asMillis_eq (d : Duration) : d.asMillis = d.toNanos / 1000000 := by
  have hdiv : (d.nanos / 1000000).toNat = d.nanos.toNat / 1000000 := UInt32.toNat_div _ _
  unfold asMillis toNanos nanosPerSec
  omega

end Duration

namespace SystemTime

theorem toNanos_injective : Function.Injective toNanos := by
  intro t u h
  have ht := t.nanos_lt
  have hu := u.nanos_lt
  unfold toNanos nanosPerSec at *
  have hsecs : t.secs = u.secs := Int64.toInt_inj.mp (by omega)
  have hnanos : t.nanos = u.nanos := UInt32.toNat_inj.mp (by omega)
  cases t
  cases u
  subst hsecs hnanos
  rfl

theorem le_iff_toNanos (t u : SystemTime) : t ≤ u ↔ t.toNanos ≤ u.toNanos := by
  have ht := t.nanos_lt
  have hu := u.nanos_lt
  change t.secs < u.secs ∨ t.secs = u.secs ∧ t.nanos ≤ u.nanos ↔ _
  rw [Int64.lt_iff_toInt_lt, ← Int64.toInt_inj, UInt32.le_iff_toNat_le]
  unfold toNanos nanosPerSec at *
  omega

@[simp]
theorem toNanos_unixEpoch : unixEpoch.toNanos = 0 := rfl

theorem toNanos_lt (t : SystemTime) : t.toNanos < 2 ^ 63 * nanosPerSec := by
  have hmax := t.secs.toInt_lt
  have ht := t.nanos_lt
  unfold toNanos nanosPerSec at *
  omega

theorem exists_add (t : SystemTime) (d : Duration) (h : t.secs.toInt + d.secs.toNat + 1 < 2 ^ 63) :
    ∃ u, t.add d = some u ∧ u.toNanos = t.toNanos + d.toNanos := by
  have hmin := t.secs.le_toInt
  obtain ⟨s, hs, hsum⟩ := toI64_eq (n := t.secs.toInt + d.secs.toNat) (by omega)
  have hadd := Duration.toNat_nanos_add _ _ t.nanos_lt d.nanos_lt
  unfold add
  rw [hs]
  by_cases hn : (t.nanos + d.nanos).toNat < nanosPerSec
  · refine ⟨⟨s, t.nanos + d.nanos, hn⟩, dif_pos hn, ?_⟩
    simp only [toNanos, Duration.toNanos, hsum, hadd, nanosPerSec]
    omega
  · have hcarry := Duration.toNat_nanos_carry _ _ t.nanos_lt d.nanos_lt hn
    obtain ⟨s', hs', hsum'⟩ := toI64_eq (n := s.toInt + 1) (by omega)
    refine ⟨⟨s', t.nanos + d.nanos - 1000000000, Duration.carry_lt _ _ t.nanos_lt d.nanos_lt hn⟩, ?_, ?_⟩
    · dsimp only [Option.bind_eq_bind, Option.bind_some]
      rw [dif_neg hn, hs']
      rfl
    · rw [hadd] at hn
      simp only [toNanos, Duration.toNanos, hsum', hsum, hcarry]
      unfold nanosPerSec at *
      omega

theorem toNanos_truncMillis (t : SystemTime) : t.truncMillis.toNanos = t.millis * 1000000 := by
  have hnanos := toNat_wholeMillis t.nanos
  unfold truncMillis millis toNanos nanosPerSec
  dsimp only
  omega

theorem toNat_sub_secs (t u : Int64) (h : u.toInt ≤ t.toInt) :
    ((t - u).toUInt64.toNat : ℤ) = t.toInt - u.toInt := by
  have hbv : (t - u).toUInt64.toNat = (t.toBitVec - u.toBitVec).toNat := rfl
  have htn := t.toBitVec.isLt
  have hun := u.toBitVec.isLt
  rw [hbv, BitVec.toNat_sub]
  rw [← Int64.toInt_toBitVec, ← Int64.toInt_toBitVec, BitVec.toInt_eq_toNat_cond,
    BitVec.toInt_eq_toNat_cond] at *
  omega

theorem exists_durationSince {t u : SystemTime} (h : u ≤ t) :
    ∃ d, t.durationSince u = some d ∧ (d.toNanos : ℤ) = t.toNanos - u.toNanos := by
  have hle := (le_iff_toNanos u t).mp h
  have ht := t.nanos_lt
  have hu := u.nanos_lt
  unfold toNanos nanosPerSec at *
  have hsecs := toNat_sub_secs t.secs u.secs (by omega)
  have hsize := (t.secs - u.secs).toUInt64.toNat_lt
  unfold durationSince
  rw [if_pos h]
  by_cases hn : u.nanos ≤ t.nanos
  · have hnanos := UInt32.toNat_sub_of_le _ _ hn
    have hn' := UInt32.le_iff_toNat_le.mp hn
    obtain ⟨d, hd, hval⟩ := Duration.exists_new (t.secs - u.secs).toUInt64 (t.nanos - u.nanos)
      (by unfold nanosPerSec; omega)
    refine ⟨d, by rw [if_pos hn, hd], ?_⟩
    rw [hval, hnanos, nanosPerSec]
    omega
  · -- a second is borrowed
    have hn' : t.nanos.toNat < u.nanos.toNat := by
      rw [UInt32.le_iff_toNat_le] at hn
      omega
    have hsum : (t.nanos + 1000000000).toNat = t.nanos.toNat + 1000000000 := by
      rw [UInt32.toNat_add]
      apply Nat.mod_eq_of_lt
      show t.nanos.toNat + 1000000000 < _
      omega
    have hnanos : (t.nanos + 1000000000 - u.nanos).toNat = t.nanos.toNat + 1000000000 - u.nanos.toNat := by
      rw [UInt32.toNat_sub_of_le _ _ (by rw [UInt32.le_iff_toNat_le]; omega), hsum]
    have hborrow : (t.secs - u.secs - 1).toUInt64.toNat = (t.secs - u.secs).toUInt64.toNat - 1 := by
      rw [Int64.toUInt64_sub, UInt64.toNat_sub_of_le]
      · rfl
      · rw [UInt64.le_iff_toNat_le]
        show 1 ≤ _
        omega
    obtain ⟨d, hd, hval⟩ := Duration.exists_new (t.secs - u.secs - 1).toUInt64
      (t.nanos + 1000000000 - u.nanos) (by unfold nanosPerSec; omega)
    refine ⟨d, by rw [if_neg hn, hd], ?_⟩
    rw [hval, hnanos, hborrow, nanosPerSec]
    omega

end SystemTime

end Timespec
