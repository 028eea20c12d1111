import Mathlib.Algebra.Group.Nat.Defs
import Pipitor.Manifest

/-!
# Snowflake ids

The conversions of `util.rs` between a tweet id and the time at which it was made: the upper bits of an
id count the milliseconds since `twepoch`, the lower 22 tell the ids of one millisecond apart. A
`SystemTime` is a number of nanoseconds since `UNIX_EPOCH`.
-/

namespace Pipitor

/-- `TWEPOCH`, in milliseconds. -/
def twepoch : ℕ := 1288834974657

def snowflakeToSystemTime (id : UInt64) : ℕ :=
  let snowflakeTimeMs := (id >>> 22).toNat
  (snowflakeTimeMs / 1000 + twepoch / 1000) * 1000000000
    + (snowflakeTimeMs % 1000 + twepoch % 1000) * 1000 * 1000

/-- `system_time_to_snowflake`, or `none` where it panics: before `twepoch`, and when the snowflake
does not fit in a `u64`. -/
def systemTimeToSnowflake (t : ℕ) : Option UInt64 :=
  let millis := t / 1000000
  if twepoch ≤ millis then
    let snowflake := (millis - twepoch) <<< 22
    if snowflake < 2 ^ 64 then some (.ofNat snowflake) else none
  else none

theorem snowflakeToSystemTime_eq (id : UInt64) :
    snowflakeToSystemTime id = (id.toNat / 2 ^ 22 + twepoch) * 1000000 := by
  have hshift : (id >>> 22).toNat = id.toNat / 2 ^ 22 := by
    rw [UInt64.toNat_shiftRight, Nat.shiftRight_eq_div_pow]
    rfl
  unfold snowflakeToSystemTime twepoch
  rw [hshift]
  dsimp only
  omega

theorem systemTimeToSnowflake_eq_some {t : ℕ} {snowflake : UInt64}
    (h : systemTimeToSnowflake t = some snowflake) :
    twepoch ≤ t / 1000000 ∧ snowflake.toNat = (t / 1000000 - twepoch) * 2 ^ 22 := by
  unfold systemTimeToSnowflake at h
  dsimp only at h
  split at h
  · split at h
    · rename_i hle hlt
      refine ⟨hle, ?_⟩
      rw [← Option.some.inj h, UInt64.toNat_ofNat_of_lt' hlt, Nat.shiftLeft_eq]
    · cases h
  · cases h

/-- A tweet made after the time has an id above the time's snowflake. -/
theorem lt_of_snowflakeToSystemTime {t : ℕ} {snowflake id : UInt64}
    (h : systemTimeToSnowflake t = some snowflake) (hid : t < snowflakeToSystemTime id) :
    snowflake < id := by
  obtain ⟨hle, heq⟩ := systemTimeToSnowflake_eq_some h
  rw [snowflakeToSystemTime_eq] at hid
  rw [UInt64.lt_iff_toNat_lt, heq]
  omega

end Pipitor
