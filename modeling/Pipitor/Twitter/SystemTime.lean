import Pipitor.Foundation.Timespec
import Pipitor.Twitter.Snowflake

/-!
# Snowflakes in machine words

The conversions of `util.rs` once more, at the widths at which they are computed: `u64` seconds, `u32`
nanoseconds, `u128` milliseconds. Both come to the conversions on plain numbers of nanoseconds, and so are
inverse to each other up to the milliseconds and keep the order.
-/

namespace Pipitor.Util

open Timespec

/-- `snowflake_to_system_time`, or `none` where an operation overflows. -/
def snowflakeToSystemTime (id : UInt64) : Option SystemTime := do
  let snowflakeTimeMs := id >>> 22
  let secs ← toU64 ((snowflakeTimeMs / 1000).toNat + twepoch / 1000 % 2 ^ 64)
  let millis ← toU32 ((snowflakeTimeMs % 1000).toUInt32.toNat + twepoch % 1000 % 2 ^ 32)
  let micros ← toU32 (millis.toNat * 1000)
  let nanos ← toU32 (micros.toNat * 1000)
  let timestamp ← Duration.new secs nanos
  SystemTime.unixEpoch.add timestamp

/-- `system_time_to_snowflake`, or `none` where it panics. The shift of a `u128` drops what it pushes out. -/
def systemTimeToSnowflake (t : SystemTime) : Option UInt64 := do
  let unix ← t.durationSince .unixEpoch
  if twepoch ≤ unix.asMillis then toU64 ((unix.asMillis - twepoch) <<< 22 % 2 ^ 128) else none

/-- The times that a snowflake can tell, to the nanosecond. -/
def InRange (t : SystemTime) : Prop :=
  (twepoch * 1000000 : ℤ) ≤ t.toNanos ∧ t.toNanos < ((twepoch + 2 ^ 42) * 1000000 : ℤ)

instance (t : SystemTime) : Decidable (InRange t) := by
  unfold InRange
  infer_instance

/-! ### Against the plain conversions -/

theorem toNat_shiftRight_snowflake (id : UInt64) : (id >>> 22).toNat = id.toNat / 2 ^ 22 := by
  rw [UInt64.toNat_shiftRight, Nat.shiftRight_eq_div_pow]
  rfl

/-- No operation overflows, though the nanoseconds may make up more than a second. -/
theorem exists_snowflakeToSystemTime (id : UInt64) :
    ∃ t, snowflakeToSystemTime id = some t ∧ t.toNanos = Pipitor.snowflakeToSystemTime id := by
  have hid := id.toNat_lt
  have hms := toNat_shiftRight_snowflake id
  have hdiv : (id >>> 22 / 1000).toNat = (id >>> 22).toNat / 1000 := UInt64.toNat_div _ _
  have hmod : (id >>> 22 % 1000).toUInt32.toNat = (id >>> 22).toNat % 1000 := by
    rw [UInt64.toNat_toUInt32, UInt64.toNat_mod]
    apply Nat.mod_eq_of_lt
    show (id >>> 22).toNat % 1000 < _
    omega
  obtain ⟨secs, hsecs, hsecs'⟩ :=
    toU64_eq (n := (id >>> 22 / 1000).toNat + twepoch / 1000 % 2 ^ 64) (by unfold twepoch; omega)
  obtain ⟨millis, hmillis, hmillis'⟩ :=
    toU32_eq (n := (id >>> 22 % 1000).toUInt32.toNat + twepoch % 1000 % 2 ^ 32) (by unfold twepoch; omega)
  unfold twepoch at hsecs' hmillis'
  obtain ⟨micros, hmicros, hmicros'⟩ := toU32_eq (n := millis.toNat * 1000) (by omega)
  obtain ⟨nanos, hnanos, hnanos'⟩ := toU32_eq (n := micros.toNat * 1000) (by omega)
  obtain ⟨timestamp, htimestamp, hval⟩ := Duration.exists_new secs nanos (by unfold nanosPerSec; omega)
  have hsize : timestamp.secs.toNat + 1 < 2 ^ 63 := by
    unfold Duration.toNanos nanosPerSec at hval
    omega
  obtain ⟨t, ht, hsum⟩ := SystemTime.exists_add .unixEpoch timestamp (by
    show (0 : ℤ) + _ + 1 < _
    omega)
  refine ⟨t, ?_, ?_⟩
  · unfold snowflakeToSystemTime
    dsimp only [Option.bind_eq_bind]
    rw [hsecs, Option.bind_some, hmillis, Option.bind_some, hmicros, Option.bind_some, hnanos,
      Option.bind_some, htimestamp, Option.bind_some, ht]
  · rw [hsum, hval, Pipitor.snowflakeToSystemTime_eq, SystemTime.toNanos_unixEpoch]
    unfold nanosPerSec twepoch
    omega

theorem unixEpoch_le_iff (t : SystemTime) : .unixEpoch ≤ t ↔ 0 ≤ t.toNanos := by
  rw [SystemTime.le_iff_toNanos, SystemTime.toNanos_unixEpoch]

theorem systemTimeToSnowflake_eq (t : SystemTime) :
    systemTimeToSnowflake t =
      if 0 ≤ t.toNanos then Pipitor.systemTimeToSnowflake t.toNanos.toNat else none := by
  unfold systemTimeToSnowflake
  by_cases h : SystemTime.unixEpoch ≤ t
  · obtain ⟨unix, hunix, hval⟩ := SystemTime.exists_durationSince h
    rw [SystemTime.toNanos_unixEpoch, Int.sub_zero] at hval
    have hmillis : unix.asMillis = t.toNanos.toNat / 1000000 := by
      rw [unix.asMillis_eq, ← hval, Int.toNat_natCast]
    have hwide : (t.toNanos.toNat / 1000000 - twepoch) <<< 22 < 2 ^ 128 := by
      have hlt := t.toNanos_lt
      rw [Nat.shiftLeft_eq]
      unfold nanosPerSec at hlt
      omega
    rw [if_pos ((unixEpoch_le_iff t).mp h), hunix]
    unfold Pipitor.systemTimeToSnowflake toU64
    dsimp only [Option.bind_eq_bind, Option.bind_some]
    rw [hmillis, Nat.mod_eq_of_lt hwide]
  · have hnone : t.durationSince .unixEpoch = none := if_neg h
    rw [if_neg (by rwa [← unixEpoch_le_iff]), hnone]
    rfl

/-! ### What the conversions come to -/

theorem systemTimeToSnowflake_eq_some {t : SystemTime} {snowflake : UInt64}
    (h : systemTimeToSnowflake t = some snowflake) :
    (snowflake.toNat : ℤ) = (t.millis - twepoch) * 2 ^ 22 := by
  rw [systemTimeToSnowflake_eq] at h
  by_cases hpos : 0 ≤ t.toNanos
  · rw [if_pos hpos] at h
    obtain ⟨hle, heq⟩ := Pipitor.systemTimeToSnowflake_eq_some h
    unfold SystemTime.millis
    omega
  · rw [if_neg hpos] at h
    contradiction

theorem exists_systemTimeToSnowflake {t : SystemTime} (h : InRange t) :
    ∃ snowflake, systemTimeToSnowflake t = some snowflake := by
  obtain ⟨hmin, hmax⟩ := h
  have hle : twepoch ≤ t.toNanos.toNat / 1000000 := by omega
  have hlt : (t.toNanos.toNat / 1000000 - twepoch) <<< 22 < 2 ^ 64 := by
    rw [Nat.shiftLeft_eq]
    omega
  refine ⟨.ofNat ((t.toNanos.toNat / 1000000 - twepoch) <<< 22), ?_⟩
  rw [systemTimeToSnowflake_eq, if_pos (by omega)]
  unfold Pipitor.systemTimeToSnowflake
  dsimp only
  rw [if_pos hle, if_pos hlt]

theorem snowflakeToSystemTime_eq_some {id : UInt64} {t : SystemTime}
    (h : snowflakeToSystemTime id = some t) : t.toNanos = (id.toNat / 2 ^ 22 + twepoch : ℤ) * 1000000 := by
  obtain ⟨u, hu, hval⟩ := exists_snowflakeToSystemTime id
  rw [h] at hu
  rw [Option.some.inj hu, hval, Pipitor.snowflakeToSystemTime_eq]
  push_cast
  rfl

theorem inRange_snowflakeToSystemTime {id : UInt64} {t : SystemTime}
    (h : snowflakeToSystemTime id = some t) : InRange t := by
  have hval := snowflakeToSystemTime_eq_some h
  have hid := id.toNat_lt
  constructor <;> omega

/-- The id without the bits that tell the ids of one millisecond apart. -/
def clearLow (id : UInt64) : UInt64 := id >>> 22 <<< 22

theorem toNat_clearLow (id : UInt64) : (clearLow id).toNat = id.toNat / 2 ^ 22 * 2 ^ 22 := by
  have hid := id.toNat_lt
  have hshift : (id >>> 22 <<< 22).toNat = (id >>> 22).toNat <<< 22 % 2 ^ 64 := UInt64.toNat_shiftLeft _ _
  rw [clearLow, hshift, Nat.shiftLeft_eq, toNat_shiftRight_snowflake]
  apply Nat.mod_eq_of_lt
  omega

theorem systemTimeToSnowflake_snowflakeToSystemTime {id : UInt64} {t : SystemTime}
    (h : snowflakeToSystemTime id = some t) : systemTimeToSnowflake t = some (clearLow id) := by
  obtain ⟨snowflake, hs⟩ := exists_systemTimeToSnowflake (inRange_snowflakeToSystemTime h)
  have hval := systemTimeToSnowflake_eq_some hs
  have ht := snowflakeToSystemTime_eq_some h
  rw [hs]
  apply congrArg some
  apply UInt64.toNat_inj.mp
  rw [toNat_clearLow]
  unfold SystemTime.millis at hval
  omega

theorem snowflakeToSystemTime_systemTimeToSnowflake {t : SystemTime} {snowflake : UInt64}
    (h : systemTimeToSnowflake t = some snowflake) :
    snowflakeToSystemTime snowflake = some t.truncMillis := by
  obtain ⟨u, hu, -⟩ := exists_snowflakeToSystemTime snowflake
  have hval := systemTimeToSnowflake_eq_some h
  have hu' := snowflakeToSystemTime_eq_some hu
  rw [hu]
  apply congrArg some
  apply SystemTime.toNanos_injective
  rw [SystemTime.toNanos_truncMillis, hu']
  omega

theorem snowflakeToSystemTime_mono {id id' : UInt64} {t t' : SystemTime} (hle : id ≤ id')
    (h : snowflakeToSystemTime id = some t) (h' : snowflakeToSystemTime id' = some t') : t ≤ t' := by
  have ht := snowflakeToSystemTime_eq_some h
  have ht' := snowflakeToSystemTime_eq_some h'
  rw [UInt64.le_iff_toNat_le] at hle
  rw [SystemTime.le_iff_toNanos]
  omega

theorem systemTimeToSnowflake_mono {t t' : SystemTime} {id id' : UInt64} (hle : t ≤ t')
    (h : systemTimeToSnowflake t = some id) (h' : systemTimeToSnowflake t' = some id') : id ≤ id' := by
  have hid := systemTimeToSnowflake_eq_some h
  have hid' := systemTimeToSnowflake_eq_some h'
  rw [SystemTime.le_iff_toNanos] at hle
  rw [UInt64.le_iff_toNat_le]
  unfold SystemTime.millis at hid hid'
  omega

theorem lt_systemTimeToSnowflake_iff {id snowflake : UInt64} {made t : SystemTime}
    (hmade : snowflakeToSystemTime id = some made) (h : systemTimeToSnowflake t = some snowflake) :
    id < snowflake ↔ made.millis < t.millis := by
  have hid := snowflakeToSystemTime_eq_some hmade
  have hval := systemTimeToSnowflake_eq_some h
  rw [UInt64.lt_iff_toNat_lt]
  unfold SystemTime.millis at *
  omega

/-! ### The two together -/

/-- On the times in range the conversions never fail, are inverse to each other up to the bits and the
nanoseconds that the other side does not keep, and keep the order of ids and times. -/
theorem snowflake_conversions :
    (∀ id, ∃ t, snowflakeToSystemTime id = some t ∧ systemTimeToSnowflake t = some (clearLow id)) ∧
    (∀ t, InRange t → ∃ id, systemTimeToSnowflake t = some id ∧
      snowflakeToSystemTime id = some t.truncMillis) ∧
    (∀ id id' t t', id ≤ id' → snowflakeToSystemTime id = some t → snowflakeToSystemTime id' = some t' →
      t ≤ t') ∧
    (∀ t t' id id', t ≤ t' → systemTimeToSnowflake t = some id → systemTimeToSnowflake t' = some id' →
      id ≤ id') ∧
    (∀ id t, InRange t → ∃ made snowflake, snowflakeToSystemTime id = some made ∧
      systemTimeToSnowflake t = some snowflake ∧ (id < snowflake ↔ made.millis < t.millis)) := by
  refine ⟨?_, ?_, ?_, ?_, ?_⟩
  · intro id
    obtain ⟨t, ht, -⟩ := exists_snowflakeToSystemTime id
    exact ⟨t, ht, systemTimeToSnowflake_snowflakeToSystemTime ht⟩
  · intro t h
    obtain ⟨id, hid⟩ := exists_systemTimeToSnowflake h
    exact ⟨id, hid, snowflakeToSystemTime_systemTimeToSnowflake hid⟩
  · intro id id' t t' hle ht ht'
    exact snowflakeToSystemTime_mono hle ht ht'
  · intro t t' id id' hle hid hid'
    exact systemTimeToSnowflake_mono hle hid hid'
  · intro id t h
    obtain ⟨made, hmade, -⟩ := exists_snowflakeToSystemTime id
    obtain ⟨snowflake, hs⟩ := exists_systemTimeToSnowflake h
    exact ⟨made, snowflake, hmade, hs, lt_systemTimeToSnowflake_iff hmade hs⟩

/-- The first millisecond and half of it. -/
def firstMilli : SystemTime := ⟨1288834974, 657000000, by decide⟩

def halfMilli : SystemTime := ⟨1288834974, 657500000, by decide⟩

theorem snowflake_conversions_first :
    (∃ id, systemTimeToSnowflake halfMilli = some id ∧ snowflakeToSystemTime id = some halfMilli.truncMillis) ∧
    firstMilli ≤ firstMilli ∧ (0 : UInt64) ≤ 0 ∧
    ∃ made snowflake, snowflakeToSystemTime 5 = some made ∧ systemTimeToSnowflake halfMilli = some snowflake ∧
      (5 < snowflake ↔ made.millis < halfMilli.millis) :=
  ⟨snowflake_conversions.2.1 halfMilli (by decide),
    snowflake_conversions.2.2.1 3 5 firstMilli firstMilli (by decide) (by decide) (by decide),
    snowflake_conversions.2.2.2.1 firstMilli halfMilli 0 0 (by decide) (by decide) (by decide),
    snowflake_conversions.2.2.2.2 5 halfMilli (by decide)⟩

end Pipitor.Util
