import Mathlib.Algebra.Group.Nat.Defs
import Pipitor.Websub.World

/-!
# The scheduler

`websub/subscriber/scheduler.rs`. `Handle::hasten` lowers the shared `next_tick` by an atomic
`fetch_min`; `Scheduler::poll` arms its timer from it, runs the callback once the deadline has passed,
and stores what the callback returned. `Instant`s are identified with the Unix times that
`util::instant_from_unix` makes them from; from a time that is too far ahead it makes none.
-/

namespace Pipitor.Websub

open Resumption

/-- `util::instant_from_unix` at the time `now`. An `Instant` is an `i64` of seconds since the machine was
booted, which was at the time `boot`. -/
def instantFromUnix (boot now unix : UInt64) : Except Abort UInt64 :=
  if now < unix then
    -- `now_i + (unix - now_unix)` panics on overflow
    if (now.toNat - boot.toNat) + (unix.toNat - now.toNat) < 2 ^ 63 then .ok unix else .error .arithmetic
  else
    -- `now_i - (now_unix - unix)` may be negative, as an `i64` may, and is in range, as `now` is
    .ok unix

/-- The Unix time can be made an `Instant` at the time `now`. -/
def IsInstant (boot now unix : UInt64) : Prop :=
  unix ≤ now ∨ (now.toNat - boot.toNat) + (unix.toNat - now.toNat) < 2 ^ 63

instance (boot now unix : UInt64) : Decidable (IsInstant boot now unix) :=
  inferInstanceAs (Decidable (_ ∨ _))

section Instants

variable {boot now unix : UInt64}

theorem instantFromUnix_ok (h : IsInstant boot now unix) : instantFromUnix boot now unix = .ok unix := by
  unfold instantFromUnix
  by_cases hlt : now < unix
  · have hfits := h.resolve_left fun hle => UInt64.not_lt.mpr hle hlt
    rw [if_pos hlt, if_pos hfits]
  · rw [if_neg hlt]

theorem instantFromUnix_error (h : ¬ IsInstant boot now unix) :
    instantFromUnix boot now unix = .error .arithmetic := by
  obtain ⟨hlater, hover⟩ := not_or.mp h
  unfold instantFromUnix
  rw [if_pos (UInt64.not_le.mp hlater), if_neg hover]

/-- A time that an `i64` holds is an `Instant`, whenever the machine was booted. -/
theorem isInstant_of_lt (h : unix.toNat < 2 ^ 63) : IsInstant boot now unix := by
  rw [IsInstant, UInt64.le_iff_toNat_le]
  omega

end Instants

namespace Timer

/-- `u64::MAX`, which stands for no next tick. -/
def never : UInt64 := 0xffffffffffffffff

/-- The next tick, if there is one. -/
def tick? (t : Timer) : Option UInt64 := if t.nextTick ≠ never then some t.nextTick else none

/-- `Handle::decode_next_tick`. -/
def decodeNextTick (boot now : UInt64) (t : Timer) : Except Abort (Option UInt64) :=
  match t.tick? with
  | some nextTick => (instantFromUnix boot now nextTick).map some
  | none => .ok none

/-- `Handle::new`, of which the first poll is due. -/
def handle (firstTick : Option UInt64) : Timer := ⟨firstTick.getD never, none, true⟩

/-- `Handle::new` followed by `Scheduler::new` and the `tokio::spawn` of it. -/
def spawn (boot now : UInt64) (firstTick : Option UInt64) : Except Abort Timer := do
  let delay ← (handle firstTick).decodeNextTick boot now
  pure { handle firstTick with delay }

/-- The timer of a scheduler that has been spawned with a first tick that is an `Instant`. -/
def new (firstTick : Option UInt64) : Timer := { handle firstTick with delay := (handle firstTick).tick? }

/-- `Handle::hasten`. -/
def hasten (nextTick : UInt64) (t : Timer) : Timer :=
  { t with
    nextTick := min t.nextTick nextTick
    woken := t.woken || decide (nextTick < t.nextTick) }

/-- `poll` up to the `ready!`: the timer is armed no later than the next tick that was just read. -/
def arm (boot now : UInt64) (t : Timer) : Except Abort Timer := do
  let nextTick ← t.decodeNextTick boot now
  match t.delay, nextTick with
  | some deadline, some nextTick => pure (if nextTick < deadline then { t with delay := nextTick } else t)
  | some _, none => pure t
  | none, nextTick => pure { t with delay := nextTick }

/-- The timer that has been armed with a next tick that is an `Instant`. -/
def armed (t : Timer) : Timer :=
  match t.delay, t.tick? with
  | some deadline, some nextTick => if nextTick < deadline then { t with delay := nextTick } else t
  | some _, none => t
  | none, nextTick => { t with delay := nextTick }

/-- The next tick can be made an `Instant` at the time `now`. -/
def Decodes (boot now : UInt64) (t : Timer) : Prop := ∀ tick ∈ t.tick?, IsInstant boot now tick

instance (boot now : UInt64) (t : Timer) : Decidable (t.Decodes boot now) :=
  decidable_of_iff (t.tick?.all (fun tick => decide (IsInstant boot now tick)) = true)
    (by simp [Decodes, Option.all_eq_true])

section Decodes

variable {boot now : UInt64} {t : Timer}

theorem decodeNextTick_ok (h : t.Decodes boot now) : t.decodeNextTick boot now = .ok t.tick? := by
  unfold decodeNextTick
  cases htick : t.tick? with
  | none => rfl
  | some tick =>
    dsimp only
    rw [instantFromUnix_ok (h tick htick)]
    rfl

theorem decodeNextTick_error (h : ¬ t.Decodes boot now) : t.decodeNextTick boot now = .error .arithmetic := by
  unfold decodeNextTick
  cases htick : t.tick? with
  | none =>
    refine absurd (fun tick hmem => ?_) h
    rw [htick] at hmem
    cases hmem
  | some tick =>
    have hnot : ¬ IsInstant boot now tick := by
      refine fun hinstant => h fun tick' hmem => ?_
      rw [htick] at hmem
      exact Option.some.inj hmem ▸ hinstant
    dsimp only
    rw [instantFromUnix_error hnot]
    rfl

theorem arm_ok (h : t.Decodes boot now) : t.arm boot now = .ok t.armed := by
  unfold arm armed
  rw [decodeNextTick_ok h]
  cases t.delay with
  | none => rfl
  | some deadline =>
    cases t.tick? with
    | none => rfl
    | some tick => rfl

theorem arm_error (h : ¬ t.Decodes boot now) : t.arm boot now = .error .arithmetic := by
  unfold arm
  rw [decodeNextTick_error h]
  rfl

theorem arm_eq_ok {t' : Timer} (h : t.arm boot now = .ok t') : t.Decodes boot now ∧ t' = t.armed := by
  by_cases hdecodes : t.Decodes boot now
  · rw [arm_ok hdecodes] at h
    exact ⟨hdecodes, (Except.ok.inj h).symm⟩
  · rw [arm_error hdecodes] at h
    cases h

theorem arm_eq_error {e : Abort} (h : t.arm boot now = .error e) : e = .arithmetic := by
  by_cases hdecodes : t.Decodes boot now
  · rw [arm_ok hdecodes] at h
    cases h
  · rw [arm_error hdecodes] at h
    exact (Except.error.inj h).symm

theorem decodes_handle {firstTick : Option UInt64} (h : ∀ tick ∈ firstTick, IsInstant boot now tick) :
    (handle firstTick).Decodes boot now := by
  intro tick htick
  unfold tick? handle at htick
  cases firstTick with
  | none => cases htick
  | some first =>
    dsimp only [Option.getD_some] at htick
    split at htick
    · exact Option.some.inj htick ▸ h first rfl
    · cases htick

theorem spawn_ok {firstTick : Option UInt64} (h : (handle firstTick).Decodes boot now) :
    spawn boot now firstTick = .ok (.new firstTick) := by
  unfold spawn
  rw [decodeNextTick_ok h]
  rfl

theorem spawn_error {firstTick : Option UInt64} (h : ¬ (handle firstTick).Decodes boot now) :
    spawn boot now firstTick = .error .arithmetic := by
  unfold spawn
  rw [decodeNextTick_error h]
  rfl

theorem spawn_eq_ok {firstTick : Option UInt64} {timer : Timer} (h : spawn boot now firstTick = .ok timer) :
    timer = .new firstTick := by
  by_cases hdecodes : (handle firstTick).Decodes boot now
  · rw [spawn_ok hdecodes] at h
    exact (Except.ok.inj h).symm
  · rw [spawn_error hdecodes] at h
    cases h

end Decodes

@[simp] theorem nextTick_armed (t : Timer) : t.armed.nextTick = t.nextTick := by
  unfold armed
  split
  · split <;> rfl
  · rfl
  · rfl

end Timer

/-- One access of the timer. -/
def onTimer (f : Timer → Timer) : Prog World Abort Unit :=
  .modify fun w => { w with timer := f w.timer }

/-- An access of the timer that may panic. -/
def tryTimer (f : Timer → Except Abort Timer) : Prog World Abort Unit :=
  .attempt fun w => match f w.timer with
    | .ok timer => .ok ((), { w with timer })
    | .error e => .error e

section Sat

variable {w : World} {Q : Unit → World → Prop} {E : Abort → World → Prop}

theorem sat_onTimer {f : Timer → Timer} : Prog.Sat (onTimer f) w Q E ↔ Q () { w with timer := f w.timer } :=
  Prog.sat_modify

theorem sat_tryTimer {f : Timer → Except Abort Timer}
    (hok : ∀ timer, f w.timer = .ok timer → Q () { w with timer })
    (herr : ∀ e, f w.timer = .error e → E e w) : Prog.Sat (tryTimer f) w Q E := by
  refine Prog.sat_attempt ?_ ?_
  · intro a w' h
    cases hf : f w.timer with
    | ok timer =>
      rw [hf] at h
      cases h
      exact hok timer hf
    | error e =>
      rw [hf] at h
      cases h
  · intro e h
    cases hf : f w.timer with
    | ok timer =>
      rw [hf] at h
      cases h
    | error e' =>
      rw [hf] at h
      cases h
      exact herr e hf

end Sat

section TryTimer

variable {f : Timer → Except Abort Timer} {w : World}

theorem tryTimer_ok {timer : Timer} (h : f w.timer = .ok timer) :
    (tryTimer f).act w = (.done (), { w with timer }) ∧ (tryTimer f).run w = (.ok (), { w with timer }) := by
  have hattempt : (match f w.timer with
      | .ok timer => .ok ((), { w with timer })
      | .error e => .error e : Except Abort (Unit × World)) = .ok ((), { w with timer }) := by
    rw [h]
  exact ⟨Prog.act_attempt_ok hattempt, Prog.run_attempt_ok hattempt⟩

theorem tryTimer_error {e : Abort} (h : f w.timer = .error e) :
    (tryTimer f).act w = (.abort e, w) ∧ (tryTimer f).run w = (.error e, w) := by
  have hattempt : (match f w.timer with
      | .ok timer => .ok ((), { w with timer })
      | .error e => .error e : Except Abort (Unit × World)) = .error e := by
    rw [h]
  exact ⟨Prog.act_attempt_error hattempt, Prog.run_attempt_error hattempt⟩

end TryTimer

/-- The reset of the timer to what the callback has returned. -/
def Timer.reset (boot now nextTick : UInt64) (t : Timer) : Except Abort Timer :=
  (instantFromUnix boot now nextTick).map fun deadline => { t with delay := some deadline }

theorem Timer.reset_ok {boot now nextTick : UInt64} (h : IsInstant boot now nextTick) (t : Timer) :
    t.reset boot now nextTick = .ok { t with delay := some nextTick } := by
  rw [Timer.reset, instantFromUnix_ok h]
  rfl

theorem Timer.reset_error {boot now nextTick : UInt64} (h : ¬ IsInstant boot now nextTick) (t : Timer) :
    t.reset boot now nextTick = .error .arithmetic := by
  rw [Timer.reset, instantFromUnix_error h]
  rfl

theorem Timer.nextTick_reset {boot now nextTick : UInt64} {t t' : Timer} (h : t.reset boot now nextTick = .ok t') :
    t'.nextTick = t.nextTick := by
  by_cases hinstant : IsInstant boot now nextTick
  · rw [Timer.reset_ok hinstant] at h
    rw [← Except.ok.inj h]
  · rw [Timer.reset_error hinstant] at h
    cases h

theorem Timer.reset_eq_error {boot now nextTick : UInt64} {t : Timer} {e : Abort}
    (h : t.reset boot now nextTick = .error e) : e = .arithmetic := by
  by_cases hinstant : IsInstant boot now nextTick
  · rw [Timer.reset_ok hinstant] at h
    cases h
  · rw [Timer.reset_error hinstant] at h
    exact (Except.error.inj h).symm

/-- The end of a `poll` that fires: the callback's result is stored and the timer reset. -/
def Scheduler.rearm (boot now : UInt64) : Option UInt64 → Prog World Abort Unit
  | some nextTick => do
    onTimer ({ · with nextTick })
    tryTimer (Timer.reset boot now nextTick)
  | none => do
    onTimer ({ · with nextTick := Timer.never })
    onTimer ({ · with delay := none })

/-- `Scheduler::poll` at the time `now`, while the handle is alive. -/
def Scheduler.poll (boot : UInt64) (callback : Prog World Abort (Option UInt64)) (now : UInt64) :
    Prog World Abort Unit := do
  onTimer ({ · with woken := false })
  tryTimer (Timer.arm boot now)
  let deadline ← Prog.read fun w => w.timer.delay
  match deadline with
  | some deadline =>
    if deadline ≤ now then
      let nextTick ← callback
      Scheduler.rearm boot now nextTick
    else pure ()
  | none => pure ()

end Pipitor.Websub
