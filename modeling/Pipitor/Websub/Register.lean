import Pipitor.Foundation.Runs
import Pipitor.Websub.Cycle
import Mathlib.Data.ENat.Basic

/-!
# The scheduler as a register

`hasten` and `poll` of `websub/subscriber/scheduler.rs`, each made without interruption, under a clock in whole
seconds that goes on between them. What the scheduler keeps twice, in `next_tick` and in the deadline of its
`Sleep`, is one number: the least of what the callback has returned last and of what it has been hastened to
since. `tracks_iff` says in which runs: a tick that cannot be made an `Instant` ends the task by a panic.
-/

namespace Pipitor.Websub

open Resumption

instance (boot now : UInt64) (t : Timer) : Decidable (t.Fires boot now) :=
  decidable_of_iff (t.Decodes boot now ∧ t.armed.delay.any (· ≤ now) = true)
    (by rw [Timer.fires_iff, Option.any_eq_true]; simp)

/-- The time that a tick stands for. -/
def Timer.time (tick : UInt64) : ℕ∞ := if tick = never then ⊤ else tick.toNat

/-- The time at which the `Sleep` wakes the task, if there is one. -/
def Timer.deadline (t : Timer) : ℕ∞ := t.delay.elim ⊤ fun deadline => deadline.toNat

/-- The timer wakes the task when its deadline is reached. -/
def Timer.ring (now : UInt64) (t : Timer) : Timer :=
  { t with woken := t.woken || t.delay.any (· ≤ now) }

/-- The task is gone, with its `Sleep`, and there is nothing to be woken. -/
def Timer.drop (t : Timer) : Timer := { t with delay := none, woken := false }

/-- The world when `poll` comes to the `ready!`. -/
def World.armed (w : World) : World := { w with timer := { w.timer with woken := false }.armed }

/-- A closure that may be passed to `Scheduler::new`: it does not end in a panic and does not return `u64::MAX`. -/
structure Callback where
  prog : Prog World Abort (Option UInt64)
  result : World → Option UInt64
  after : World → World
  run_eq : ∀ w, prog.run w = (.ok (result w), after w)
  below : ∀ w, result w ≠ some Timer.never

/-- `tick` is the least of what the callback has returned last, at first `first_tick`, and of the arguments of
`hasten` since then. A panic has ended the task where `panicked` says so. -/
structure Scheduled where
  world : World
  now : UInt64
  tick : ℕ∞
  panicked : Bool

inductive ScheduledEvent
  | hasten (tick : UInt64)
  | advance (now : UInt64)
  | poll (callback : Callback)

namespace Scheduled

/-- The timer wakes the task, if there still is one. -/
def settle (s : Scheduled) : Scheduled :=
  { s with world := { s.world with timer := if s.panicked then s.world.timer.drop else s.world.timer.ring s.now } }

variable (boot : UInt64)

/-- A scheduler that has been made at the time `now`. -/
def new (w : World) (firstTick : Option UInt64) (now : UInt64) : Scheduled :=
  let tick := firstTick.elim ⊤ Timer.time
  match Timer.spawn boot now firstTick with
  | .ok timer => ⟨{ w with timer }, now, tick, false⟩
  | .error _ => settle ⟨{ w with timer := .handle firstTick }, now, tick, true⟩

/-- The state after a poll, which runs its callback if the timer has run out. -/
def polled (s : Scheduled) (callback : Callback) : Scheduled :=
  let ended := (Scheduler.poll boot callback.prog s.now).run s.world
  { s with
    world := ended.2
    tick := if s.world.timer.Fires boot s.now then (callback.result s.world.armed).elim ⊤ Timer.time else s.tick
    panicked := !ended.1.isOk }

def step (s : Scheduled) : ScheduledEvent → Scheduled
  | .hasten tick => settle
    { s with
      world := { s.world with timer := s.world.timer.hasten tick }
      tick := if s.tick ≤ Timer.time tick then s.tick else Timer.time tick }
  | .advance now => settle { s with now := max s.now now }
  | .poll callback => if s.panicked then s else settle (s.polled boot callback)

/-- A poll of the task runs its callback just if the time of the tick has come, and then once. A task that is
not due to be polled has its timer set to the tick, and a tick whose time has come is not missed. -/
structure Tracks (s : Scheduled) : Prop where
  due : s.panicked = false → s.tick ≤ s.now.toNat → ∀ callback : Prog World Abort (Option UInt64),
    (Scheduler.poll boot callback s.now).run s.world =
      (callback >>= Scheduler.rearm boot s.now).run s.world.armed
  early : s.panicked = false → ¬ s.tick ≤ s.now.toNat →
    ∃ ended, ∀ callback : Prog World Abort (Option UInt64), (Scheduler.poll boot callback s.now).run s.world = ended
  asleep : s.world.timer.woken = false → s.world.timer.deadline = s.tick
  woken : s.tick ≤ s.now.toNat → s.world.timer.woken = true

/-- What the event makes an `Instant` can be made one: a poll takes the next tick, and what its callback returns
if it runs it. -/
def Converts (s : Scheduled) : ScheduledEvent → Prop
  | .poll callback => s.world.timer.Decodes boot s.now ∧
    (s.tick ≤ s.now.toNat → ∀ tick ∈ callback.result s.world.armed, IsInstant boot s.now tick)
  | _ => True

end Scheduled

/-! ### A poll -/

section Poll

variable {boot now : UInt64} {w : World}

/-- A poll runs its callback if the timer has run out, and then once. -/
theorem run_poll (callback : Prog World Abort (Option UInt64)) (h : w.timer.Decodes boot now) :
    (Scheduler.poll boot callback now).run w = match w.timer.armed.delay with
      | some deadline =>
        if deadline ≤ now then (callback >>= Scheduler.rearm boot now).run w.armed else (.ok (), w.armed)
      | none => (.ok (), w.armed) := by
  have hdelay : w.armed.timer.delay = w.timer.armed.delay := Timer.delay_armed_asleep w.timer
  have harm : ({ w.timer with woken := false } : Timer).arm boot now = .ok w.armed.timer := Timer.arm_ok h
  rw [← hdelay]
  show (tryTimer (Timer.arm boot now) >>= fun _ => _).run { w with timer := { w.timer with woken := false } } = _
  rw [Prog.run_bind, (tryTimer_ok harm).2]
  show (match w.armed.timer.delay with
    | some deadline => if deadline ≤ now then callback >>= Scheduler.rearm boot now else pure ()
    | none => pure () : Prog World Abort Unit).run w.armed = _
  cases w.armed.timer.delay with
  | none => rfl
  | some deadline =>
    dsimp only
    split
    · rfl
    · rfl

/-- A poll that cannot make the next tick an `Instant` panics before anything else. -/
theorem run_poll_error (callback : Prog World Abort (Option UInt64)) (h : ¬ w.timer.Decodes boot now) :
    (Scheduler.poll boot callback now).run w =
      (.error .arithmetic, { w with timer := { w.timer with woken := false } }) := by
  have harm : ({ w.timer with woken := false } : Timer).arm boot now = .error .arithmetic := Timer.arm_error h
  show (tryTimer (Timer.arm boot now) >>= fun _ => _).run { w with timer := { w.timer with woken := false } } = _
  rw [Prog.run_bind, (tryTimer_error harm).2]

/-- The tick that a firing returns is stored, and then the timer is reset. -/
theorem run_rearm {result : Option UInt64} (h : ∀ tick ∈ result, IsInstant boot now tick) (w : World) :
    (Scheduler.rearm boot now result).run w =
      (.ok (), { w with timer := { w.timer with nextTick := result.getD Timer.never, delay := result } }) := by
  cases result with
  | none => rfl
  | some tick =>
    have hreset := Timer.reset_ok (h tick rfl) { w.timer with nextTick := tick }
    show (tryTimer (Timer.reset boot now tick)).run { w with timer := { w.timer with nextTick := tick } } = _
    rw [(tryTimer_ok hreset).2]
    rfl

/-- A tick that is no `Instant` is stored all the same. -/
theorem run_rearm_error {tick : UInt64} (h : ¬ IsInstant boot now tick) (w : World) :
    (Scheduler.rearm boot now (some tick)).run w =
      (.error .arithmetic, { w with timer := { w.timer with nextTick := tick } }) := by
  have hreset := Timer.reset_error h { w.timer with nextTick := tick }
  show (tryTimer (Timer.reset boot now tick)).run { w with timer := { w.timer with nextTick := tick } } = _
  rw [(tryTimer_error hreset).2]

end Poll

/-! ### Ticks as times -/

namespace Timer

theorem le_never (tick : UInt64) : tick ≤ never := by
  rw [UInt64.le_iff_toNat_le, show never.toNat = 2 ^ 64 - 1 from rfl]
  have := tick.toNat_lt
  omega

theorem time_mono {a b : UInt64} (h : a ≤ b) : time a ≤ time b := by
  unfold time
  by_cases hb : b = never
  · rw [if_pos hb]
    exact le_top
  · have ha : a ≠ never := fun ha => hb (UInt64.le_antisymm (le_never b) (ha ▸ h))
    rw [if_neg ha, if_neg hb]
    exact Nat.cast_le.mpr (UInt64.le_iff_toNat_le.mp h)

theorem time_min (a b : UInt64) : time (min a b) = if time a ≤ time b then time a else time b := by
  rw [UInt64.min_def]
  split
  · rename_i h
    exact (if_pos (time_mono h)).symm
  · rename_i h
    have hle : time b ≤ time a := time_mono (UInt64.le_of_lt (UInt64.not_le.mp h))
    split
    · rename_i hge
      exact le_antisymm hle hge
    · rfl

theorem elim_tick? (t : Timer) : t.tick?.elim ⊤ (fun tick => (tick.toNat : ℕ∞)) = time t.nextTick := by
  unfold tick? time
  by_cases h : t.nextTick = never
  · rw [if_pos h, if_neg (not_not.mpr h)]
    rfl
  · rw [if_neg h, if_pos h]
    rfl

theorem time_getD (result : Option UInt64) : time (result.getD never) = result.elim ⊤ time := by
  cases result with
  | none => rfl
  | some tick => rfl

end Timer

/-- The deadline is not before the next tick, and is the next tick unless the task is due to be polled. -/
structure Timer.Sound (t : Timer) (now : UInt64) : Prop where
  late : t.nextTick ≤ t.delay.getD never
  below : t.delay ≠ some never
  asleep : t.woken = false → t.delay = t.tick? ∧ ∀ deadline, t.delay = some deadline → now < deadline

namespace Timer

variable {t : Timer} {now : UInt64}

theorem Sound.delay_armed (h : t.Sound now) : t.armed.delay = t.tick? := by
  have hlate := h.late
  have hbelow := h.below
  unfold armed tick?
  cases hdelay : t.delay with
  | none => rfl
  | some deadline =>
    rw [hdelay] at hlate hbelow
    have hne : t.nextTick ≠ never := by
      intro hnever
      apply hbelow
      exact congrArg some (UInt64.le_antisymm (le_never deadline) (hnever ▸ hlate))
    rw [if_pos hne]
    dsimp only
    split
    · rfl
    · rename_i hnlt
      rw [hdelay]
      exact congrArg some (UInt64.le_antisymm (UInt64.not_lt.mp hnlt) hlate)

/-- A tick that has come can be made an `Instant`. -/
theorem decodes_of_due (boot : UInt64) (h : time t.nextTick ≤ now.toNat) : t.Decodes boot now := by
  rw [← elim_tick?] at h
  intro tick htick
  rw [Option.mem_def.mp htick] at h
  exact .inl (UInt64.le_iff_toNat_le.mpr (Nat.cast_le.mp h))

theorem Sound.fires_iff (h : t.Sound now) (boot : UInt64) : t.Fires boot now ↔ time t.nextTick ≤ now.toNat := by
  have hdelay : (∃ deadline, t.armed.delay = some deadline ∧ deadline ≤ now) ↔ time t.nextTick ≤ now.toNat := by
    rw [h.delay_armed, ← elim_tick?]
    cases t.tick? with
    | none => simp
    | some tick => simp [UInt64.le_iff_toNat_le]
  rw [Timer.fires_iff, hdelay]
  exact and_iff_right_of_imp (decodes_of_due boot)

theorem Sound.deadline_eq (h : t.Sound now) (hasleep : t.woken = false) : t.deadline = time t.nextTick := by
  unfold deadline
  rw [(h.asleep hasleep).1, elim_tick?]

/-- A tick whose time has come is not missed. -/
theorem Sound.woken_of_due (h : t.Sound now) (hdue : time t.nextTick ≤ now.toNat) : t.woken = true := by
  by_contra hwoken
  have hasleep : t.woken = false := by simpa using hwoken
  obtain ⟨hdelay, hlater⟩ := h.asleep hasleep
  rw [← elim_tick?, ← hdelay] at hdue
  cases ht : t.delay with
  | none => simp [ht] at hdue
  | some deadline =>
    have hlt := UInt64.lt_iff_toNat_lt.mp (hlater deadline ht)
    rw [ht] at hdue
    have hle : deadline.toNat ≤ now.toNat := Nat.cast_le.mp hdue
    omega

theorem late_of_delay (h : t.delay = t.tick?) : t.nextTick ≤ t.delay.getD never ∧ t.delay ≠ some never := by
  rw [h]
  unfold tick?
  split
  · rename_i hne
    exact ⟨UInt64.le_refl _, fun heq => hne (Option.some.inj heq)⟩
  · exact ⟨le_never _, nofun⟩

theorem sound_new (firstTick : Option UInt64) (now : UInt64) : (new firstTick).Sound now where
  late := (late_of_delay rfl).1
  below := (late_of_delay rfl).2
  asleep := by
    intro h
    cases h

theorem Sound.hasten (h : t.Sound now) (tick : UInt64) : (t.hasten tick).Sound now where
  late := by
    refine UInt64.le_trans ?_ h.late
    show min t.nextTick tick ≤ t.nextTick
    rw [UInt64.min_def]
    split
    · exact UInt64.le_refl _
    · rename_i hle
      exact UInt64.le_of_lt (UInt64.not_le.mp hle)
  below := h.below
  asleep := by
    intro hasleep
    obtain ⟨hwoken, hlt⟩ : t.woken = false ∧ ¬ tick < t.nextTick := by simpa [Timer.hasten] using hasleep
    have hsame : (t.hasten tick).nextTick = t.nextTick := by
      show min t.nextTick tick = t.nextTick
      rw [UInt64.min_def, if_pos (UInt64.not_lt.mp hlt)]
    refine ⟨?_, (h.asleep hwoken).2⟩
    unfold tick?
    rw [hsame]
    exact (h.asleep hwoken).1

/-- What does not hold of the deadline at the new time, the timer sees to by waking the task. -/
theorem sound_ring (hlate : t.nextTick ≤ t.delay.getD never) (hbelow : t.delay ≠ some never)
    (hasleep : t.woken = false → t.delay = t.tick?) (now : UInt64) : (t.ring now).Sound now where
  late := hlate
  below := hbelow
  asleep := by
    intro h
    obtain ⟨hwoken, hany⟩ : t.woken = false ∧ t.delay.any (· ≤ now) = false := by simpa [ring] using h
    refine ⟨hasleep hwoken, fun deadline hdelay => ?_⟩
    rw [show t.delay = some deadline from hdelay] at hany
    simpa using hany

theorem sound_ring_of_delay (h : t.delay = t.tick?) (now : UInt64) : (t.ring now).Sound now :=
  sound_ring (late_of_delay h).1 (late_of_delay h).2 (fun _ => h) now

theorem Sound.delay_asleep_armed (h : t.Sound now) :
    ({ t with woken := false } : Timer).armed.delay = ({ t with woken := false } : Timer).armed.tick? := by
  refine (delay_armed_asleep t).trans (h.delay_armed.trans ?_)
  unfold tick?
  rw [nextTick_armed]

theorem time_ne_top {tick : UInt64} (h : tick ≠ never) : time tick ≠ ⊤ := by
  unfold time
  rw [if_neg h]
  exact ENat.natCast_ne_top _

theorem time_ne_top_of_not_decodes {boot : UInt64} (h : ¬ t.Decodes boot now) : time t.nextTick ≠ ⊤ := by
  refine time_ne_top fun hnever => h fun tick htick => ?_
  unfold tick? at htick
  rw [if_neg (not_not.mpr hnever)] at htick
  cases htick

end Timer

/-- A poll of a sound timer runs its callback exactly if the tick has come. -/
theorem Timer.Sound.run_poll {boot now : UInt64} {w : World} (h : w.timer.Sound now)
    (callback : Prog World Abort (Option UInt64)) (hdecodes : w.timer.Decodes boot now) :
    (Scheduler.poll boot callback now).run w =
      if Timer.time w.timer.nextTick ≤ now.toNat then (callback >>= Scheduler.rearm boot now).run w.armed
      else (.ok (), w.armed) := by
  rw [Websub.run_poll callback hdecodes]
  by_cases hdue : Timer.time w.timer.nextTick ≤ now.toNat
  · obtain ⟨-, deadline, hdelay, hle⟩ := Timer.fires_iff.mp ((h.fires_iff boot).mpr hdue)
    rw [hdelay, if_pos hdue]
    exact if_pos hle
  · rw [if_neg hdue]
    cases hdelay : w.timer.armed.delay with
    | none => rfl
    | some deadline =>
      exact if_neg fun hle => hdue ((h.fires_iff boot).mp (Timer.fires_iff.mpr ⟨hdecodes, deadline, hdelay, hle⟩))

/-! ### Whole runs -/

namespace Scheduled

/-- `next_tick` and the timer hold the same tick. -/
structure Sound (s : Scheduled) : Prop where
  timer : s.world.timer.Sound s.now
  tick : Timer.time s.world.timer.nextTick = s.tick
  alive : s.panicked = false

/-- Nothing wakes the task any more, though there is a tick. -/
structure Lost (s : Scheduled) : Prop where
  delay : s.world.timer.delay = none
  woken : s.world.timer.woken = false
  tick : s.tick ≠ ⊤

variable {boot : UInt64} {s : Scheduled}

theorem Lost.not_tracks (h : s.Lost) : ¬ s.Tracks boot := by
  intro htracks
  have hdeadline := htracks.asleep h.woken
  rw [Timer.deadline, h.delay] at hdeadline
  exact h.tick hdeadline.symm

/-- The task is lost by a panic, if it had a tick. -/
theorem lost_settle (hpanicked : s.panicked = true) (htick : s.tick ≠ ⊤) : s.settle.Lost := by
  have hworld : s.settle.world.timer = s.world.timer.drop := if_pos hpanicked
  refine ⟨?_, ?_, htick⟩
  · rw [hworld]
    rfl
  · rw [hworld]
    rfl

theorem sound_settle (halive : s.panicked = false) (htimer : (s.world.timer.ring s.now).Sound s.now)
    (htick : Timer.time s.world.timer.nextTick = s.tick) : s.settle.Sound := by
  have hworld : s.settle.world.timer = s.world.timer.ring s.now := if_neg (by simp [halive])
  refine ⟨?_, ?_, halive⟩
  · rw [hworld]
    exact htimer
  · rw [hworld]
    exact htick

theorem Sound.decodes_of_due (h : s.Sound) (boot : UInt64) (hdue : s.tick ≤ s.now.toNat) :
    s.world.timer.Decodes boot s.now := Timer.decodes_of_due boot (h.tick ▸ hdue)

theorem Sound.tracks (h : s.Sound) : s.Tracks boot where
  due := by
    intro _ hdue callback
    rw [h.timer.run_poll callback (h.decodes_of_due boot hdue), h.tick, if_pos hdue]
  early := by
    intro _ hearly
    by_cases hdecodes : s.world.timer.Decodes boot s.now
    · refine ⟨(.ok (), s.world.armed), fun callback => ?_⟩
      rw [h.timer.run_poll callback hdecodes, h.tick, if_neg hearly]
    · exact ⟨_, fun callback => run_poll_error callback hdecodes⟩
  asleep := by
    intro hasleep
    rw [h.timer.deadline_eq hasleep, h.tick]
  woken := by
    intro hdue
    exact h.timer.woken_of_due (h.tick ▸ hdue)

/-- A scheduler can be made just if its first tick can be made an `Instant`. -/
theorem new_cases (boot : UInt64) (w : World) (firstTick : Option UInt64) (now : UInt64) :
    (Timer.handle firstTick).Decodes boot now ∧ (new boot w firstTick now).Sound ∨
      ¬ (Timer.handle firstTick).Decodes boot now ∧ (new boot w firstTick now).Lost := by
  by_cases hdecodes : (Timer.handle firstTick).Decodes boot now
  · left
    refine ⟨hdecodes, ?_⟩
    unfold new
    rw [Timer.spawn_ok hdecodes]
    exact ⟨Timer.sound_new firstTick now, Timer.time_getD firstTick, rfl⟩
  · right
    refine ⟨hdecodes, ?_⟩
    unfold new
    rw [Timer.spawn_error hdecodes]
    refine lost_settle rfl ?_
    show firstTick.elim ⊤ Timer.time ≠ ⊤
    rw [← Timer.time_getD]
    exact Timer.time_ne_top_of_not_decodes hdecodes

theorem Sound.polled_due (h : s.Sound) (callback : Callback) (hdue : s.tick ≤ s.now.toNat) :
    s.polled boot callback =
      let ended := (Scheduler.rearm boot s.now (callback.result s.world.armed)).run (callback.after s.world.armed)
      { s with
        world := ended.2
        tick := (callback.result s.world.armed).elim ⊤ Timer.time
        panicked := !ended.1.isOk } := by
  have hfires : s.world.timer.Fires boot s.now := (h.timer.fires_iff boot).mpr (h.tick ▸ hdue)
  unfold polled
  rw [h.timer.run_poll callback.prog (h.decodes_of_due boot hdue), h.tick, if_pos hdue, if_pos hfires, Prog.run_bind,
    callback.run_eq]

theorem Sound.not_fires (h : s.Sound) (boot : UInt64) (hearly : ¬ s.tick ≤ s.now.toNat) :
    ¬ s.world.timer.Fires boot s.now := fun hfires => hearly (h.tick ▸ (h.timer.fires_iff boot).mp hfires)

theorem Sound.polled_early (h : s.Sound) (callback : Callback) (hdecodes : s.world.timer.Decodes boot s.now)
    (hearly : ¬ s.tick ≤ s.now.toNat) : s.polled boot callback = { s with world := s.world.armed } := by
  unfold polled
  rw [h.timer.run_poll callback.prog hdecodes, h.tick, if_neg hearly, if_neg (h.not_fires boot hearly)]
  exact congrArg (Scheduled.mk s.world.armed s.now s.tick) h.alive.symm

theorem polled_error (s : Scheduled) (callback : Callback) (hdecodes : ¬ s.world.timer.Decodes boot s.now) :
    (s.polled boot callback).panicked = true ∧ (s.polled boot callback).tick = s.tick := by
  have hfires : ¬ s.world.timer.Fires boot s.now := fun hfires => hdecodes (Timer.fires_iff.mp hfires).1
  unfold polled
  rw [run_poll_error callback.prog hdecodes, if_neg hfires]
  exact ⟨rfl, rfl⟩

theorem Sound.step_poll (h : s.Sound) (callback : Callback) :
    s.step boot (.poll callback) = settle (s.polled boot callback) := if_neg (by simp [h.alive])

theorem Sound.poll (h : s.Sound) (callback : Callback) (hconverts : s.Converts boot (.poll callback)) :
    (s.step boot (.poll callback)).Sound := by
  obtain ⟨hdecodes, hresult⟩ := hconverts
  rw [h.step_poll]
  by_cases hdue : s.tick ≤ s.now.toNat
  · rw [h.polled_due callback hdue, run_rearm (hresult hdue)]
    refine sound_settle rfl (Timer.sound_ring_of_delay ?_ s.now) (Timer.time_getD _)
    show callback.result s.world.armed =
      if (callback.result s.world.armed).getD Timer.never ≠ Timer.never then
        some ((callback.result s.world.armed).getD Timer.never) else none
    have hbelow := callback.below s.world.armed
    cases hval : callback.result s.world.armed with
    | none => rfl
    | some tick =>
      rw [hval] at hbelow
      exact (if_pos fun heq => hbelow (congrArg some heq)).symm
  · rw [h.polled_early callback hdecodes hdue]
    refine sound_settle h.alive (Timer.sound_ring_of_delay h.timer.delay_asleep_armed s.now) ?_
    show Timer.time s.world.armed.timer.nextTick = s.tick
    unfold World.armed
    rw [Timer.nextTick_armed]
    exact h.tick

/-- A poll that comes upon a tick that is no `Instant` loses the task. -/
theorem Sound.poll_lost (h : s.Sound) (callback : Callback) (hnot : ¬ s.Converts boot (.poll callback)) :
    (s.step boot (.poll callback)).Lost := by
  rw [h.step_poll]
  by_cases hdecodes : s.world.timer.Decodes boot s.now
  · obtain ⟨hdue, tick, htick, hinstant⟩ : s.tick ≤ s.now.toNat ∧
        ∃ tick ∈ callback.result s.world.armed, ¬ IsInstant boot s.now tick := by
      by_contra hall
      refine hnot ⟨hdecodes, fun hdue tick htick => ?_⟩
      by_contra hinstant
      exact hall ⟨hdue, tick, htick, hinstant⟩
    rw [Option.mem_def] at htick
    have hbelow := callback.below s.world.armed
    rw [h.polled_due callback hdue, htick, run_rearm_error hinstant]
    rw [htick] at hbelow
    exact lost_settle rfl (Timer.time_ne_top fun heq => hbelow (congrArg some heq))
  · obtain ⟨hpanicked, htick⟩ := polled_error s callback hdecodes
    refine lost_settle hpanicked ?_
    rw [htick, ← h.tick]
    exact Timer.time_ne_top_of_not_decodes hdecodes

theorem Sound.step (h : s.Sound) (event : ScheduledEvent) (hconverts : s.Converts boot event) :
    (s.step boot event).Sound := by
  cases event with
  | hasten tick =>
    have hsound := h.timer.hasten tick
    refine sound_settle h.alive (Timer.sound_ring hsound.late hsound.below (fun hasleep => (hsound.asleep hasleep).1) _) ?_
    show Timer.time (min s.world.timer.nextTick tick) = if s.tick ≤ Timer.time tick then s.tick else Timer.time tick
    rw [Timer.time_min, h.tick]
  | advance now =>
    refine sound_settle h.alive ?_ h.tick
    exact Timer.sound_ring h.timer.late h.timer.below (fun hasleep => (h.timer.asleep hasleep).1) _
  | poll callback => exact h.poll callback hconverts

/-- A step from a sound state keeps to the tick just if what it makes `Instant`s can be made such. -/
theorem Sound.tracks_step (h : s.Sound) (event : ScheduledEvent) :
    (s.step boot event).Tracks boot ↔ s.Converts boot event := by
  constructor
  · intro htracks
    cases event with
    | hasten tick => trivial
    | advance now => trivial
    | poll callback =>
      by_contra hnot
      exact (h.poll_lost callback hnot).not_tracks htracks
  · intro hconverts
    exact (h.step event hconverts).tracks

end Scheduled

/-- **The scheduler is a register** as long as it can make `Instant`s of its ticks. Whatever the order of
hastenings, polls and the passing of time, it does what its tick says throughout exactly if the first tick, the
next tick at each poll, and what the callback returns each time can be made `Instant`s. -/
theorem tracks_iff (boot : UInt64) (w : World) (firstTick : Option UInt64) (now : UInt64)
    (run : List ScheduledEvent) :
    (∀ s ∈ Runs.states (Scheduled.step boot) (.new boot w firstTick now) run, s.Tracks boot) ↔
      (Timer.handle firstTick).Decodes boot now ∧
        ∀ m ∈ Runs.moves (Scheduled.step boot) (.new boot w firstTick now) run, m.1.Converts boot m.2 := by
  rcases Scheduled.new_cases boot w firstTick now with ⟨hdecodes, hsound⟩ | ⟨hnot, hlost⟩
  · rw [and_iff_right hdecodes]
    exact Runs.always_iff_moves (I := Scheduled.Sound) (fun _ event h _ hconverts => h.step event hconverts)
      (fun _ event h _ => h.tracks_step event) hsound hsound.tracks run
  · constructor
    · exact fun h => absurd (h _ (Runs.mem_states_start _ _ _)) hlost.not_tracks
    · exact fun h => absurd h.1 hnot

/-- In 2023 a verification hastens the scheduler to what `expires_at - renewal_margin` wraps to, and the scheduler
is polled. A minute later another one comes, for the minute after. -/
def hastenedFarAhead : List ScheduledEvent :=
  [.hasten 18446744073409638016, .poll ⟨.done none, fun _ => none, id, fun _ => rfl, nofun⟩,
    .advance 1700000060, .hasten 1700000120, .advance 1700000120]

/-- The scheduler is not woken for the second. -/
theorem not_tracks_hastenedFarAhead :
    ¬ ∀ s ∈ Runs.states (Scheduled.step 1690000000)
        (.new 1690000000 ⟨.empty, .new none, []⟩ none 1700000000) hastenedFarAhead, s.Tracks 1690000000 := by
  intro h
  have hwoken := (h _ (Runs.final_mem_states _ _ _)).woken (by decide)
  revert hwoken
  decide

end Pipitor.Websub
