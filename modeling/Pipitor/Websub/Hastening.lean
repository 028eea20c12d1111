import Pipitor.Foundation.Runs
import Pipitor.Websub.Scheduler

/-!
# Hastening while the scheduler is polled

A `poll` of the scheduler that runs its callback, one action at a time, while other threads call `hasten`, which
is a `fetch_min` on `next_tick` and then perhaps a `wake`. At its end the poll stores what the callback has
returned, whatever `next_tick` is by then; `noneLost_iff` says which hastenings survive that.
-/

namespace Pipitor.Websub

open Resumption

namespace Hastening

/-- `poll` is what is left of the poll, and `wakes` counts the hastenings that have lowered `next_tick` and not
yet woken the task. -/
structure State where
  world : World
  poll : Prog World Abort Unit
  wakes : ℕ

/-- A poll at the time `now` has been called. -/
def State.start (boot : UInt64) (callback : Prog World Abort (Option UInt64)) (now : UInt64) (w : World) : State :=
  ⟨w, Scheduler.poll boot callback now, 0⟩

/-- The next action of the poll, or one of another thread. -/
inductive Action
  | poll
  | fetchMin (tick : UInt64)
  | wake

def step (s : State) : Action → State
  | .poll => { s with world := (s.poll.act s.world).2, poll := (s.poll.act s.world).1 }
  | .fetchMin tick =>
    { s with
      world := { s.world with timer := { s.world.timer with nextTick := min s.world.timer.nextTick tick } }
      wakes := s.wakes + (decide (tick < s.world.timer.nextTick)).toNat }
  | .wake =>
    if 0 < s.wakes then
      { s with world := { s.world with timer := { s.world.timer with woken := true } }, wakes := s.wakes - 1 }
    else s

/-- What the poll and the other threads have done makes a poll of the scheduler that runs its callback. It may
end in a panic when it resets the timer. -/
structure Interleaving (boot : UInt64) (callback : Prog World Abort (Option UInt64)) (now : UInt64) (w : World) where
  /-- Up to the start of the callback. -/
  before : List Action
  /-- From there on up to the store. -/
  during : List Action
  /-- From there on up to the end of the poll. -/
  after : List Action
  result : Option UInt64
  starts : (Runs.final step (.start boot callback now w) before).poll = callback >>= Scheduler.rearm boot now
  returns : (Runs.final step (.start boot callback now w) (before ++ during)).poll = Scheduler.rearm boot now result
  ends : ¬ (Runs.final step (.start boot callback now w) (before ++ during ++ .poll :: after)).poll.UnderWay

variable {boot : UInt64} {callback : Prog World Abort (Option UInt64)} {now : UInt64} {w : World}

/-- The state when the poll has ended. -/
def Interleaving.final (i : Interleaving boot callback now w) : State :=
  Runs.final step (.start boot callback now w) (i.before ++ i.during ++ .poll :: i.after)

/-- Every hastening after the start of the callback has its effect. -/
def Interleaving.NoneLost (i : Interleaving boot callback now w) : Prop :=
  ∀ tick, .fetchMin tick ∈ i.during ++ i.after → i.final.world.timer.nextTick ≤ tick

/-! ### The actions -/

theorem hasten_eq (w : World) (poll : Prog World Abort Unit) (tick : UInt64) :
    (Runs.final step ⟨w, poll, 0⟩ [.fetchMin tick, .wake]).world = { w with timer := w.timer.hasten tick } := by
  by_cases hlt : tick < w.timer.nextTick
  · simp [step, hlt, Timer.hasten]
  · simp [step, hlt, Timer.hasten]

theorem poll_fetchMin (s : State) (tick : UInt64) : (step s (.fetchMin tick)).poll = s.poll := rfl

theorem poll_wake (s : State) : (step s .wake).poll = s.poll := by
  unfold step
  dsimp only
  split
  · rfl
  · rfl

/-- A callback that has been started comes to its end before the poll does. -/
theorem exists_return {s : State} {p : Prog World Abort (Option UInt64)} {rest : List Action}
    (hpoll : s.poll = p >>= Scheduler.rearm boot now) (hends : (Runs.final step s rest).poll = .done ()) :
    ∃ during after result, rest = during ++ .poll :: after ∧
      (Runs.final step s during).poll = Scheduler.rearm boot now result := by
  induction rest generalizing s p with
  | nil =>
    rw [Runs.final_nil, hpoll] at hends
    cases p with
    | done result =>
      cases result with
      | none => cases hends
      | some tick => cases hends
    | abort e => cases hends
    | step update next => cases hends
  | cons action rest ih =>
    rw [Runs.final_cons] at hends
    -- the actions of the others leave the poll where it is
    have hother : (step s action).poll = s.poll → ∃ during after result,
        action :: rest = during ++ .poll :: after ∧ (Runs.final step s during).poll = Scheduler.rearm boot now result := by
      intro hsame
      obtain ⟨during, after, result, rfl, hreturns⟩ := ih (hsame.trans hpoll) hends
      exact ⟨action :: during, after, result, rfl, hreturns⟩
    cases action with
    | fetchMin tick => exact hother (poll_fetchMin s tick)
    | wake => exact hother (poll_wake s)
    | poll =>
      have hact : (step s .poll).poll = ((p >>= Scheduler.rearm boot now).act s.world).1 := by
        rw [← hpoll]
        rfl
      cases p with
      | done result => exact ⟨[], rest, result, rfl, hpoll⟩
      | abort e => exact hother (hact.trans hpoll.symm)
      | step update next =>
        obtain ⟨during, after, result, rfl, hreturns⟩ := ih hact hends
        exact ⟨.poll :: during, after, result, rfl, hreturns⟩

/-- Whatever the threads do, a poll that starts its callback and returns is an `Interleaving`. -/
theorem exists_interleaving {before rest : List Action}
    (hstarts : (Runs.final step (.start boot callback now w) before).poll = callback >>= Scheduler.rearm boot now)
    (hends : (Runs.final step (.start boot callback now w) (before ++ rest)).poll = .done ()) :
    ∃ i : Interleaving boot callback now w, i.before = before ∧ i.during ++ .poll :: i.after = rest := by
  rw [Runs.final_append] at hends
  obtain ⟨during, after, result, rfl, hreturns⟩ := exists_return hstarts hends
  rw [← Runs.final_append] at hends hreturns
  refine ⟨⟨before, during, after, result, hstarts, hreturns, ?_⟩, rfl, rfl⟩
  rw [List.append_assoc, hends]
  exact fun h => h

/-- What is left of a poll after the store does not change `next_tick`. -/
inductive Stored : Prog World Abort Unit → Prop
  | resetting (boot now tick : UInt64) : Stored (tryTimer (Timer.reset boot now tick))
  | disarming : Stored (onTimer ({ · with delay := none }))
  | ended {p : Prog World Abort Unit} (h : ¬ p.UnderWay) : Stored p

theorem stored_act_rearm (boot now : UInt64) (result : Option UInt64) (w : World) :
    Stored ((Scheduler.rearm boot now result).act w).1 ∧
      ((Scheduler.rearm boot now result).act w).2.timer.nextTick = result.getD Timer.never := by
  cases result with
  | none => exact ⟨.disarming, rfl⟩
  | some tick => exact ⟨.resetting boot now tick, rfl⟩

theorem Stored.act {p : Prog World Abort Unit} (h : Stored p) (w : World) :
    Stored (p.act w).1 ∧ (p.act w).2.timer.nextTick = w.timer.nextTick := by
  cases h with
  | resetting boot now tick =>
    by_cases hinstant : IsInstant boot now tick
    · rw [(tryTimer_ok (Timer.reset_ok hinstant w.timer)).1]
      exact ⟨.ended fun h => h, rfl⟩
    · rw [(tryTimer_error (Timer.reset_error hinstant w.timer)).1]
      exact ⟨.ended fun h => h, rfl⟩
  | disarming => exact ⟨.ended fun h => h, rfl⟩
  | ended h =>
    rw [Prog.act_of_not_underWay h]
    exact ⟨.ended h, rfl⟩

/-- After the store `next_tick` is lowered by the hastenings, and by nothing else. -/
theorem Stored.nextTick_le_iff {s : State} (h : Stored s.poll) (actions : List Action) (tick : UInt64) :
    (Runs.final step s actions).world.timer.nextTick ≤ tick ↔
      s.world.timer.nextTick ≤ tick ∨ ∃ tick', .fetchMin tick' ∈ actions ∧ tick' ≤ tick := by
  induction actions generalizing s with
  | nil => simp
  | cons action actions ih =>
    rw [Runs.final_cons]
    cases action with
    | poll =>
      obtain ⟨hstored, hsame⟩ := h.act s.world
      rw [ih (s := step s .poll) hstored, show (step s .poll).world.timer.nextTick = _ from hsame]
      simp
    | fetchMin tick' =>
      have hmin : (step s (.fetchMin tick')).world.timer.nextTick ≤ tick ↔
          s.world.timer.nextTick ≤ tick ∨ tick' ≤ tick := Std.min_le
      rw [ih (s := step s (.fetchMin tick')) h, hmin]
      simp [or_assoc]
    | wake =>
      have hsame : (step s .wake).world.timer.nextTick = s.world.timer.nextTick := by
        unfold step
        dsimp only
        split
        · rfl
        · rfl
      rw [ih (s := step s .wake) (poll_wake s ▸ h), hsame]
      simp

/-- **No hastening is lost** in a poll that runs its callback exactly if each one that comes between the start of
the callback and the store is made up for: the callback returns a tick that is not later, or another thread
hastens to one after the store. -/
theorem noneLost_iff (callback : Prog World Abort (Option UInt64)) (now : UInt64) (w : World)
    (i : Interleaving boot callback now w) :
    i.NoneLost ↔ ∀ tick, .fetchMin tick ∈ i.during →
      i.result.getD Timer.never ≤ tick ∨ ∃ tick', .fetchMin tick' ∈ i.after ∧ tick' ≤ tick := by
  have hfinal : ∀ tick, i.final.world.timer.nextTick ≤ tick ↔
      i.result.getD Timer.never ≤ tick ∨ ∃ tick', .fetchMin tick' ∈ i.after ∧ tick' ≤ tick := by
    intro tick
    unfold Interleaving.final
    rw [Runs.final_append, Runs.final_cons]
    have hreturns := i.returns
    generalize Runs.final step (.start boot callback now w) (i.before ++ i.during) = s at hreturns ⊢
    obtain ⟨hstored, hnext⟩ := stored_act_rearm boot now i.result s.world
    rw [← hreturns] at hstored hnext
    rw [Stored.nextTick_le_iff (s := step s .poll) hstored, show (step s .poll).world.timer.nextTick = _ from hnext]
  unfold Interleaving.NoneLost
  constructor
  · exact fun h tick htick => (hfinal tick).mp (h tick (List.mem_append_left _ htick))
  · intro h tick htick
    apply (hfinal tick).mpr
    rcases List.mem_append.mp htick with hduring | hafter
    · exact h tick hduring
    · exact .inr ⟨tick, hafter, UInt64.le_refl tick⟩

/-- Here the tick 5 has come at the time 10. -/
def overdue : World := ⟨.empty, ⟨5, some 5, true⟩, []⟩

/-- Another thread hastens the scheduler to 50 before the callback returns 100. -/
def overwritten : Interleaving 0 (.read fun _ => some 100) 10 overdue where
  before := [.poll, .poll, .poll]
  during := [.fetchMin 50, .wake, .poll]
  after := [.poll]
  result := some 100
  starts := rfl
  returns := rfl
  ends := by decide

/-- `next_tick` is 100 at the end. -/
theorem not_noneLost_overwritten : ¬ overwritten.NoneLost := by
  intro h
  have hle := h 50 (List.mem_append_left _ List.mem_cons_self)
  revert hle
  decide

end Hastening

end Pipitor.Websub
