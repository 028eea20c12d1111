import Pipitor.Websub.Coverage

/-!
# The switch from a subscription to its renewal

When the hub confirms the subscription that is to renew another, `verify_intent` deletes the old one and
activates the new one in statements that are committed one by one. `cut` is the state that is left when
the process is stopped in between; `eitherActive_iff` says at which points one of the two is active.
-/

namespace Pipitor.Websub

open Machine Resumption Relational

namespace Database

/-- One of the two subscriptions of a renewal is active. -/
def EitherActive (db : Database) (r : RenewingSubscription) : Prop :=
  db.activeSubscriptions.hasKey r.old = true ∨ db.activeSubscriptions.hasKey r.new = true

instance (db : Database) (r : RenewingSubscription) : Decidable (db.EitherActive r) :=
  inferInstanceAs (Decidable (_ ∨ _))

variable {db : Database} {r : RenewingSubscription}

theorem eitherActive_of_mem (hr : r ∈ db.renewingSubscriptions) : db.EitherActive r :=
  Or.inl (db.old_references r hr)

theorem not_active_delete (id : Int64) :
    (db.deleteSubscriptions (·.id = id)).activeSubscriptions.hasKey id = false := by
  rw [Table.hasKey_eq_false_iff]
  rintro a ha rfl
  obtain ⟨ha, hgone⟩ := mem_active_delete.mp ha
  obtain ⟨s, hs, hid⟩ := Table.hasKey_iff.mp (db.active_references a ha)
  rw [← hid, deletedIds_of_mem hs] at hgone
  simp at hgone

theorem not_active_of_delete {id id' : Int64} (h : db.activeSubscriptions.hasKey id' = false) :
    (db.deleteSubscriptions (·.id = id)).activeSubscriptions.hasKey id' = false := by
  rw [Table.hasKey_eq_false_iff] at h ⊢
  exact fun a ha => h a (mem_active_delete.mp ha).1

/-- Without the old subscription neither of the two is active. -/
theorem not_eitherActive_delete (hna : db.activeSubscriptions.hasKey r.new = false) :
    ¬ (db.deleteSubscriptions (·.id = r.old)).EitherActive r := by
  rintro (h | h)
  · rw [not_active_delete] at h
    cases h
  · rw [not_active_of_delete hna] at h
    cases h

end Database

namespace Service

variable (svc : Service)

/-- The request that tells the hub to end a subscription can be built. -/
def CanUnsubscribe (id : Int64) (hub : String) : Prop :=
  (∃ callback, makeCallback svc.lib svc.callback id = .ok callback) ∧ svc.lib.isUri hub = true

/-- The time of the next renewal of a subscription that expires at `expiresAt` is negative, and the
build checks for overflow. -/
def Overflows (expiresAt : Int64) : Prop :=
  svc.overflowChecks = true ∧ expiresAt.toUInt64 < svc.renewalMargin

theorem refreshTime_cases (expiresAt : Int64) :
    (svc.Overflows expiresAt ∧ svc.refreshTime expiresAt.toUInt64 = .error .arithmetic) ∨
      ¬ svc.Overflows expiresAt ∧ ∃ tick, svc.refreshTime expiresAt.toUInt64 = .ok tick := by
  unfold Overflows refreshTime subU64
  by_cases h : svc.overflowChecks = true ∧ expiresAt.toUInt64 < svc.renewalMargin
  · exact Or.inl ⟨h, by simp [h.1, h.2]⟩
  · exact Or.inr ⟨h, _, if_neg (by simpa using h)⟩

/-! ### The statements, one by one -/

section Cut

variable {svc} {w : World} {n : ℕ}

theorem active_cut_activate {id : Int64} (expiresAt : Int64) (challenge : String)
    (hid : w.db.subscriptions.hasKey id = true) (hna : w.db.activeSubscriptions.hasKey id = false) :
    ((activate id expiresAt challenge).cut (n + 1) w).db.activeSubscriptions.hasKey id = true := by
  obtain ⟨db', hrun⟩ := exists_activate expiresAt hid hna
  have hcut : (activate id expiresAt challenge).cut (n + 1) w = { w with db := db' } := by
    unfold activate transaction
    rw [Prog.cut_attempt_ok (a := ()) (t := { w with db := db' }) n w _ (by simp only [hrun])]
    exact Prog.cut_done n _ _
  rw [hcut, Table.hasKey_of_insert (activate_ok hrun).active]
  simp

/-- After the old subscription is deleted, one of the two is active again exactly when the request for
the hub can be built and the last transaction has been made. -/
theorem eitherActive_cut_request {r : RenewingSubscription} (hub topic challenge : String)
    (expiresAt : Int64) (hid : w.db.subscriptions.hasKey r.new = true)
    (hna : ¬ w.db.EitherActive r) :
    ((do
      let callback ← Prog.ofExcept (makeCallback svc.lib svc.callback r.old)
      let task ← Prog.ofExcept (sendRequest svc.lib hub (.unsubscribe callback topic))
      spawn task
      activate r.new expiresAt challenge : Prog World Abort Response).cut n w).db.EitherActive r ↔
        2 ≤ n ∧ svc.CanUnsubscribe r.old hub := by
  unfold CanUnsubscribe
  cases hcallback : makeCallback svc.lib svc.callback r.old with
  | error e => simp [Prog.ofExcept, hna]
  | ok callback =>
    unfold sendRequest
    by_cases hhub : svc.lib.isUri hub = true
    · simp only [hhub, if_true, Prog.ofExcept, Prog.done_bind, Except.ok.injEq, exists_eq', and_true]
      match n with
      | 0 => simp [hna]
      | 1 =>
        rw [spawn, Prog.cut_modify, Prog.cut_zero]
        simpa using hna
      | n + 2 =>
        rw [spawn, Prog.cut_modify]
        refine iff_of_true (Or.inr (active_cut_activate expiresAt challenge hid ?_)) (by omega)
        simpa using fun h => hna (Or.inr h)
    · simp [hhub, Prog.ofExcept, hna]

theorem eitherActive_cut_replaceOld {r : RenewingSubscription} {s : Subscription}
    (topic challenge : String) (expiresAt : Int64) (hr : r ∈ w.db.renewingSubscriptions)
    (hs : s ∈ w.db.subscriptions) (hid : s.id = r.new)
    (hna : w.db.activeSubscriptions.hasKey r.new = false) :
    ((svc.replaceOld r.new r.old expiresAt topic challenge).cut n w).db.EitherActive r ↔
      n < 2 ∨ 4 ≤ n ∧ svc.CanUnsubscribe r.old s.hub := by
  have hactive := Database.eitherActive_of_mem hr
  have hne : s.id ≠ r.old := by
    intro heq
    rw [← hid, heq, w.db.old_references r hr] at hna
    cases hna
  match n with
  | 0 => simp [hactive]
  | n + 1 =>
    unfold replaceOld transaction
    rw [Prog.cut_attempt_ok (a := s.hub) (t := w) n w _ (by
      simp only [Table.find?_eq_some_iff.mpr ⟨hs, hid⟩])]
    match n with
    | 0 => simp [hactive]
    | n + 1 =>
      unfold Hub.unsubscribe
      rw [Prog.bind_assoc, execute, Prog.cut_modify, Prog.bind_assoc, or_iff_right (by omega),
        show 4 ≤ n + 1 + 1 ↔ 2 ≤ n by omega]
      refine eitherActive_cut_request s.hub topic challenge expiresAt ?_
        (Database.not_eitherActive_delete hna)
      exact Table.hasKey_iff.mpr ⟨s, Database.mem_subscriptions_delete.mpr ⟨hs, by simpa using hne⟩, hid⟩

theorem eitherActive_cut_confirm {r : RenewingSubscription} {s : Subscription}
    (topic challenge : String) (leaseSeconds now : UInt64) (hr : r ∈ w.db.renewingSubscriptions)
    (hs : s ∈ w.db.subscriptions) (hid : s.id = r.new)
    (hna : w.db.activeSubscriptions.hasKey r.new = false) :
    ((svc.confirm r.new topic challenge leaseSeconds now).cut n w).db.EitherActive r ↔
      svc.Overflows (expiresAt now leaseSeconds) ∨ n < 4 ∨ 6 ≤ n ∧ svc.CanUnsubscribe r.old s.hub := by
  have hactive := Database.eitherActive_of_mem hr
  unfold confirm
  dsimp only
  rcases svc.refreshTime_cases (expiresAt now leaseSeconds) with ⟨hover, htime⟩ | ⟨hover, tick, htime⟩
  · simp [htime, Prog.ofExcept, hover, hactive]
  · rw [htime, Prog.ofExcept, Prog.done_bind, or_iff_right hover]
    match n with
    | 0 => simp [hactive]
    | 1 =>
      refine iff_of_true ?_ (Or.inl (by omega))
      rw [onTimer, Prog.cut_modify, Prog.cut_zero]
      exact hactive
    | n + 2 =>
      rw [onTimer, Prog.cut_modify, switchOver, query, Prog.cut_read]
      dsimp only
      rw [Table.find?_eq_some_iff.mpr ⟨hr, rfl⟩, show n + 2 < 4 ↔ n < 2 by omega,
        show 6 ≤ n + 2 ↔ 4 ≤ n by omega]
      exact eitherActive_cut_replaceOld (w := { w with timer := w.timer.hasten tick }) topic challenge _
        hr hs hid hna

end Cut

/-- **The switch-over is not atomic.** When a verification that confirms the renewal of a subscription is
stopped after `n` accesses (the look-up of the subscription, `hasten`, the look-ups of the renewal and of the
hub, the deletion, `spawn`, the last transaction), the old or the new subscription is active exactly where
the deletion has not been made or the last transaction has; there is neither where nothing is to be
confirmed or the time of the next renewal overflows. -/
theorem eitherActive_iff (w : World) {r : RenewingSubscription} {s : Subscription}
    {queryString challenge : String} {leaseSeconds : UInt64} (now : UInt64)
    (hr : r ∈ w.db.renewingSubscriptions) (hs : s ∈ w.db.subscriptions) (hid : s.id = r.new)
    (hquery : svc.lib.parseVerify queryString = some (.subscribe s.topic challenge leaseSeconds)) (n : ℕ) :
    ((svc.verifyIntent r.new queryString now).cut n w).db.EitherActive r ↔
      w.db.activeSubscriptions.hasKey r.new = true ∨ svc.Overflows (expiresAt now leaseSeconds) ∨
        n < 5 ∨ 7 ≤ n ∧ svc.CanUnsubscribe r.old s.hub := by
  have hactive := Database.eitherActive_of_mem hr
  have hsubscribed : w.db.isSubscribed r.new s.topic = true :=
    List.any_eq_true.mpr ⟨s, hs, by simp [hid]⟩
  unfold verifyIntent
  rw [hquery]
  match n with
  | 0 => simp [hactive]
  | n + 1 =>
    dsimp only
    rw [query, Prog.cut_read, Database.isUnverified, hsubscribed]
    cases hna : w.db.activeSubscriptions.hasKey r.new with
    | true => simp [hactive]
    | false =>
      rw [Bool.not_false, Bool.and_self, if_pos rfl, or_iff_right Bool.false_ne_true,
        show n + 1 < 5 ↔ n < 4 by omega, show 7 ≤ n + 1 ↔ 6 ≤ n by omega]
      exact eitherActive_cut_confirm s.topic challenge leaseSeconds now hr hs hid hna

/-- A service for which every request asks for a lease of 10000 seconds for the topic `topic`. -/
def sampleVerifier : Service :=
  { Concurrent.sampleSubscriber with
    lib := { Concurrent.sampleSubscriber.lib with
      parseVerify := fun _ => some (.subscribe "topic" "" 10000) } }

/-- A verification that is not interrupted leaves the new subscription active. -/
theorem eitherActive_renewed :
    ((sampleVerifier.verifyIntent 2 "" 6400).cut 7
      ⟨Concurrent.renewed, .new (some 6400), []⟩).db.EitherActive ⟨1, 2⟩ := by
  have hquery : sampleVerifier.lib.parseVerify "" = some (.subscribe "topic" "" 10000) := rfl
  exact (sampleVerifier.eitherActive_iff ⟨Concurrent.renewed, .new (some 6400), []⟩ (r := ⟨1, 2⟩)
    (s := ⟨2, "hub", "topic", ""⟩) 6400 (by decide) (by decide) rfl hquery 7).mpr
      (Or.inr (Or.inr (Or.inr ⟨le_refl 7, ⟨_, rfl⟩, rfl⟩)))

/-- One that is killed right after the deletion leaves neither active. -/
theorem not_eitherActive_renewed :
    sampleVerifier.lib.parseVerify "" = some (.subscribe "topic" "" 10000) ∧
      ⟨1, 2⟩ ∈ Concurrent.renewed.renewingSubscriptions ∧
      ⟨2, "hub", "topic", ""⟩ ∈ Concurrent.renewed.subscriptions ∧
      Concurrent.renewed.activeSubscriptions.hasKey 1 = true ∧
      ¬ ((sampleVerifier.verifyIntent 2 "" 6400).cut 5
        ⟨Concurrent.renewed, .new (some 6400), []⟩).db.EitherActive ⟨1, 2⟩ := by
  decide

end Service

end Pipitor.Websub
