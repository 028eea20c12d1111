import Pipitor.Foundation.Runs
import Pipitor.Websub.Service

/-!
# Coherence of the WebSub tables

What the constraints of the schema do not say and the subscriber nevertheless relies on: every
subscription is either active or pending and never both, and a renewal is between two subscriptions
to the same topic at the same hub. `Coherent` is this invariant. Each statement and each
transaction of the subscriber keeps it and, where it holds, violates no constraint; so does every
operation run alone, and with it every sequence of operations from the empty tables.
-/

namespace Pipitor.Websub

open Resumption Relational

/-- The invariant of the tables. -/
structure Coherent (db : Database) : Prop where
  exclusive : ∀ s ∈ db.subscriptions,
    db.activeSubscriptions.hasKey s.id = !db.pendingSubscriptions.hasKey s.id
  same_feed : ∀ r ∈ db.renewingSubscriptions, ∃ old ∈ db.subscriptions, ∃ new ∈ db.subscriptions,
    old.id = r.old ∧ new.id = r.new ∧ old.hub = new.hub ∧ old.topic = new.topic

namespace Coherent

variable {db db' : Database}

theorem empty : Coherent Database.empty where
  exclusive := by simp [Database.empty]
  same_feed := by simp [Database.empty]

theorem not_pending (h : Coherent db) {id : Int64} (hid : db.activeSubscriptions.hasKey id = true) :
    db.pendingSubscriptions.hasKey id = false := by
  obtain ⟨a, ha, rfl⟩ := Table.hasKey_iff.mp hid
  obtain ⟨s, hs, hsid⟩ := Table.hasKey_iff.mp (db.active_references a ha)
  have hex := h.exclusive s hs
  rw [hsid, hid] at hex
  simpa using hex.symm

/-- No subscription renews one that itself renews another. -/
theorem old_ne_new (h : Coherent db) {r r' : RenewingSubscription}
    (hr : r ∈ db.renewingSubscriptions) (hr' : r' ∈ db.renewingSubscriptions) : r.old ≠ r'.new := by
  intro heq
  have hnew := db.new_references r' hr'
  rw [← heq, h.not_pending (db.old_references r hr)] at hnew
  cases hnew

/-- An id occurs in at most one renewing row. -/
theorem row_unique (h : Coherent db) {r r' : RenewingSubscription} {id : Int64}
    (hr : r ∈ db.renewingSubscriptions) (hr' : r' ∈ db.renewingSubscriptions)
    (hid : id = r.old ∨ id = r.new) (hid' : id = r'.old ∨ id = r'.new) : r = r' := by
  rcases hid with rfl | rfl <;> rcases hid' with heq | heq
  · exact db.old_unique r hr r' hr' heq
  · exact absurd heq (h.old_ne_new hr hr')
  · exact absurd heq.symm (h.old_ne_new hr' hr)
  · exact Table.eq_of_key_eq hr hr' heq

/-! ### Deletions -/

/-- Whatever is deleted, the cascades leave coherent tables. -/
theorem deleteSubscriptions (h : Coherent db) (p : Subscription → Bool) :
    Coherent (db.deleteSubscriptions p) := by
  constructor
  · intro s hs
    obtain ⟨hs, hp⟩ := Database.mem_subscriptions_delete.mp hs
    have hgone : db.deletedIds p s.id = false := by rw [Database.deletedIds_of_mem hs, hp]
    have hactive : (db.deleteSubscriptions p).activeSubscriptions.hasKey s.id =
        (db.activeSubscriptions.hasKey s.id && !db.deletedIds p s.id) :=
      Table.hasKey_filter_key (p := fun id => !db.deletedIds p id)
    have hpending : (db.deleteSubscriptions p).pendingSubscriptions.hasKey s.id =
        (db.pendingSubscriptions.hasKey s.id && !db.deletedIds p s.id) :=
      Table.hasKey_filter_key (p := fun id => !db.deletedIds p id)
    rw [hactive, hpending, hgone, h.exclusive s hs]
    simp
  · intro r hr
    obtain ⟨hr, hold, hnew⟩ := Database.mem_renewing_delete.mp hr
    obtain ⟨old, hold', new, hnew', ho, hn, hhub, htopic⟩ := h.same_feed r hr
    rw [← ho, Database.deletedIds_of_mem hold'] at hold
    rw [← hn, Database.deletedIds_of_mem hnew'] at hnew
    exact ⟨old, Database.mem_subscriptions_delete.mpr ⟨hold', hold⟩, new,
      Database.mem_subscriptions_delete.mpr ⟨hnew', hnew⟩, ho, hn, hhub, htopic⟩

theorem removeDangling (h : Coherent db) : Coherent db.removeDangling :=
  h.deleteSubscriptions _

end Coherent

/-! ### The transactions -/

/-- The retry loop ends with an id that no subscription had, or runs out of random numbers. -/
theorem insertFresh_cases (hub topic secret : String) (ids : List UInt64) (db : Database) :
    (∃ id db', insertFresh hub topic secret ids db = .ok (id, db') ∧
      db.insertSubscription ⟨id, hub, topic, secret⟩ = .ok db') ∨
    insertFresh hub topic secret ids db = .error .starved := by
  induction ids with
  | nil => exact Or.inr rfl
  | cons r rs ih =>
    cases hins : db.insertSubscription ⟨(r >>> 1).toInt64, hub, topic, secret⟩ with
    | ok db' => exact Or.inl ⟨_, db', by simp only [insertFresh, hins], hins⟩
    | error e =>
      obtain rfl := Database.insertSubscription_error hins
      simp only [insertFresh, hins]
      exact ih

/-- Every id that the random numbers give is taken. -/
def Draw.IsUsedUp (draw : Draw) (db : Database) : Prop :=
  ∀ r ∈ draw.ids, db.subscriptions.hasKey (r >>> 1).toInt64 = true

theorem insertFresh_starved_iff {db : Database} (hub topic secret : String) {ids : List UInt64} :
    insertFresh hub topic secret ids db = .error .starved ↔
      ∀ r ∈ ids, db.subscriptions.hasKey (r >>> 1).toInt64 = true := by
  induction ids with
  | nil => simp [insertFresh]
  | cons r rs ih =>
    rw [List.forall_mem_cons, ← ih]
    cases hins : db.insertSubscription ⟨(r >>> 1).toInt64, hub, topic, secret⟩ with
    | ok db' =>
      have hfresh := Table.not_hasKey_of_insert (Database.insertSubscription_ok hins).1
      simp [insertFresh, hins, hfresh]
    | error e =>
      obtain rfl := Database.insertSubscription_error hins
      have htaken : db.subscriptions.hasKey (r >>> 1).toInt64 = true := by
        unfold Database.insertSubscription at hins
        split at hins
        · rename_i hnone
          exact Table.insert_eq_none_iff.mp hnone
        · cases hins
      simp [insertFresh, hins, htaken]

/-- A new subscription under a fresh id, pending. -/
structure Opened (db : Database) (hub topic : String) (id : Int64) (secret : String)
    (db' : Database) : Prop where
  fresh : db.subscriptions.hasKey id = false
  subscriptions : db.subscriptions.insert ⟨id, hub, topic, secret⟩ = some db'.subscriptions
  pending : db.pendingSubscriptions.insert ⟨id⟩ = some db'.pendingSubscriptions
  active : db'.activeSubscriptions = db.activeSubscriptions

/-- What a finished `create_subscription` has done. -/
structure Created (db : Database) (hub topic : String) (id : Int64) (secret : String)
    (db' : Database) : Prop extends Opened db hub topic id secret db' where
  renewing : db'.renewingSubscriptions = db.renewingSubscriptions

/-- What a finished `renew` has done: a row also ties the new subscription to the old one. -/
structure Renewed (db : Database) (old : Subscription) (new : Int64) (secret : String)
    (db' : Database) : Prop extends Opened db old.hub old.topic new secret db' where
  renewing : db.renewingSubscriptions.insert ⟨old.id, new⟩ = some db'.renewingSubscriptions

theorem not_pending_of_fresh {db : Database} {id : Int64} (h : db.subscriptions.hasKey id = false) :
    db.pendingSubscriptions.hasKey id = false := by
  rw [Table.hasKey_eq_false_iff]
  rintro p hp rfl
  rw [db.pending_references p hp] at h
  cases h

theorem not_active_of_fresh {db : Database} {id : Int64} (h : db.subscriptions.hasKey id = false) :
    db.activeSubscriptions.hasKey id = false := by
  rw [Table.hasKey_eq_false_iff]
  rintro a ha rfl
  rw [db.active_references a ha] at h
  cases h

theorem not_new_of_fresh {db : Database} {id : Int64} (h : db.subscriptions.hasKey id = false) :
    db.renewingSubscriptions.hasKey id = false := by
  rw [Table.hasKey_eq_false_iff]
  rintro r hr rfl
  have hnp := not_pending_of_fresh h
  rw [db.new_references r hr] at hnp
  cases hnp

namespace Opened

variable {db db' : Database} {hub topic secret : String} {id : Int64}

theorem mem (h : Opened db hub topic id secret db') {s : Subscription} :
    s ∈ db'.subscriptions ↔ s ∈ db.subscriptions ∨ s = ⟨id, hub, topic, secret⟩ :=
  Table.mem_of_insert h.subscriptions

theorem ne_id (h : Opened db hub topic id secret db') {s : Subscription}
    (hs : s ∈ db.subscriptions) : id ≠ s.id := by
  rintro rfl
  have hfresh := h.fresh
  rw [Table.hasKey_of_mem hs] at hfresh
  cases hfresh

theorem exclusive (h : Opened db hub topic id secret db') (hc : Coherent db) :
    ∀ s ∈ db'.subscriptions,
      db'.activeSubscriptions.hasKey s.id = !db'.pendingSubscriptions.hasKey s.id := by
  intro s hs
  rw [h.active, Table.hasKey_of_insert h.pending]
  rcases h.mem.mp hs with hs | rfl
  · simp [hc.exclusive s hs, h.ne_id hs]
  · simp [not_active_of_fresh h.fresh]

end Opened

theorem createSubscription_cases (draw : Draw) (hub topic : String) (db : Database) :
    (∃ id db', createSubscription draw hub topic db = .ok ((id, draw.secret), db') ∧
      Created db hub topic id draw.secret db') ∨
    createSubscription draw hub topic db = .error .starved := by
  unfold createSubscription
  rcases insertFresh_cases hub topic draw.secret draw.ids db with ⟨id, db₁, hrun, hins⟩ | hrun
  · obtain ⟨hsub, hactive, hpending, hrenewing⟩ := Database.insertSubscription_ok hins
    have hfresh := Table.not_hasKey_of_insert hsub
    obtain ⟨db₂, hpend⟩ := Database.exists_insertPending db₁ ⟨id⟩
      (by rw [hpending]; exact not_pending_of_fresh hfresh)
      (by rw [Table.hasKey_of_insert hsub]; simp)
    obtain ⟨hp, hs, ha, hr⟩ := Database.insertPending_ok hpend
    refine Or.inl ⟨id, db₂, ?_, ⟨hfresh, ?_, ?_, ha.trans hactive⟩, hr.trans hrenewing⟩
    · rw [hrun]
      simp only [hpend, unwrapDb_ok]
    · rw [hs]; exact hsub
    · rw [← hpending]; exact hp
  · exact Or.inr (by rw [hrun])

theorem createSubscription_starved_iff {db : Database} {draw : Draw} (hub topic : String) :
    createSubscription draw hub topic db = .error .starved ↔ draw.IsUsedUp db := by
  unfold Draw.IsUsedUp
  rw [← insertFresh_starved_iff hub topic draw.secret]
  unfold createSubscription
  cases insertFresh hub topic draw.secret draw.ids db with
  | error e => simp
  | ok created =>
    cases hins : created.2.insertPending ⟨created.1⟩ with
    | error d => simp [hins]
    | ok db' => simp [hins]

theorem createSubscription_ok {draw : Draw} {hub topic : String} {db : Database}
    {a : (Int64 × String) × Database} (h : createSubscription draw hub topic db = .ok a) :
    Created db hub topic a.1.1 draw.secret a.2 := by
  rcases createSubscription_cases draw hub topic db with ⟨id, db', hrun, hcreated⟩ | hrun
  · rw [hrun] at h
    cases h
    exact hcreated
  · rw [hrun] at h
    cases h

theorem Created.coherent {db db' : Database} {hub topic secret : String} {id : Int64}
    (h : Created db hub topic id secret db') (hc : Coherent db) : Coherent db' where
  exclusive := h.toOpened.exclusive hc
  same_feed := by
    intro r hr
    rw [h.renewing] at hr
    obtain ⟨old, hold, new, hnew, hfeed⟩ := hc.same_feed r hr
    exact ⟨old, h.toOpened.mem.mpr (Or.inl hold), new, h.toOpened.mem.mpr (Or.inl hnew), hfeed⟩

/-- A subscription that may be renewed: active, and not being renewed already. -/
structure Renewable (db : Database) (s : Subscription) : Prop where
  mem : s ∈ db.subscriptions
  active : db.activeSubscriptions.hasKey s.id = true
  not_renewing : db.isRenewing s.id = false

theorem renewTransaction_cases (draw : Draw) {db : Database} {old : Subscription}
    (hold : Renewable db old) :
    (∃ new db', renewTransaction draw old.id old.hub old.topic db = .ok ((new, draw.secret), db') ∧
      Renewed db old new draw.secret db') ∨
    renewTransaction draw old.id old.hub old.topic db = .error .starved := by
  unfold renewTransaction
  rcases createSubscription_cases draw old.hub old.topic db with ⟨new, db₁, hrun, hcr⟩ | hrun
  · have hfree : db₁.renewingSubscriptions.hasKey new = false := by
      rw [hcr.renewing]
      exact not_new_of_fresh hcr.fresh
    have hidle : db₁.isRenewing old.id = false := by
      have hsame : db₁.isRenewing old.id = db.isRenewing old.id := by
        simp only [Database.isRenewing, hcr.renewing]
      rw [hsame]
      exact hold.not_renewing
    obtain ⟨db₂, hins⟩ := Database.exists_insertRenewing db₁ ⟨old.id, new⟩ hfree hidle
      (by rw [hcr.active]; exact hold.active)
      (by rw [Table.hasKey_of_insert hcr.pending]; simp)
    obtain ⟨hr, hs, ha, hp⟩ := Database.insertRenewing_ok hins
    refine Or.inl ⟨new, db₂, ?_, ⟨hcr.fresh, ?_, ?_, ha.trans hcr.active⟩, ?_⟩
    · rw [hrun]
      simp only [hins, unwrapDb_ok]
    · rw [hs]; exact hcr.subscriptions
    · rw [hp]; exact hcr.pending
    · rw [← hcr.renewing]; exact hr
  · exact Or.inr (by rw [hrun])

/-- Whether or not the old subscription may be renewed, the transaction of `renew` creates a subscription and
ties it to the old one. -/
theorem renewTransaction_ok {draw : Draw} {old : Int64} {hub topic : String} {db : Database}
    {a : (Int64 × String) × Database} (h : renewTransaction draw old hub topic db = .ok a) :
    ∃ db₁, Created db hub topic a.1.1 draw.secret db₁ ∧ db₁.insertRenewing ⟨old, a.1.1⟩ = .ok a.2 := by
  unfold renewTransaction at h
  cases hcreate : createSubscription draw hub topic db with
  | error e =>
    rw [hcreate] at h
    cases h
  | ok created =>
    rw [hcreate] at h
    cases hinsert : created.2.insertRenewing ⟨old, created.1.1⟩ with
    | error e =>
      simp only [hinsert, unwrapDb_error] at h
      cases h
    | ok db' =>
      simp only [hinsert, unwrapDb_ok] at h
      cases h
      exact ⟨created.2, createSubscription_ok hcreate, hinsert⟩

namespace Renewed

variable {db db' : Database} {old : Subscription} {new : Int64} {secret : String}

theorem coherent (h : Renewed db old new secret db') (hold : old ∈ db.subscriptions)
    (hc : Coherent db) : Coherent db' where
  exclusive := h.toOpened.exclusive hc
  same_feed := by
    intro r hr
    rcases (Table.mem_of_insert h.renewing).mp hr with hr | rfl
    · obtain ⟨o, ho, n, hn, hfeed⟩ := hc.same_feed r hr
      exact ⟨o, h.toOpened.mem.mpr (Or.inl ho), n, h.toOpened.mem.mpr (Or.inl hn), hfeed⟩
    · exact ⟨old, h.toOpened.mem.mpr (Or.inl hold), _, h.toOpened.mem.mpr (Or.inr rfl),
        rfl, rfl, rfl, rfl⟩

/-- Renewing one subscription leaves the others renewable. -/
theorem renewable (h : Renewed db old new secret db') {s : Subscription} (hs : Renewable db s)
    (hne : old.id ≠ s.id) : Renewable db' s where
  mem := h.toOpened.mem.mpr (Or.inl hs.mem)
  active := by rw [h.active]; exact hs.active
  not_renewing := by
    rw [Database.isRenewing_eq_false_iff]
    intro r hr
    rcases (Table.mem_of_insert h.renewing).mp hr with hr | rfl
    · exact Database.isRenewing_eq_false_iff.mp hs.not_renewing r hr
    · exact hne

end Renewed

/-- What the transaction at the end of `verify_intent` does, where it is not refused. -/
structure Activated (db : Database) (id expiresAt : Int64) (db' : Database) : Prop where
  subscriptions : db'.subscriptions = db.subscriptions
  active : db.activeSubscriptions.insert ⟨id, expiresAt⟩ = some db'.activeSubscriptions
  pending : db'.pendingSubscriptions = db.pendingSubscriptions.filter (fun p => !decide (p.id = id))
  renewing : db'.renewingSubscriptions =
    db.renewingSubscriptions.filter (fun r => !decide (r.new = id))

theorem activate_ok {db db' : Database} {id expiresAt : Int64} {u : Unit}
    (h : db.activate id expiresAt = .ok (u, db')) : Activated db id expiresAt db' := by
  unfold Database.activate at h
  cases hins : (db.deletePending (· = id)).insertActive ⟨id, expiresAt⟩ with
  | error e =>
    rw [hins] at h
    cases h
  | ok db₁ =>
    rw [hins] at h
    cases h
    obtain ⟨ha, hs, hp, hr⟩ := Database.insertActive_ok hins
    exact ⟨hs, ha, hp, hr⟩

theorem exists_activate {db : Database} {id : Int64} (expiresAt : Int64)
    (hid : db.subscriptions.hasKey id = true) (hna : db.activeSubscriptions.hasKey id = false) :
    ∃ db', db.activate id expiresAt = .ok ((), db') := by
  obtain ⟨db', hins⟩ := Database.exists_insertActive (db.deletePending (· = id))
    ⟨id, expiresAt⟩ hna hid
  unfold Database.activate
  rw [hins]
  exact ⟨db', rfl⟩

theorem Activated.coherent {db db' : Database} {id expiresAt : Int64}
    (h : Activated db id expiresAt db') (hc : Coherent db) : Coherent db' := by
  constructor
  · intro s hs
    rw [h.subscriptions] at hs
    have hpending : db'.pendingSubscriptions.hasKey s.id =
        (db.pendingSubscriptions.hasKey s.id && !decide (s.id = id)) := by
      rw [h.pending]
      exact Table.hasKey_filter_key (p := fun k => !decide (k = id))
    rw [hpending, Table.hasKey_of_insert h.active]
    by_cases heq : s.id = id
    · simp [heq]
    · simp [hc.exclusive s hs, heq, Ne.symm heq]
  · intro r hr
    rw [h.renewing] at hr
    obtain ⟨old, hold, new, hnew, hfeed⟩ := hc.same_feed r (Table.mem_filter.mp hr).1
    rw [h.subscriptions]
    exact ⟨old, hold, new, hnew, hfeed⟩

end Pipitor.Websub
