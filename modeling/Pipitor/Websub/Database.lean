import Pipitor.Foundation.Table

/-!
# The WebSub tables

`Database` is the four `websub_*` tables as the migrations leave them, with `foreign_keys` on:

* `websub_subscriptions (id PRIMARY KEY, hub, topic, secret)`;
* `websub_active_subscriptions (id PRIMARY KEY REFERENCES websub_subscriptions, expires_at)`;
* `websub_pending_subscriptions (id PRIMARY KEY REFERENCES websub_subscriptions)`;
* `websub_renewing_subscriptions (old UNIQUE REFERENCES websub_active_subscriptions,
  new PRIMARY KEY REFERENCES websub_pending_subscriptions)`.

Every reference is `ON DELETE CASCADE`. The constraints are fields: a statement either fails or
produces a database that satisfies them, and a deletion takes along what referred to the row.
-/

namespace Pipitor.Websub

open Relational

/-- What SQLite refuses, and the `NotFound` of a `get_result` that matches no row. -/
inductive DbError
  | uniqueViolation
  | foreignKeyViolation
  | notFound
deriving DecidableEq, Repr

structure Subscription where
  id : Int64
  hub : String
  topic : String
  secret : String
deriving DecidableEq, Repr

structure ActiveSubscription where
  id : Int64
  expiresAt : Int64
deriving DecidableEq, Repr

structure PendingSubscription where
  id : Int64
deriving DecidableEq, Repr

structure RenewingSubscription where
  old : Int64
  new : Int64
deriving DecidableEq, Repr

structure Database where
  subscriptions : Table Subscription.id
  activeSubscriptions : Table ActiveSubscription.id
  pendingSubscriptions : Table PendingSubscription.id
  renewingSubscriptions : Table RenewingSubscription.new
  old_unique : ∀ r ∈ renewingSubscriptions, ∀ r' ∈ renewingSubscriptions, r.old = r'.old → r = r'
  active_references : ∀ a ∈ activeSubscriptions, subscriptions.hasKey a.id = true
  pending_references : ∀ p ∈ pendingSubscriptions, subscriptions.hasKey p.id = true
  old_references : ∀ r ∈ renewingSubscriptions, activeSubscriptions.hasKey r.old = true
  new_references : ∀ r ∈ renewingSubscriptions, pendingSubscriptions.hasKey r.new = true

namespace Database

/-- The tables right after the migrations. -/
def empty : Database where
  subscriptions := .empty
  activeSubscriptions := .empty
  pendingSubscriptions := .empty
  renewingSubscriptions := .empty
  old_unique := by simp
  active_references := by simp
  pending_references := by simp
  old_references := by simp
  new_references := by simp

/-- `websub_renewing_subscriptions::old`, the query `query::renewing_subs`. -/
def isRenewing (db : Database) (id : Int64) : Bool :=
  db.renewingSubscriptions.rows.any (·.old = id)

theorem isRenewing_eq_false_iff {db : Database} {id : Int64} :
    db.isRenewing id = false ↔ ∀ r ∈ db.renewingSubscriptions, r.old ≠ id := by
  simp [isRenewing, Table.mem_def]

/-! ### Insertions -/

/-- `INSERT INTO websub_subscriptions`. -/
def insertSubscription (s : Subscription) (db : Database) : Except DbError Database :=
  match h : db.subscriptions.insert s with
  | none => .error .uniqueViolation
  | some t => .ok { db with
      subscriptions := t
      active_references := fun a ha => by
        simp [Table.hasKey_of_insert h, db.active_references a ha]
      pending_references := fun p hp => by
        simp [Table.hasKey_of_insert h, db.pending_references p hp] }

/-- `INSERT INTO websub_pending_subscriptions`. -/
def insertPending (p : PendingSubscription) (db : Database) : Except DbError Database :=
  match h : db.pendingSubscriptions.insert p with
  | none => .error .uniqueViolation
  | some t =>
    if hs : db.subscriptions.hasKey p.id = true then .ok { db with
      pendingSubscriptions := t
      pending_references := fun p' hp' => by
        rcases (Table.mem_of_insert h).mp hp' with hp' | rfl
        · exact db.pending_references p' hp'
        · exact hs
      new_references := fun r hr => by
        simp [Table.hasKey_of_insert h, db.new_references r hr] }
    else .error .foreignKeyViolation

/-- `INSERT INTO websub_active_subscriptions`. -/
def insertActive (a : ActiveSubscription) (db : Database) : Except DbError Database :=
  match h : db.activeSubscriptions.insert a with
  | none => .error .uniqueViolation
  | some t =>
    if hs : db.subscriptions.hasKey a.id = true then .ok { db with
      activeSubscriptions := t
      active_references := fun a' ha' => by
        rcases (Table.mem_of_insert h).mp ha' with ha' | rfl
        · exact db.active_references a' ha'
        · exact hs
      old_references := fun r hr => by
        simp [Table.hasKey_of_insert h, db.old_references r hr] }
    else .error .foreignKeyViolation

/-- `INSERT INTO websub_renewing_subscriptions`. -/
def insertRenewing (r : RenewingSubscription) (db : Database) : Except DbError Database :=
  match h : db.renewingSubscriptions.insert r with
  | none => .error .uniqueViolation
  | some t =>
    if hu : db.isRenewing r.old = true then .error .uniqueViolation
    else if hr : db.activeSubscriptions.hasKey r.old = true ∧
        db.pendingSubscriptions.hasKey r.new = true then .ok { db with
      renewingSubscriptions := t
      old_unique := fun x hx y hy hxy => by
        rw [Bool.not_eq_true, isRenewing_eq_false_iff] at hu
        rcases (Table.mem_of_insert h).mp hx with hx | rfl <;>
          rcases (Table.mem_of_insert h).mp hy with hy | rfl
        · exact db.old_unique x hx y hy hxy
        · exact absurd hxy (hu x hx)
        · exact absurd hxy.symm (hu y hy)
        · rfl
      old_references := fun x hx => by
        rcases (Table.mem_of_insert h).mp hx with hx | rfl
        · exact db.old_references x hx
        · exact hr.1
      new_references := fun x hx => by
        rcases (Table.mem_of_insert h).mp hx with hx | rfl
        · exact db.new_references x hx
        · exact hr.2 }
    else .error .foreignKeyViolation

/-! What a successful insertion does to each table, and when an insertion succeeds. -/

theorem insertSubscription_ok {db db' : Database} {s : Subscription}
    (h : db.insertSubscription s = .ok db') :
    db.subscriptions.insert s = some db'.subscriptions ∧
      db'.activeSubscriptions = db.activeSubscriptions ∧
      db'.pendingSubscriptions = db.pendingSubscriptions ∧
      db'.renewingSubscriptions = db.renewingSubscriptions := by
  unfold insertSubscription at h
  split at h
  · cases h
  · rename_i t ht
    cases h
    exact ⟨ht, rfl, rfl, rfl⟩

theorem insertSubscription_error {db : Database} {s : Subscription} {e : DbError}
    (h : db.insertSubscription s = .error e) : e = .uniqueViolation := by
  unfold insertSubscription at h
  split at h
  · cases h; rfl
  · cases h

theorem insertPending_ok {db db' : Database} {p : PendingSubscription}
    (h : db.insertPending p = .ok db') :
    db.pendingSubscriptions.insert p = some db'.pendingSubscriptions ∧
      db'.subscriptions = db.subscriptions ∧
      db'.activeSubscriptions = db.activeSubscriptions ∧
      db'.renewingSubscriptions = db.renewingSubscriptions := by
  unfold insertPending at h
  split at h
  · cases h
  · rename_i t ht
    split at h
    · cases h
      exact ⟨ht, rfl, rfl, rfl⟩
    · cases h

theorem exists_insertPending (db : Database) (p : PendingSubscription)
    (hfresh : db.pendingSubscriptions.hasKey p.id = false)
    (hsub : db.subscriptions.hasKey p.id = true) : ∃ db', db.insertPending p = .ok db' := by
  unfold insertPending
  split
  · rename_i hnone
    rw [Table.insert_eq_none_iff.mp hnone] at hfresh
    cases hfresh
  · exact ⟨_, dif_pos hsub⟩

theorem insertActive_ok {db db' : Database} {a : ActiveSubscription}
    (h : db.insertActive a = .ok db') :
    db.activeSubscriptions.insert a = some db'.activeSubscriptions ∧
      db'.subscriptions = db.subscriptions ∧
      db'.pendingSubscriptions = db.pendingSubscriptions ∧
      db'.renewingSubscriptions = db.renewingSubscriptions := by
  unfold insertActive at h
  split at h
  · cases h
  · rename_i t ht
    split at h
    · cases h
      exact ⟨ht, rfl, rfl, rfl⟩
    · cases h

theorem exists_insertActive (db : Database) (a : ActiveSubscription)
    (hfresh : db.activeSubscriptions.hasKey a.id = false)
    (hsub : db.subscriptions.hasKey a.id = true) : ∃ db', db.insertActive a = .ok db' := by
  unfold insertActive
  split
  · rename_i hnone
    rw [Table.insert_eq_none_iff.mp hnone] at hfresh
    cases hfresh
  · exact ⟨_, dif_pos hsub⟩

theorem insertRenewing_ok {db db' : Database} {r : RenewingSubscription}
    (h : db.insertRenewing r = .ok db') :
    db.renewingSubscriptions.insert r = some db'.renewingSubscriptions ∧
      db'.subscriptions = db.subscriptions ∧
      db'.activeSubscriptions = db.activeSubscriptions ∧
      db'.pendingSubscriptions = db.pendingSubscriptions := by
  unfold insertRenewing at h
  split at h
  · cases h
  · rename_i t ht
    split at h
    · cases h
    · split at h
      · cases h
        exact ⟨ht, rfl, rfl, rfl⟩
      · cases h

theorem exists_insertRenewing (db : Database) (r : RenewingSubscription)
    (hfresh : db.renewingSubscriptions.hasKey r.new = false) (hold : db.isRenewing r.old = false)
    (hactive : db.activeSubscriptions.hasKey r.old = true)
    (hpending : db.pendingSubscriptions.hasKey r.new = true) :
    ∃ db', db.insertRenewing r = .ok db' := by
  unfold insertRenewing
  split
  · rename_i hnone
    rw [Table.insert_eq_none_iff.mp hnone] at hfresh
    cases hfresh
  · rw [dif_neg (by simp [hold]), dif_pos ⟨hactive, hpending⟩]
    exact ⟨_, rfl⟩

/-! ### Deletions and their cascades -/

/-- Delete the active rows with an id in `gone`, and the renewing rows that referred to them. -/
def deleteActive (gone : Int64 → Bool) (db : Database) : Database :=
  { db with
    activeSubscriptions := db.activeSubscriptions.filter (fun a => !gone a.id)
    renewingSubscriptions := db.renewingSubscriptions.filter (fun r => !gone r.old)
    old_unique := fun r hr r' hr' =>
      db.old_unique r (Table.mem_filter.mp hr).1 r' (Table.mem_filter.mp hr').1
    active_references := fun a ha => db.active_references a (Table.mem_filter.mp ha).1
    old_references := fun r hr => by
      obtain ⟨hr, hgone⟩ := Table.mem_filter.mp hr
      rw [Table.hasKey_filter_key (p := fun id => !gone id), db.old_references r hr, hgone]
      rfl
    new_references := fun r hr => db.new_references r (Table.mem_filter.mp hr).1 }

/-- Delete the pending rows with an id in `gone`, and the renewing rows that referred to them. -/
def deletePending (gone : Int64 → Bool) (db : Database) : Database :=
  { db with
    pendingSubscriptions := db.pendingSubscriptions.filter (fun p => !gone p.id)
    renewingSubscriptions := db.renewingSubscriptions.filter (fun r => !gone r.new)
    old_unique := fun r hr r' hr' =>
      db.old_unique r (Table.mem_filter.mp hr).1 r' (Table.mem_filter.mp hr').1
    pending_references := fun p hp => db.pending_references p (Table.mem_filter.mp hp).1
    old_references := fun r hr => db.old_references r (Table.mem_filter.mp hr).1
    new_references := fun r hr => by
      obtain ⟨hr, hgone⟩ := Table.mem_filter.mp hr
      rw [Table.hasKey_filter_key (p := fun id => !gone id), db.new_references r hr, hgone]
      rfl }

/-- The ids a deletion from `websub_subscriptions` takes away. -/
def deletedIds (db : Database) (p : Subscription → Bool) (id : Int64) : Bool :=
  db.subscriptions.rows.any fun s => p s && s.id = id

theorem deletedIds_iff {db : Database} {p : Subscription → Bool} {id : Int64} :
    db.deletedIds p id = true ↔ ∃ s ∈ db.subscriptions, p s = true ∧ s.id = id := by
  simp [deletedIds, Table.mem_def]

theorem deletedIds_of_mem {db : Database} {p : Subscription → Bool} {s : Subscription}
    (hs : s ∈ db.subscriptions) : db.deletedIds p s.id = p s := by
  rw [Bool.eq_iff_iff, deletedIds_iff]
  constructor
  · rintro ⟨s', hs', hp, hid⟩
    rwa [Table.eq_of_key_eq hs hs' hid.symm]
  · intro hp
    exact ⟨s, hs, hp, rfl⟩

theorem hasKey_filter_of_not_deleted {db : Database} {p : Subscription → Bool} {id : Int64}
    (hid : db.subscriptions.hasKey id = true) (hgone : db.deletedIds p id = false) :
    (db.subscriptions.filter (fun s => !p s)).hasKey id = true := by
  obtain ⟨s, hs, rfl⟩ := Table.hasKey_iff.mp hid
  rw [deletedIds_of_mem hs] at hgone
  exact Table.hasKey_filter.mpr ⟨s, hs, by simp [hgone], rfl⟩

/-- `DELETE FROM websub_subscriptions WHERE p`, with its cascades. -/
def deleteSubscriptions (p : Subscription → Bool) (db : Database) : Database :=
  let gone := db.deletedIds p
  let db' := (db.deleteActive gone).deletePending gone
  { db' with
    subscriptions := db.subscriptions.filter (fun s => !p s)
    active_references := fun a ha => by
      obtain ⟨ha, hgone⟩ := Table.mem_filter.mp ha
      exact hasKey_filter_of_not_deleted (db.active_references a ha) (by simpa using hgone)
    pending_references := fun q hq => by
      obtain ⟨hq, hgone⟩ := Table.mem_filter.mp hq
      exact hasKey_filter_of_not_deleted (db.pending_references q hq) (by simpa using hgone) }

section Delete

variable {db : Database} {p : Subscription → Bool}

@[simp] theorem mem_subscriptions_delete {s : Subscription} :
    s ∈ (db.deleteSubscriptions p).subscriptions ↔ s ∈ db.subscriptions ∧ p s = false := by
  simp [deleteSubscriptions]

@[simp] theorem mem_active_delete {a : ActiveSubscription} :
    a ∈ (db.deleteSubscriptions p).activeSubscriptions ↔
      a ∈ db.activeSubscriptions ∧ db.deletedIds p a.id = false := by
  simp [deleteSubscriptions, deleteActive, deletePending]

@[simp] theorem mem_renewing_delete {r : RenewingSubscription} :
    r ∈ (db.deleteSubscriptions p).renewingSubscriptions ↔
      r ∈ db.renewingSubscriptions ∧ db.deletedIds p r.old = false ∧
        db.deletedIds p r.new = false := by
  simp [deleteSubscriptions, deleteActive, deletePending, and_assoc]

end Delete

end Database

end Pipitor.Websub
