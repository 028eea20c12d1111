import Pipitor.Foundation.Prog
import Pipitor.Manifest
import Pipitor.Websub.Database

/-!
# What the subscriber's programs share

`World` is the database, the scheduler's timer and the futures handed to `tokio::spawn`. A program
of the subscriber is a `Prog World Abort`: its atomic actions are single SQL statements, explicit
transactions and accesses of the timer.

`Libraries` collects what the subscriber asks of third-party crates. Nothing is assumed about them.
-/

namespace Pipitor.Websub

open Resumption

/-- `hub::Verify`. -/
inductive Verify
  | subscribe (topic challenge : String) (leaseSeconds : UInt64)
  | unsubscribe (topic challenge : String)
deriving DecidableEq, Repr

/-- `hub::Form`. -/
inductive Form
  | subscribe (callback : Uri) (topic secret : String)
  | unsubscribe (callback : Uri) (topic : String)
deriving DecidableEq, Repr

/-- The third-party functions the subscriber calls. -/
structure Libraries where
  /-- `base64::encode` with `URL_SAFE_NO_PAD`. -/
  base64 : List UInt8 → String
  /-- Whether `http::Request::post` (or `get`) accepts the string as a URI. -/
  isUri : String → Bool
  /-- Whether `PathAndQuery::try_from` accepts the string. -/
  isPathAndQuery : String → Bool
  /-- Whether `Uri::try_from` accepts the parts. -/
  isUriParts : Uri → Bool
  /-- `serde_urlencoded::from_str::<hub::Verify>`. -/
  parseVerify : String → Option Verify

/-- A future handed to `tokio::spawn`. -/
inductive Task
  | request (hub : String) (form : Form)
  | discoverAndSubscribe (topic : String)
  | discover (topic : String)
deriving DecidableEq, Repr

/-- The state of a `Scheduler` and its `Handle`. `nextTick` is `u64::MAX` where there is no next tick;
`delay` is the deadline of the armed `Sleep`; `woken` says that the task is due to be polled. -/
structure Timer where
  nextTick : UInt64
  delay : Option UInt64
  woken : Bool
deriving DecidableEq, Repr

structure World where
  db : Database
  timer : Timer
  spawned : List Task

/-- Why a program does not return. `database` is an `unwrap` of a database error; `arithmetic` an
overflow, of an `Instant` or one caught by overflow checks, or an `unwrap` of a failed integer
conversion; `uri` an `unwrap` of a malformed URI. `starved` is no panic: the retry loop of
`create_subscription` has used up the random numbers the model gave it and is still going. -/
inductive Abort
  | database (e : DbError)
  | arithmetic
  | uri
  | starved
deriving DecidableEq, Repr

/-- `unwrap` on a database result. -/
def unwrapDb {α : Type} : Except DbError α → Except Abort α
  | .ok a => .ok a
  | .error e => .error (.database e)

@[simp] theorem unwrapDb_ok {α : Type} (a : α) : unwrapDb (.ok a) = .ok a := rfl

@[simp] theorem unwrapDb_error {α : Type} (e : DbError) :
    unwrapDb (.error e : Except DbError α) = .error (.database e) := rfl

/-- One SQL query. -/
def query {α : Type} (f : Database → α) : Prog World Abort α := .read fun w => f w.db

/-- One SQL statement that cannot violate a constraint. -/
def execute (f : Database → Database) : Prog World Abort Unit :=
  .modify fun w => { w with db := f w.db }

/-- One explicit transaction. A failure rolls it back. -/
def transaction {α : Type} (f : Database → Except Abort (α × Database)) : Prog World Abort α :=
  .attempt fun w => match f w.db with
    | .ok (a, db) => .ok (a, { w with db })
    | .error e => .error e

/-- `tokio::spawn`. -/
def spawn (task : Task) : Prog World Abort Unit :=
  .modify fun w => { w with spawned := w.spawned ++ [task] }

section Sat

variable {w : World} {E : Abort → World → Prop}

theorem sat_query {α : Type} {f : Database → α} {Q : α → World → Prop} :
    Prog.Sat (query f) w Q E ↔ Q (f w.db) w := Prog.sat_read

theorem sat_execute {f : Database → Database} {Q : Unit → World → Prop} :
    Prog.Sat (execute f) w Q E ↔ Q () { w with db := f w.db } := Prog.sat_modify

theorem sat_spawn {task : Task} {Q : Unit → World → Prop} :
    Prog.Sat (spawn task) w Q E ↔ Q () { w with spawned := w.spawned ++ [task] } :=
  Prog.sat_modify

theorem sat_transaction {α : Type} {f : Database → Except Abort (α × Database)}
    {Q : α → World → Prop} (hok : ∀ a db, f w.db = .ok (a, db) → Q a { w with db })
    (herr : ∀ e, f w.db = .error e → E e w) : Prog.Sat (transaction f) w Q E := by
  refine Prog.sat_attempt ?_ ?_
  · intro a w' h
    cases hf : f w.db with
    | ok r =>
      rw [hf] at h
      cases h
      exact hok r.1 r.2 hf
    | error e =>
      rw [hf] at h
      cases h
  · intro e h
    cases hf : f w.db with
    | ok r =>
      rw [hf] at h
      cases h
    | error e' =>
      rw [hf] at h
      cases h
      exact herr _ hf

/-- A transaction of which it is known that it is committed. -/
theorem sat_transaction_ok {α : Type} {f : Database → Except Abort (α × Database)} {Q : α → World → Prop} {a : α}
    {db : Database} (hrun : f w.db = .ok (a, db)) (hQ : Q a { w with db }) :
    Prog.Sat (transaction f) w Q E := by
  refine sat_transaction ?_ ?_
  · intro a' db' h
    rw [hrun] at h
    cases h
    exact hQ
  · intro e h
    rw [hrun] at h
    cases h

/-- One of which it is known that it fails. -/
theorem sat_transaction_error {α : Type} {f : Database → Except Abort (α × Database)} {Q : α → World → Prop}
    {e : Abort} (hrun : f w.db = .error e) (hE : E e w) : Prog.Sat (transaction f) w Q E := by
  refine sat_transaction ?_ ?_
  · intro a db h
    rw [hrun] at h
    cases h
  · intro e' h
    rw [hrun] at h
    cases h
    exact hE

end Sat

end Pipitor.Websub
