import Pipitor.Foundation.Machine
import Pipitor.Websub.Hub
import Pipitor.Websub.Scheduler

/-!
# The subscriber service

`websub/subscriber/service.rs` and the parts of `websub/subscriber.rs` that touch the database or the
timer: the verification of intent, the renewal of expiring subscriptions, the removal of dangling ones,
and the first and the next tick of the scheduler.

Arithmetic on `u64` is that of the build: with `overflowChecks` an overflow panics, without it wraps.
-/

namespace Pipitor.Websub

open Machine Resumption Relational

/-- The fields of `service::Service` that do not change. `boot` is the time at which the machine was
booted, from which its `Instant`s are counted. -/
structure Service where
  callback : Uri
  renewalMargin : UInt64
  overflowChecks : Bool
  boot : UInt64
  lib : Libraries

/-- The status and the body of an `http::Response`. -/
structure Response where
  status : ℕ
  body : String
deriving DecidableEq, Repr

def Response.notFound : Response := ⟨404, ""⟩

/-- The `expires_at` that `verify_intent` stores. -/
def expiresAt (now leaseSeconds : UInt64) : Int64 :=
  (tryIntoI64 (saturatingAdd now leaseSeconds)).getD Int64.maxValue

namespace Database

/-- `row(topic)` of `verify_intent`: the subscription with this id, if it is of this topic. -/
def isSubscribed (db : Database) (id : Int64) (topic : String) : Bool :=
  db.subscriptions.rows.any fun s => s.id = id && s.topic = topic

/-- `row(topic)` without the active ones. -/
def isUnverified (db : Database) (id : Int64) (topic : String) : Bool :=
  db.isSubscribed id topic && !db.activeSubscriptions.hasKey id

/-- Whether `renew_subscriptions` selects the subscription. -/
def isExpiring (db : Database) (threshold : Int64) (s : Subscription) : Bool :=
  match db.activeSubscriptions.find? s.id with
  | some a => a.expiresAt ≤ threshold && !db.isRenewing s.id
  | none => false

/-- The earliest expiry of all active subscriptions, the query `query::expires_at`. -/
def firstExpiry (db : Database) : Option Int64 :=
  (db.activeSubscriptions.rows.map (·.expiresAt)).min?

/-- The earliest expiry of the active subscriptions that are not being renewed. -/
def nextExpiry (db : Database) : Option Int64 :=
  ((db.activeSubscriptions.rows.filter fun a => !db.isRenewing a.id).map (·.expiresAt)).min?

/-- The transaction at the end of `verify_intent`. -/
def activate (id expiresAt : Int64) (db : Database) : Except Abort (Unit × Database) :=
  match unwrapDb ((db.deletePending (· = id)).insertActive ⟨id, expiresAt⟩) with
  | .error e => .error e
  | .ok db => .ok ((), db)

/-- `remove_dangling_subscriptions`. -/
def removeDangling (db : Database) : Database :=
  db.deleteSubscriptions fun s => !db.activeSubscriptions.hasKey s.id

end Database

namespace Service

variable (svc : Service)

def addU64 (a b : UInt64) : Except Abort UInt64 :=
  if svc.overflowChecks && decide (2 ^ 64 ≤ a.toNat + b.toNat) then .error .arithmetic else .ok (a + b)

def subU64 (a b : UInt64) : Except Abort UInt64 :=
  if svc.overflowChecks && decide (a < b) then .error .arithmetic else .ok (a - b)

def refreshTime (expiresAt : UInt64) : Except Abort UInt64 := svc.subU64 expiresAt svc.renewalMargin

/-- The tick at which a stored `expires_at` asks for a renewal. -/
def tickOf (expiresAt : Int64) : Except Abort UInt64 :=
  match tryIntoU64 expiresAt with
  | some expiresAt => svc.refreshTime expiresAt
  | none => .ok 0

/-- `tickOf` under an `Option`, as `Option::map` does. -/
def tickOf? : Option Int64 → Except Abort (Option UInt64)
  | none => .ok none
  | some expiresAt => match svc.tickOf expiresAt with
    | .ok tick => .ok (some tick)
    | .error e => .error e

/-- The timer that `Subscriber::new` starts the scheduler with at the time `now`. -/
def newTimer (now : UInt64) (db : Database) : Except Abort Timer :=
  match svc.tickOf? db.firstExpiry with
  | .ok firstTick => Timer.spawn svc.boot now firstTick
  | .error e => .error e

def removeDanglingSubscriptions : Prog World Abort Unit := execute Database.removeDangling

def subscribe (draw : Draw) (hub topic : String) : Prog World Abort Task :=
  Hub.subscribe svc.lib svc.callback draw hub topic

/-- The instant up to which `renew_subscriptions` looks ahead. -/
def threshold (now : UInt64) : Except Abort Int64 :=
  match svc.addU64 now svc.renewalMargin with
  | .error e => .error e
  | .ok sum => match svc.addU64 sum 1 with
    | .error e => .error e
    | .ok sum => match tryIntoI64 sum with
      | some threshold => .ok threshold
      | none => .error .arithmetic

def renewSubscriptions (now : UInt64) (order : RowOrder Subscription) (draws : ℕ → Draw) :
    Prog World Abort Unit := do
  let threshold ← .ofExcept (svc.threshold now)
  let expiring ← query fun db => order.apply (db.subscriptions.rows.filter (db.isExpiring threshold))
  expiring.zipIdx.forM fun (s, i) => do
    let task ← Hub.renew svc.lib svc.callback (draws i) s.id s.hub s.topic
    spawn task

/-- The closure that `Subscriber::new` gives to the scheduler. -/
def getNextTick (now : UInt64) (order : RowOrder Subscription) (draws : ℕ → Draw) :
    Prog World Abort (Option UInt64) := do
  svc.renewSubscriptions now order draws
  let expiry ← query (·.nextExpiry)
  .ofExcept (svc.tickOf? expiry)

/-- `verify_intent` after the old subscription, if any, is gone. -/
def activate (id expiresAt : Int64) (challenge : String) : Prog World Abort Response := do
  transaction (Database.activate id expiresAt)
  pure ⟨200, challenge⟩

/-- `verify_intent` where the subscription renews `old`: it is removed, here and at the hub. -/
def replaceOld (id old expiresAt : Int64) (topic challenge : String) :
    Prog World Abort Response := do
  let hub ← transaction fun db => match db.subscriptions.find? id with
    | some s => .ok (s.hub, db)
    | none => .error (.database .notFound)
  let task ← Hub.unsubscribe svc.lib svc.callback old hub topic
  spawn task
  activate id expiresAt challenge

/-- `verify_intent` after the `hasten`. -/
def switchOver (id expiresAt : Int64) (topic challenge : String) : Prog World Abort Response := do
  let renewing ← query (·.renewingSubscriptions.find? id)
  match renewing with
  | some r => svc.replaceOld id r.old expiresAt topic challenge
  | none => activate id expiresAt challenge

/-- `verify_intent` for a subscription that awaits verification. -/
def confirm (id : Int64) (topic challenge : String) (leaseSeconds now : UInt64) :
    Prog World Abort Response := do
  let expiresAt := expiresAt now leaseSeconds
  let tick ← .ofExcept (svc.refreshTime expiresAt.toUInt64)
  onTimer (·.hasten tick)
  svc.switchOver id expiresAt topic challenge

def verifyIntent (id : Int64) (queryString : String) (now : UInt64) : Prog World Abort Response :=
  match svc.lib.parseVerify queryString with
  | some (.subscribe topic challenge leaseSeconds) => do
    let unverified ← query (·.isUnverified id topic)
    if unverified then svc.confirm id topic challenge leaseSeconds now else pure .notFound
  | some (.unsubscribe topic challenge) => do
    let subscribed ← query (·.isSubscribed id topic)
    if !subscribed then pure ⟨200, challenge⟩ else pure .notFound
  | none => pure .notFound

end Service

end Pipitor.Websub
