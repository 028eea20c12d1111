import Pipitor.Websub.World

/-!
# Talking to a hub

The functions of `websub/hub.rs`: `subscribe`, `renew`, `unsubscribe` and `unsubscribe_all`, over
`create_subscription`, `make_callback` and `send_request`. Each builds the request's future and
returns it; the caller spawns it.

`create_subscription` draws ids until one is free. The draws are an argument (`Draw`), so that a
statement about every draw is a statement about every argument.
-/

namespace Pipitor.Websub

open Resumption

/-- What `create_subscription` takes from the random number generator: a secret, and the successive
values of `next_u64`. -/
structure Draw where
  secret : String
  ids : List UInt64

/-- `encode_callback_id`: the bytes without the most significant zeroes, in base64. -/
def encodeCallbackId (lib : Libraries) (id : List UInt8) : String :=
  let i := (id.reverse.findIdx? (· ≠ 0)).getD id.length
  lib.base64 (id.take (id.length - i))

/-- `i64::to_le_bytes`. -/
def toLeBytes (id : Int64) : List UInt8 :=
  (List.range 8).map fun k => (id.toUInt64 >>> (8 * k).toUInt64).toUInt8

def makeCallback (lib : Libraries) (callback : Uri) (id : Int64) : Except Abort Uri :=
  match callback.pathAndQuery with
  | none => .error .uri
  | some path =>
    let path := path ++ encodeCallbackId lib (toLeBytes id)
    let parts := { callback with pathAndQuery := some path }
    if lib.isPathAndQuery path && lib.isUriParts parts then .ok parts else .error .uri

def sendRequest (lib : Libraries) (hub : String) (form : Form) : Except Abort Task :=
  if lib.isUri hub then .ok (.request hub form) else .error .uri

/-- The loop of `create_subscription`: a taken id is drawn again. -/
def insertFresh (hub topic secret : String) :
    List UInt64 → Database → Except Abort (Int64 × Database)
  | [], _ => .error .starved
  | r :: rs, db =>
    let id := (r >>> 1).toInt64
    match db.insertSubscription ⟨id, hub, topic, secret⟩ with
    | .ok db' => .ok (id, db')
    | .error .uniqueViolation => insertFresh hub topic secret rs db
    | .error e => .error (.database e)

/-- The transaction of `create_subscription`. -/
def createSubscription (draw : Draw) (hub topic : String) (db : Database) :
    Except Abort ((Int64 × String) × Database) :=
  match insertFresh hub topic draw.secret draw.ids db with
  | .error e => .error e
  | .ok (id, db) =>
    match unwrapDb (db.insertPending ⟨id⟩) with
    | .error e => .error e
    | .ok db => .ok ((id, draw.secret), db)

/-- The transaction of `renew`, with that of `create_subscription` nested in it. -/
def renewTransaction (draw : Draw) (old : Int64) (hub topic : String) (db : Database) :
    Except Abort ((Int64 × String) × Database) :=
  match createSubscription draw hub topic db with
  | .error e => .error e
  | .ok ((new, secret), db) =>
    match unwrapDb (db.insertRenewing ⟨old, new⟩) with
    | .error e => .error e
    | .ok db => .ok ((new, secret), db)

namespace Hub

variable (lib : Libraries) (callback : Uri)

def subscribe (draw : Draw) (hub topic : String) : Prog World Abort Task := do
  let (id, secret) ← transaction (createSubscription draw hub topic)
  let callback ← .ofExcept (makeCallback lib callback id)
  .ofExcept (sendRequest lib hub (.subscribe callback topic secret))

def renew (draw : Draw) (old : Int64) (hub topic : String) : Prog World Abort Task := do
  let (new, secret) ← transaction (renewTransaction draw old hub topic)
  let callback ← .ofExcept (makeCallback lib callback new)
  .ofExcept (sendRequest lib hub (.subscribe callback topic secret))

def unsubscribe (id : Int64) (hub topic : String) : Prog World Abort Task := do
  execute (·.deleteSubscriptions (·.id = id))
  let callback ← .ofExcept (makeCallback lib callback id)
  .ofExcept (sendRequest lib hub (.unsubscribe callback topic))

/-- The iterator that `unsubscribe_all` returns is lazy; `consume` is what the caller does with each
future. -/
def unsubscribeAll (order : Relational.RowOrder Subscription) (topic : String)
    (consume : Task → Prog World Abort Unit) : Prog World Abort Unit := do
  let subscriptions ← query fun db => order.apply (db.subscriptions.rows.filter (·.topic = topic))
  execute (·.deleteSubscriptions (·.topic = topic))
  subscriptions.forM fun s => do
    let callback ← .ofExcept (makeCallback lib callback s.id)
    let task ← .ofExcept (sendRequest lib s.hub (.unsubscribe callback topic))
    consume task

end Hub

end Pipitor.Websub
