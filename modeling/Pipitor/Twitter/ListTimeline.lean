import Pipitor.Manifest

/-!
# The list timeline

`twitter/list_timeline.rs`: a `ListTimeline` owns a reference to a `RequestSender` and the receiving end
of a channel. The `Interval` task that issues the polls only holds a weak reference, so it lives as
long as the `ListTimeline` (or a request under way) keeps the `RequestSender`. `Inner.id` tells one
channel from another.
-/

namespace Pipitor.Twitter

/-- `oauth_credentials::Token`: the client's credentials and those of a user. -/
structure Token where
  client : Credentials
  user : Int64
  access : Credentials
deriving DecidableEq, Repr

/-- `list_timeline::RequestSender`, without the shared `since_id`. -/
structure RequestSender where
  listId : { id : UInt64 // id ≠ 0 }
  delay : Duration
  period : Duration
  token : Token
deriving DecidableEq

/-- `list_timeline::Inner`. `backfill` is the `since_id` of the `Backfill` that was spawned with it. -/
structure Inner where
  id : ℕ
  sender : Option RequestSender
  backfill : Option Int64
deriving DecidableEq

structure ListTimeline where
  inner : Option Inner
deriving DecidableEq

namespace ListTimeline

def new (list : TwitterList) (sinceId : Option Int64) (token : Token) (id : ℕ) : ListTimeline where
  inner := some {
    id
    sender := some ⟨list.id, list.delay, list.interval, token⟩
    backfill := sinceId }

def empty : ListTimeline := ⟨none⟩

/-- `shutdown`: the `RequestSender` is dropped, the channel is kept. -/
def shutdown (t : ListTimeline) : ListTimeline :=
  ⟨t.inner.map fun inner => { inner with sender := none }⟩

/-- The `RequestSender` that the timeline keeps alive. -/
def sender (t : ListTimeline) : Option RequestSender := t.inner.bind (·.sender)

@[simp] theorem sender_shutdown (t : ListTimeline) : t.shutdown.sender = none := by
  unfold sender shutdown
  cases t.inner <;> rfl

/-- The timeline issues polls: it has an `Inner`, and the `Inner` has its `RequestSender`. -/
def IsLive (t : ListTimeline) : Prop := ∃ inner, t.inner = some inner ∧ inner.sender.isSome = true

theorem isLive_iff {t : ListTimeline} : t.IsLive ↔ t.sender.isSome = true := by
  unfold IsLive sender
  cases t.inner <;> simp

end ListTimeline

end Pipitor.Twitter
