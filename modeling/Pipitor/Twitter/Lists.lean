import Pipitor.Foundation.Listing
import Pipitor.Foundation.Machine
import Pipitor.Twitter.ListTimeline
import Pipitor.Twitter.Snowflake

/-!
# `GET lists/statuses`

`api/lists.rs` and `RequestSender::send`: the request for the tweets of a list, and what an API that
answers it without errors returns. The tweets of the list are those that it shows to every kind of
request, so `include_rts` has no part in the answer.
-/

namespace Pipitor.Twitter

open Machine

/-- `lists::Statuses`, with the defaults of `Statuses::new`. -/
structure Statuses where
  listId : { id : UInt64 // id ≠ 0 }
  sinceId : Option Int64 := none
  maxId : Option Int64 := none
  count : Option ℕ := some 200
  includeRts : Option Bool := none
deriving DecidableEq

/-- The most tweets that one answer holds. -/
def maxCount : ℕ := 200

/-- An answer to the request, of tweets in descending order of their ids. -/
def Statuses.answer {α : Type} (id : α → Int64) (tweets : List α) (request : Statuses) : List α :=
  Listing.page id (min (request.count.getD maxCount) maxCount) request.sinceId request.maxId tweets

namespace RequestSender

/-- The bound below which `send` does not look, or `none` where a conversion panics. -/
def minId (sender : RequestSender) (now : ℕ) : Option Int64 :=
  (systemTimeToSnowflake (now - sender.delay)).bind tryIntoI64

/-- The request of `send` when `since_id` has been loaded, or `none` where it panics. -/
def send (sender : RequestSender) (sinceId : Int64) (now : ℕ) : Option Statuses := do
  let sinceId ← if sinceId ≠ 0 then (sender.minId now).map fun minId => some (min sinceId minId)
    else some none
  let count := if sinceId.isSome then 200 else 1
  return { listId := sender.listId, count := some count, includeRts := some false, sinceId }

end RequestSender

end Pipitor.Twitter
