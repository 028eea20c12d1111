import Pipitor.App.Sender
import Pipitor.Feed

/-!
# Entries

The part of `app/sender.rs` that posts the entries of feeds: `send_feed` and `send_entry`, with the table
`entries`, where a future stores an entry once its `Update` request has succeeded. The calls do not write
to the table; they read it once for an entry and spawn futures.
-/

namespace Pipitor.App

/-! ### The table -/

/-- `models::NewEntry`, a row of `entries`. -/
structure NewEntry where
  topic : String
  id : Option String
  link : String
  title : Option String
  summary : Option String
  content : Option String
  updated : Option Int64
deriving DecidableEq, Repr

def NewEntry.new (topic : String) (entry : FeedEntry) : Option NewEntry :=
  entry.link.map fun link =>
    ⟨topic, entry.id, link, entry.title, entry.summary, entry.content, entry.updated⟩

/-- The row has the primary key `(topic, id)`. A key with a NULL is no other's. -/
def NewEntry.hasKey (r : NewEntry) (topic : String) (id : Option String) : Bool :=
  id.isSome && decide (r.topic = topic ∧ r.id = id)

/-- The condition of the query in `send_entry`. -/
def NewEntry.isOf (r : NewEntry) (topic : String) (id : Option String) (link : String) : Bool :=
  r.hasKey topic id || decide (r.link = link)

structure Entries where
  rows : List NewEntry
  key_unique : rows.Pairwise fun r r' => r.hasKey r'.topic r'.id = false

namespace Entries

def empty : Entries := ⟨[], .nil⟩

/-- The query of `send_entry`. -/
def alreadyProcessed (t : Entries) (topic : String) (id : Option String) (link : String) : Bool :=
  t.rows.any (·.isOf topic id link)

/-- `diesel::replace_into`. -/
def replaceInto (t : Entries) (r : NewEntry) : Entries where
  rows := t.rows.filter (fun r' => !r'.hasKey r.topic r.id) ++ [r]
  key_unique := by
    refine List.pairwise_append.mpr ⟨t.key_unique.sublist List.filter_sublist, List.pairwise_singleton _ r, ?_⟩
    intro r' hr' x hx
    obtain rfl := List.mem_singleton.mp hx
    simpa using (List.mem_filter.mp hr').2

@[simp] theorem mem_replaceInto {t : Entries} {r r' : NewEntry} :
    r' ∈ (t.replaceInto r).rows ↔ (r' ∈ t.rows ∧ r'.hasKey r.topic r.id = false) ∨ r' = r := by
  simp [replaceInto]

theorem alreadyProcessed_iff {t : Entries} {topic link : String} {id : Option String} :
    t.alreadyProcessed topic id link = true ↔ ∃ r ∈ t.rows, r.isOf topic id link = true :=
  List.any_eq_true

end Entries

/-! ### The text -/

def maxWeightedTweetLength : ℕ := 280

def transformedUrlLength : ℕ := 23

/-- `text::sanitize`. -/
def sanitize (s : String) (maxLen : ℕ) : String :=
  if maxLen / 2 < s.length then .ofList (s.toList.take (maxLen / 2 - 1)) ++ "…" else s

def titleLen : ℕ := maxWeightedTweetLength - 1 - transformedUrlLength

/-- The text of the `Update` requests of an entry. -/
def entryText (title : Option String) (link : String) : String :=
  match title with
  | some title => sanitize title titleLen ++ "\n" ++ link
  | none => link

/-! ### The calls -/

/-- An `Update` request that has been built, and what its future keeps. -/
structure Update where
  topic : String
  entry : FeedEntry
  user : Int64
  text : String
  link : String
  link_eq : entry.link = some link
deriving DecidableEq

/-- The row that the future stores. -/
def Update.row (u : Update) : NewEntry := (NewEntry.new u.topic u.entry).get (by simp [NewEntry.new, u.link_eq])

/-- What may fail in a call of `send_entry`: the first connection, the query, and the connection for an outbox
after the first one. -/
inductive EntryStatement
  | connect
  | processed
  | connectOutbox (i : ℕ)
deriving DecidableEq, Repr

abbrev EntryFaults := EntryStatement → Bool

/-- The loop over the outboxes of `send_entry`: the users for whom a request is spawned. The first outbox uses
the connection that is there. -/
def postOutboxes (core : Core) (faults : EntryFaults) :
    ℕ → List Outbox → List Int64 × Except Failure Unit
  | _, [] => ([], .ok ())
  | i, .twitter user :: outboxes =>
    if i ≠ 0 ∧ faults (.connectOutbox i) then ([], .error (.error noConnection))
    else match core.twitterToken (some user) with
    | none => ([], .error .panic)
    | some _ =>
      let (users, result) := postOutboxes core faults (i + 1) outboxes
      (user :: users, result)

/-- `Sender::send_entry`, when the table is `entries`: the requests that it spawns, and its result. -/
def sendEntry (core : Core) (faults : EntryFaults) (topic : String) (entry : FeedEntry)
    (entries : Entries) : List Update × Except Failure Unit :=
  match h : entry.link with
  | none => ([], .ok ())
  | some link =>
    if faults .connect then ([], .error (.error noConnection))
    else if faults .processed then ([], .error (.error .database))
    else if entries.alreadyProcessed topic entry.id link then ([], .ok ())
    else
      let (users, result) := postOutboxes core faults 0 (core.router.routeEntry topic entry.toEntry)
      (users.map fun user => ⟨topic, entry, user, entryText entry.title link, link, h⟩, result)

/-- `Sender::send_feed`, when the `i`-th call of `send_entry` finds the table `tables i` and meets the faults
`faults i`. -/
def sendFeed (core : Core) (faults : ℕ → EntryFaults) (topic : String) (tables : ℕ → Entries) :
    ℕ → List FeedEntry → List Update × Except Failure Unit
  | _, [] => ([], .ok ())
  | i, entry :: entries =>
    match sendEntry core (faults i) topic entry (tables i) with
    | (updates, .error e) => (updates, .error e)
    | (updates, .ok ()) =>
      let (rest, result) := sendFeed core faults topic tables (i + 1) entries
      (updates ++ rest, result)

end Pipitor.App
