import Mathlib.Data.List.Basic

/-!
# The manifest

`manifest.rs`: the configuration as it is after deserialization, the views of it that the rest of the
program asks for (topics, outboxes), its validation and its filters. A `Regex` is what it matches; the
text of a `socket::Addr` is kept as it stands.
-/

namespace Pipitor

/-- `http::Uri`, by its parts. -/
structure Uri where
  scheme : Option String
  authority : Option String
  pathAndQuery : Option String
deriving DecidableEq, Repr

/-- `std::time::Duration` in nanoseconds. -/
abbrev Duration := ℕ

def Duration.asSecs (d : Duration) : ℕ := d / 1000000000

/-- `regex::Regex`. -/
structure Regex where
  isMatch : String → Bool

/-- The parts of a feed entry that a filter looks at. -/
structure Entry where
  title : Option String
  summary : Option String
  content : Option String
deriving DecidableEq, Repr

/-- `twitter::Tweet`. `retweetedStatus` says whether the tweet carries one; its content is ignored by
the deserializer. -/
structure Tweet where
  id : Int64
  text : String
  inReplyToStatusId : Option Int64
  inReplyToUserId : Option Int64
  user : Int64
  quotedStatus : Option Int64
  retweetedStatus : Option Unit
deriving DecidableEq, Repr

inductive Outbox
  | twitter (user : Int64)
deriving DecidableEq, Repr

inductive TopicId
  | feed (topic : String)
  | twitter (user : Int64)
deriving DecidableEq, Repr

structure Filter where
  title : Regex
  text : Option Regex

structure Route where
  filter : Option Filter
  exclude : Option Filter
  outbox : List Outbox

structure Rule where
  route : Route
  topics : List TopicId

structure WebSub where
  callback : Uri
  bind : Option String
  renewalMargin : Duration
deriving DecidableEq, Repr

structure Credentials where
  identifier : String
  secret : String
deriving DecidableEq, Repr

structure TwitterList where
  id : { id : UInt64 // id ≠ 0 }
  interval : Duration
  delay : Duration
deriving DecidableEq

structure Twitter where
  client : Credentials
  user : Int64
  stream : Bool
  list : Option TwitterList
deriving DecidableEq

structure Manifest where
  databaseUrl : Option String
  rule : List Rule
  websub : Option WebSub
  twitter : Option Twitter
  skipDuplicate : Bool

namespace Filter

def matchesEntry (f : Filter) (entry : Entry) : Bool :=
  entry.title.any f.title.isMatch ||
    f.text.any fun t => (entry.content.toList ++ entry.summary.toList).any t.isMatch

def matchesTweet (f : Filter) (tweet : Tweet) : Bool :=
  f.title.isMatch tweet.text || f.text.any fun t => t.isMatch tweet.text

end Filter

namespace Manifest

variable (m : Manifest)

/-- `database_url`, where `env` is the variable `DATABASE_URL`. -/
def databaseUrl' (env : Option String) : String := (m.databaseUrl <|> env).getD "pipitor.sqlite3"

def topics : List TopicId := m.rule.flatMap (·.topics)

def hasTopic (topic : TopicId) : Bool := m.topics.any (· = topic)

def feedTopics : List String := m.topics.filterMap fun
  | .feed topic => some topic
  | .twitter _ => none

def twitterTopics : List Int64 := m.topics.filterMap fun
  | .twitter user => some user
  | .feed _ => none

def outboxes : List Outbox := m.rule.flatMap (·.route.outbox)

def twitterOutboxes : List Int64 := m.outboxes.map fun
  | .twitter user => user

/-- `validate_`: the error, if there is one. -/
def validate? : Option String :=
  if m.twitter.isNone then
    if !m.twitterTopics.isEmpty then
      some "the manifest has Twitter topics, but API credentials are not provided"
    else if !m.twitterOutboxes.isEmpty then
      some "the manifest has Twitter outboxes, but API credentials are not provided"
    else none
  else none

def validate : Except String Unit :=
  match m.validate? with
  | some e => .error e
  | none => .ok ()

variable {m}

@[simp] theorem hasTopic_iff {topic : TopicId} : m.hasTopic topic = true ↔ topic ∈ m.topics := by
  simp [hasTopic]

@[simp] theorem mem_feedTopics {topic : String} : topic ∈ m.feedTopics ↔ .feed topic ∈ m.topics := by
  unfold feedTopics
  rw [List.mem_filterMap]
  constructor
  · rintro ⟨t, ht, heq⟩
    cases t with
    | feed topic' =>
      obtain rfl : topic' = topic := by simpa using heq
      exact ht
    | twitter user => simp at heq
  · intro h
    exact ⟨_, h, rfl⟩

@[simp] theorem mem_twitterTopics {user : Int64} :
    user ∈ m.twitterTopics ↔ .twitter user ∈ m.topics := by
  unfold twitterTopics
  rw [List.mem_filterMap]
  constructor
  · rintro ⟨t, ht, heq⟩
    cases t with
    | twitter user' =>
      obtain rfl : user' = user := by simpa using heq
      exact ht
    | feed topic => simp at heq
  · intro h
    exact ⟨_, h, rfl⟩

/-- A manifest without Twitter credentials is valid when nothing in it needs them. -/
theorem validate_eq_ok_iff :
    m.validate = .ok () ↔ m.twitter = none → m.twitterTopics = [] ∧ m.twitterOutboxes = [] := by
  unfold validate validate?
  cases m.twitter with
  | some t => simp
  | none =>
    by_cases ht : m.twitterTopics = []
    · by_cases ho : m.twitterOutboxes = []
      · simp [ht, ho]
      · simp [ht, ho]
    · simp [ht]

end Manifest

end Pipitor
