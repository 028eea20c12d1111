import Mathlib.Data.List.Dedup
import Mathlib.Data.List.Destutter
import Pipitor.Router
import Pipitor.Twitter.Database
import Pipitor.Twitter.ListTimeline

/-!
# The core of the application

`app/core.rs`: the manifest, the router, the connection pool and the access tokens of the Twitter users,
and the functions that connect to Twitter with them. What the outside decides (the database, whether a
connection is established) is an argument; a function that fails says so in a `Failure`.
-/

namespace Pipitor.App

open Relational Twitter

/-- The errors that the `App` returns, by the message or the context they carry. -/
inductive AppError
  | invalid (message : String)
  | pool (context : String)
  | database
  | notAuthorized (message : String)
  | stream (context : String)
  | service (message : String)
deriving DecidableEq, Repr

/-- How an operation may end early: it returns an error, it panics, or its future is dropped at an
`await`. -/
inductive Failure
  | error (e : AppError)
  | panic
  | dropped
deriving DecidableEq, Repr

/-- `Pool`. Two pools of the same database are still two pools. -/
structure Pool where
  url : String
  id : ℕ
deriving DecidableEq, Repr

/-- `twitter_stream::TwitterStream`, by what it was built with; `id` tells one connection from another. -/
structure TwitterStream where
  id : ℕ
  token : Token
  follow : List UInt64
deriving DecidableEq

structure Core where
  manifest : Manifest
  router : Router
  pool : Pool
  twitterTokens : Int64 → Option Credentials

/-- What `Core` asks of the outside: the database behind the pool, whether a connection to it and the
statements of each function succeed, and the outcome of the two `await`s of `init_twitter`. -/
structure CoreEnv where
  db : Database
  insertLastTweet : Except Failure Unit
  loadTokens : Except Failure Unit
  ready : Except Failure Unit
  listen : Except Failure Unit
  loadLastTweet : Except Failure Unit

/-- `From<models::TwitterToken> for Credentials`. -/
def credentials (token : TwitterToken) : Credentials := ⟨token.accessToken, token.accessTokenSecret⟩

/-- The users that need an access token: those of the outboxes, and the configured one. -/
def usersOf (manifest : Manifest) (config : Twitter) : List Int64 :=
  (manifest.twitterOutboxes ++ [config.user]).dedup

/-- The users to follow, sorted and without repetitions. -/
def followOf (manifest : Manifest) : List UInt64 :=
  ((manifest.twitterTopics.map (·.toUInt64)).mergeSort (· ≤ ·)).destutter (· ≠ ·)

namespace Core

variable (core : Core)

def initTwitter (env : CoreEnv) (id : ℕ) : Except Failure (Option TwitterStream) :=
  match core.manifest.twitter with
  | none => .ok none
  | some config =>
    if !config.stream then .ok none
    else match core.twitterTokens config.user with
    | none => .error .panic
    | some access => do
      env.ready
      env.listen
      pure (some ⟨id, ⟨config.client, config.user, access⟩, followOf core.manifest⟩)

def initTwitterList (env : CoreEnv) (id : ℕ) : Except Failure ListTimeline :=
  match core.manifest.twitter with
  | some ⟨client, user, _, some list⟩ => do
    env.loadLastTweet
    let sinceId := env.db.lastStatusId.filter (0 < ·)
    match core.twitterTokens user with
    | none => .error .panic
    | some access => pure (.new list sinceId ⟨client, user, access⟩ id)
  | _ => .ok .empty

def loadTwitterTokens (env : CoreEnv) : Except Failure Core :=
  match core.manifest.twitter with
  | none => .ok core
  | some config => do
    let unauthedUsers := (usersOf core.manifest config).filter
      fun user => (core.twitterTokens user).isNone
    env.loadTokens
    let tokens := env.db.twitterTokens.rows.filter (·.id ∈ unauthedUsers)
    if unauthedUsers.length = tokens.length then
      pure { core with twitterTokens := fun user =>
        match tokens.find? (·.id = user) with
        | some token => some (credentials token)
        | none => core.twitterTokens user }
    else .error (.error (.notAuthorized
      "not all Twitter users are authorized; please run `pipitor twitter-login`"))

def gcTwitterTokens : Core :=
  match core.manifest.twitter with
  | none => { core with twitterTokens := fun _ => none }
  | some config => { core with twitterTokens := fun user =>
      if (usersOf core.manifest config).contains user then core.twitterTokens user else none }

/-- `Core::new`, with what it leaves in the database. -/
def new (manifest : Manifest) (env : CoreEnv) (pool : Except Failure Pool) :
    Except Failure Core × Database :=
  match manifest.validate, pool, env.insertLastTweet with
  | .error message, _, _ => (.error (.error (.invalid message)), env.db)
  | .ok (), .error e, _ => (.error e, env.db)
  | .ok (), .ok _, .error e => (.error e, env.db)
  | .ok (), .ok pool, .ok () =>
    let db := env.db.initLastTweet
    let core : Core := ⟨manifest, .fromManifest manifest, pool, fun _ => none⟩
    (core.loadTwitterTokens { env with db }, db)

end Core

/-! ### A small configuration -/

/-- Retweets of user 10 by user 1, without the streaming API. `list` may be polled. -/
def sampleManifest (list : Option TwitterList) (topics : List TopicId) : Manifest :=
  ⟨none, [⟨⟨none, none, [.twitter 1]⟩, topics⟩], none, some ⟨⟨"key", "secret"⟩, 1, false, list⟩, false⟩

def sampleList : TwitterList := ⟨⟨42, by decide⟩, 1000000000, 1000000000⟩

def sampleCore (manifest : Manifest) : Core :=
  ⟨manifest, .fromManifest manifest, ⟨"pipitor.sqlite3", 0⟩,
    fun user => if user = 1 then some ⟨"token", "secret"⟩ else none⟩

/-- The tables after user 1 has logged in and the program has been started. -/
def sampleDatabase : Database :=
  { Database.empty with
    lastTweet := ⟨[⟨0, 0⟩], by simp⟩
    twitterTokens := ⟨[⟨1, "token", "secret"⟩], by simp⟩
    user_references := by simp [Database.empty] }

end Pipitor.App
