import Pipitor.App.Core
import Pipitor.Foundation.Prog

/-!
# The sender

The part of `app/sender.rs` that retweets: `send_tweet`, `send_tweets`, `send_tweet_` and `retweet`, as
programs over the database and the requests under way. Every statement may fail, as `Faults` says;
an explicit transaction is one atomic action.

`log` records what the program has done, for the statements about it; the program does not read it.
-/

namespace Pipitor.App

open Resumption Relational Twitter

/-- The statements of one processing of a tweet, in the order of the source. -/
inductive Statement
  | connect
  | find
  | updateLastTweet
  | duplicate
  | connectRetweet
  | begin
  | replaceTweet
  | replaceOngoing (user : Int64)
  | commit
deriving DecidableEq, Repr

/-- The statements that fail. -/
abbrev Faults := Statement → Bool

/-- `twitter_client::error::ErrorCode`. -/
inductive ErrorCode
  | youHaveAlreadyRetweetedThisTweet
  | noStatusFoundWithThatId
  | other (code : ℕ)
deriving DecidableEq, Repr

/-- The result of a `Retweet` request: a success, an error of the transport or of the response, or an
error that Twitter reports. -/
inductive Outcome
  | ok
  | failed
  | twitter (codes : List ErrorCode)
deriving DecidableEq, Repr

inductive LogEntry
  | received (tweet : Int64)
  | committed (tweet : Int64) (users : List Int64)
  | spawned (tweet : Int64) (users : List Int64)
  | completed (tweet user : Int64) (outcome : Outcome)
deriving DecidableEq, Repr

/-- `inFlight` are the `Retweet` requests, by tweet and user, whose futures have been spawned and have
not been completed. -/
structure Board where
  db : Twitter.Database
  inFlight : List (Int64 × Int64)
  log : List LogEntry

/-- `Core::twitter_token`. -/
def Core.twitterToken (core : Core) (user : Option Int64) : Option Token :=
  core.manifest.twitter.bind fun config =>
    (core.twitterTokens (user.getD config.user)).map fun access =>
      ⟨config.client, user.getD config.user, access⟩

/-- A statement that fails where `faults` says so. -/
def check (faults : Faults) (statement : Statement) (e : AppError) : Prog Board Failure Unit :=
  if faults statement then .abort (.error e) else pure ()

def noConnection : AppError := .pool "failed to retrieve a connection from the connection pool"

def record (entry : LogEntry) : Prog Board Failure Unit :=
  .modify fun b => { b with log := b.log ++ [entry] }

/-- `tokio::spawn` of the retweets of a tweet, which may first look for its duplicate. -/
def spawnRetweets (tweet : Int64) (users : List Int64) : Prog Board Failure Unit :=
  .modify fun b => { b with
    inFlight := b.inFlight ++ users.map fun user => (tweet, user)
    log := b.log ++ [.spawned tweet users] }

/-- The loop over the outboxes in the transaction of `retweet`. -/
def retweetOutboxes (core : Core) (faults : Faults) (tweet : Int64) :
    List Outbox → Twitter.Database → Except Failure (List Int64 × Twitter.Database)
  | [], db => .ok ([], db)
  | .twitter user :: outboxes, db =>
    if faults (.replaceOngoing user) then .error (.error .database)
    else match db.replaceOngoing ⟨tweet, user⟩ with
    | none => .error (.error .database)
    | some db =>
      match core.twitterToken (some user) with
      | none => .error .panic
      | some _ =>
        match retweetOutboxes core faults tweet outboxes db with
        | .ok (users, db) => .ok (user :: users, db)
        | .error e => .error e

/-- The transaction of `retweet`. -/
def retweetTransaction (core : Core) (faults : Faults) (tweet : Tweet) (db : Twitter.Database) :
    Except Failure (List Int64 × Twitter.Database) :=
  if faults .begin || faults .replaceTweet then .error (.error .database)
  else match retweetOutboxes core faults tweet.id (core.router.routeTweet tweet)
      (db.replaceTweet (.ofTweet tweet)) with
  | .ok (users, db) => if faults .commit then .error (.error .database) else .ok (users, db)
  | .error e => .error e

/-- `Sender::retweet`: the users for whom a `Retweet` request has been built. -/
def retweet (core : Core) (faults : Faults) (tweet : Tweet) : Prog Board Failure (List Int64) := do
  check faults .connectRetweet noConnection
  .attempt fun b => match retweetTransaction core faults tweet b.db with
    | .ok (users, db) => .ok (users, { b with db, log := b.log ++ [.committed tweet.id users] })
    | .error e => .error e

/-- `send_tweet_` for a tweet that was not found in `tweets`. -/
def sendUnrecorded (core : Core) (faults : Faults) (tweet : Tweet) : Prog Board Failure Unit :=
  if tweet.retweetedStatus.isSome then pure ()
  else if !core.manifest.skipDuplicate then do
    let users ← retweet core faults tweet
    spawnRetweets tweet.id users
  else if (core.router.routeTweet tweet).isEmpty then pure ()
  else do
    check faults .duplicate .database
    let duplicate ← Prog.read fun b => b.db.duplicate tweet.user tweet.text
    let users ← retweet core faults tweet
    match duplicate, core.twitterToken none with
    | some _, none => .abort .panic
    | _, _ => spawnRetweets tweet.id users

/-- The update of `last_tweet` in `send_tweet_`, if `update_last_tweet`. -/
def raiseLastTweet (faults : Faults) (tweet : Int64) : Bool → Prog Board Failure Unit
  | false => pure ()
  | true => do
    check faults .updateLastTweet .database
    .modify fun b => { b with db := b.db.updateLastTweet tweet }

/-- `Sender::send_tweet_`. -/
def sendTweet_ (core : Core) (faults : Faults) (tweet : Tweet) (updateLastTweet : Bool) :
    Prog Board Failure Unit := do
  record (.received tweet.id)
  check faults .connect noConnection
  check faults .find .database
  let recorded ← Prog.read fun b => b.db.tweets.hasKey tweet.id
  if recorded then pure ()
  else do
    raiseLastTweet faults tweet.id updateLastTweet
    sendUnrecorded core faults tweet

/-- `Sender::send_tweet`. -/
def sendTweet (core : Core) (faults : Faults) (tweet : Tweet) : Prog Board Failure Unit :=
  sendTweet_ core faults tweet true

/-- The loop of `send_tweets`: only the last tweet, the newest, updates `last_tweet`. The `i`-th
processing meets the faults `faults i`. -/
def sendEach (core : Core) (faults : ℕ → Faults) : ℕ → List Tweet → Prog Board Failure Unit
  | _, [] => pure ()
  | i, tweet :: tweets => do
    sendTweet_ core (faults i) tweet tweets.isEmpty
    sendEach core faults (i + 1) tweets

/-- `Sender::send_tweets`, for tweets in descending order of posted time. -/
def sendTweets (core : Core) (faults : ℕ → Faults) (tweets : List Tweet) : Prog Board Failure Unit :=
  sendEach core faults 0 tweets.reverse

/-! ### The end of a `Retweet` request -/

/-- `is_negligible`. -/
def isNegligible (code : ErrorCode) : Bool :=
  [ErrorCode.youHaveAlreadyRetweetedThisTweet, .noStatusFoundWithThatId].contains code

/-- Whether the result is `Ok` after the `or_else`. -/
def resultIsOk : Outcome → Bool
  | .ok => true
  | .failed => false
  | .twitter codes => !codes.any isNegligible

/-- What the future of a `Retweet` request does once the response is there. -/
def afterRetweet (tweet user : Int64) (outcome : Outcome) (db : Twitter.Database) : Twitter.Database :=
  if resultIsOk outcome then db.deleteOngoing tweet user else db

end Pipitor.App
