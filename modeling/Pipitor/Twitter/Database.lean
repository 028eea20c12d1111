import Pipitor.Foundation.Table
import Pipitor.Manifest

/-!
# The Twitter tables

The tables `tweets`, `last_tweet`, `twitter_tokens` and `ongoing_retweets` as the migrations leave
them, and the statements that the program makes on them. An ongoing retweet refers to its tweet and to
the token of its user, `ON DELETE CASCADE`; as in SQLite, a `REPLACE` of a row deletes the old one,
and with it what referred to it.
-/

namespace Pipitor.Twitter

open Relational

/-- A row of `tweets`, `models::NewTweet`. -/
structure TweetRow where
  id : Int64
  text : String
  userId : Int64
  inReplyToStatusId : Option Int64
  quotedStatusId : Option Int64
deriving DecidableEq, Repr

/-- `models::NewTweet::from`. -/
def TweetRow.ofTweet (tweet : Tweet) : TweetRow where
  id := tweet.id
  text := tweet.text
  userId := tweet.user
  inReplyToStatusId := tweet.inReplyToStatusId
  quotedStatusId := tweet.quotedStatus

structure LastTweet where
  id : Int64
  statusId : Int64
deriving DecidableEq, Repr

structure TwitterToken where
  id : Int64
  accessToken : String
  accessTokenSecret : String
deriving DecidableEq, Repr

structure OngoingRetweet where
  id : Int64
  user : Int64
deriving DecidableEq, Repr

/-- The primary key of `ongoing_retweets`. -/
def OngoingRetweet.key (r : OngoingRetweet) : Int64 × Int64 := (r.id, r.user)

structure Database where
  tweets : Table TweetRow.id
  lastTweet : Table LastTweet.id
  twitterTokens : Table TwitterToken.id
  ongoingRetweets : Table OngoingRetweet.key
  tweet_references : ∀ r ∈ ongoingRetweets, tweets.hasKey r.id = true
  user_references : ∀ r ∈ ongoingRetweets, twitterTokens.hasKey r.user = true

namespace Database

/-- The tables right after the migrations. -/
def empty : Database where
  tweets := .empty
  lastTweet := .empty
  twitterTokens := .empty
  ongoingRetweets := .empty
  tweet_references := by simp
  user_references := by simp

/-- `last_tweet.status_id` of the row with id 0. -/
def lastStatusId (db : Database) : Option Int64 := (db.lastTweet.find? 0).map (·.statusId)

/-- `INSERT INTO last_tweet VALUES (0, 0)`, a `UniqueViolation` being ignored. -/
def initLastTweet (db : Database) : Database :=
  match db.lastTweet.insert ⟨0, 0⟩ with
  | some t => { db with lastTweet := t }
  | none => db

/-- `UPDATE last_tweet SET status_id = id WHERE status_id < id`. -/
def updateLastTweet (id : Int64) (db : Database) : Database :=
  { db with
    lastTweet := db.lastTweet.update
      (fun r => if r.statusId < id then { r with statusId := id } else r)
      (fun r => by split <;> rfl) }

/-- The latest tweet of the user with this text. -/
def duplicate (user : Int64) (text : String) (db : Database) : Option Int64 :=
  ((db.tweets.rows.filter fun r => r.userId = user && r.text = text).map (·.id)).max?

/-- `REPLACE INTO tweets`. -/
def replaceTweet (row : TweetRow) (db : Database) : Database :=
  { db with
    tweets := db.tweets.replace row
    ongoingRetweets := db.ongoingRetweets.filter (·.id ≠ row.id)
    tweet_references := fun r hr => by
      rw [Table.hasKey_replace, db.tweet_references r (Table.mem_filter.mp hr).1]
      rfl
    user_references := fun r hr => db.user_references r (Table.mem_filter.mp hr).1 }

/-- `REPLACE INTO twitter_tokens`. -/
def replaceToken (row : TwitterToken) (db : Database) : Database :=
  { db with
    twitterTokens := db.twitterTokens.replace row
    ongoingRetweets := db.ongoingRetweets.filter (·.user ≠ row.id)
    tweet_references := fun r hr => db.tweet_references r (Table.mem_filter.mp hr).1
    user_references := fun r hr => by
      rw [Table.hasKey_replace, db.user_references r (Table.mem_filter.mp hr).1]
      rfl }

/-- `REPLACE INTO ongoing_retweets`, or `none` where a reference is violated. -/
def replaceOngoing (row : OngoingRetweet) (db : Database) : Option Database :=
  if h : db.tweets.hasKey row.id = true ∧ db.twitterTokens.hasKey row.user = true then some { db with
    ongoingRetweets := db.ongoingRetweets.replace row
    tweet_references := fun r hr => by
      rcases Table.mem_replace.mp hr with ⟨hr, -⟩ | rfl
      · exact db.tweet_references r hr
      · exact h.1
    user_references := fun r hr => by
      rcases Table.mem_replace.mp hr with ⟨hr, -⟩ | rfl
      · exact db.user_references r hr
      · exact h.2 }
  else none

/-- `DELETE FROM ongoing_retweets` by primary key. -/
def deleteOngoing (id user : Int64) (db : Database) : Database :=
  { db with
    ongoingRetweets := db.ongoingRetweets.filter (fun r => !decide (r.key = (id, user)))
    tweet_references := fun r hr => db.tweet_references r (Table.mem_filter.mp hr).1
    user_references := fun r hr => db.user_references r (Table.mem_filter.mp hr).1 }

section Statements

variable {db db' : Database}

@[simp] theorem mem_ongoing_delete {id user : Int64} {r : OngoingRetweet} :
    r ∈ (db.deleteOngoing id user).ongoingRetweets ↔
      r ∈ db.ongoingRetweets ∧ r.key ≠ (id, user) := by
  simp [deleteOngoing]

@[simp] theorem hasKey_tweets_replace {row : TweetRow} {id : Int64} :
    (db.replaceTweet row).tweets.hasKey id = (db.tweets.hasKey id || decide (row.id = id)) :=
  Table.hasKey_replace

/-- The ongoing retweets of a tweet that was not recorded are none, so nothing is lost with it. -/
theorem mem_ongoing_replaceTweet (row : TweetRow) (hnew : db.tweets.hasKey row.id = false)
    {r : OngoingRetweet} : r ∈ (db.replaceTweet row).ongoingRetweets ↔ r ∈ db.ongoingRetweets := by
  have hne : r ∈ db.ongoingRetweets → r.id ≠ row.id := by
    intro hr heq
    rw [← heq, db.tweet_references r hr] at hnew
    cases hnew
  simp only [replaceTweet, Table.mem_filter, decide_eq_true_eq, and_iff_left_iff_imp]
  exact hne

theorem replaceOngoing_eq_some {row : OngoingRetweet} (h : db.replaceOngoing row = some db') :
    db'.tweets = db.tweets ∧ db'.lastTweet = db.lastTweet ∧ db'.twitterTokens = db.twitterTokens ∧
      db'.ongoingRetweets = db.ongoingRetweets.replace row := by
  unfold replaceOngoing at h
  split at h
  · cases h
    exact ⟨rfl, rfl, rfl, rfl⟩
  · cases h

end Statements

/-! ### The last tweet -/

/-- What an update to `id` makes of a stored status id. -/
def raised (id last : Int64) : Int64 := if last < id then id else last

theorem lastStatusId_update {db : Database} {last : Int64} (id : Int64) (h : db.lastStatusId = some last) :
    (db.updateLastTweet id).lastStatusId = some (raised id last) := by
  obtain ⟨r, hr, rfl⟩ := Option.map_eq_some_iff.mp h
  obtain ⟨hmem, hid⟩ := Table.find?_eq_some_iff.mp hr
  have hfind : (db.updateLastTweet id).lastTweet.find? 0 =
      some (if r.statusId < id then { r with statusId := id } else r) := by
    refine Table.find?_eq_some_iff.mpr ⟨List.mem_map.mpr ⟨r, hmem, rfl⟩, ?_⟩
    split
    · exact hid
    · exact hid
  unfold lastStatusId raised
  rw [hfind]
  split
  · rfl
  · rfl

theorem lastStatusId_congr {db db' : Database} (h : db'.lastTweet = db.lastTweet) :
    db'.lastStatusId = db.lastStatusId := by
  unfold lastStatusId
  rw [h]

/-- A status id that is stored survives a start of the program; without one it is 0. -/
theorem lastStatusId_initLastTweet (db : Database) :
    db.initLastTweet.lastStatusId = some (db.lastStatusId.getD 0) := by
  unfold initLastTweet
  split
  · rename_i t hinsert
    have hnone : db.lastStatusId = none := by
      unfold lastStatusId
      rw [Table.find?_eq_none_iff.mpr (Table.not_hasKey_of_insert hinsert)]
      rfl
    have hfind : t.find? 0 = some ⟨0, 0⟩ :=
      Table.find?_eq_some_iff.mpr ⟨(Table.mem_of_insert hinsert).mpr (Or.inr rfl), rfl⟩
    rw [hnone]
    unfold lastStatusId
    rw [hfind]
    rfl
  · rename_i hinsert
    obtain ⟨r, hr, hid⟩ := Table.hasKey_iff.mp (Table.insert_eq_none_iff.mp hinsert)
    have hfind : db.lastTweet.find? 0 = some r := Table.find?_eq_some_iff.mpr ⟨hr, hid⟩
    unfold lastStatusId
    rw [hfind]
    rfl

end Database

end Pipitor.Twitter
