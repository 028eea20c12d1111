import Pipitor.App.Broadcast
import Pipitor.App.Lifecycle

/-!
# The stream and the list

`App::poll_twitter` looks at the author of a tweet and at whom it replies to before it hands the tweet to the
sender; what the list delivers is handed over as it is. `stream_agrees_iff` says for which tweets this makes a
difference.
-/

namespace Pipitor.App

open Resumption Relational Twitter

/-- What the loop of `App::poll_twitter` does with a tweet. -/
def sendStreamed (core : Core) (faults : Faults) (tweet : Tweet) : Prog Board Failure Unit :=
  if willProcess core.manifest tweet then sendTweet core faults tweet else pure ()

/-- The same `Retweet` requests are under way and the same tweets are recorded. -/
structure Alike (b b' : Board) : Prop where
  inFlight : b.inFlight = b'.inFlight
  tweets : b.db.tweets = b'.db.tweets

/-- Every statement succeeds. -/
def Faults.none : Faults := fun _ => false

/-! ### A tweet in its batch -/

theorem sendEach_append (core : Core) (faults : ℕ → Faults) (before : List Tweet) (tweet : Tweet)
    (after : List Tweet) (i : ℕ) :
    sendEach core faults i (before ++ tweet :: after) = (do
      (before.zipIdx i).forM fun p => sendTweet_ core (faults p.2) p.1 false
      sendTweet_ core (faults (i + before.length)) tweet after.isEmpty
      sendEach core faults (i + before.length + 1) after) := by
  induction before generalizing i with
  | nil => rfl
  | cons first before ih =>
    have hempty : (before ++ tweet :: after).isEmpty = false := by cases before <;> rfl
    rw [List.cons_append, sendEach, hempty, ih, List.zipIdx_cons, List.length_cons,
      show i + (before.length + 1) = i + 1 + before.length from by omega]
    exact (Prog.bind_assoc _ _ _).symm

/-- In its batch a tweet is processed after the older ones, and it updates `last_tweet` if it is the newest. -/
theorem sendTweets_append (core : Core) (faults : ℕ → Faults) (newer : List Tweet) (tweet : Tweet)
    (older : List Tweet) :
    sendTweets core faults (newer ++ tweet :: older) = (do
      older.reverse.zipIdx.forM fun p => sendTweet_ core (faults p.2) p.1 false
      sendTweet_ core (faults older.length) tweet newer.isEmpty
      sendEach core faults (older.length + 1) newer.reverse) := by
  have hrev : (newer ++ tweet :: older).reverse = older.reverse ++ tweet :: newer.reverse := by simp
  unfold sendTweets
  rw [hrev, sendEach_append, List.length_reverse, List.isEmpty_reverse, Nat.zero_add]

/-! ### The last tweet -/

/-- The board with another content of `last_tweet`. -/
def Board.withLast (last : Table LastTweet.id) (b : Board) : Board :=
  { b with db := { b.db with lastTweet := last } }

theorem retweetOutboxes_withLast (core : Core) (faults : Faults) (tweet : Int64) (outboxes : List Outbox)
    (db : Database) (last : Table LastTweet.id) :
    retweetOutboxes core faults tweet outboxes { db with lastTweet := last } =
      (retweetOutboxes core faults tweet outboxes db).map fun r => (r.1, { r.2 with lastTweet := last }) := by
  induction outboxes generalizing db with
  | nil => rfl
  | cons outbox outboxes ih =>
    obtain ⟨user⟩ := outbox
    have hreplace : ({ db with lastTweet := last } : Database).replaceOngoing ⟨tweet, user⟩ =
        (db.replaceOngoing ⟨tweet, user⟩).map fun db => { db with lastTweet := last } := by
      unfold Database.replaceOngoing
      dsimp only
      split
      · rfl
      · rfl
    unfold retweetOutboxes
    rw [hreplace]
    split
    · rfl
    cases db.replaceOngoing ⟨tweet, user⟩ with
    | none => rfl
    | some db =>
      dsimp only [Option.map_some]
      split
      · rfl
      rw [ih]
      cases retweetOutboxes core faults tweet outboxes db with
      | ok r => rfl
      | error e => rfl

theorem retweetTransaction_withLast (core : Core) (faults : Faults) (tweet : Tweet) (db : Database)
    (last : Table LastTweet.id) :
    retweetTransaction core faults tweet { db with lastTweet := last } =
      (retweetTransaction core faults tweet db).map fun r => (r.1, { r.2 with lastTweet := last }) := by
  unfold retweetTransaction
  rw [show ({ db with lastTweet := last } : Database).replaceTweet (.ofTweet tweet) =
    { db.replaceTweet (.ofTweet tweet) with lastTweet := last } from rfl, retweetOutboxes_withLast]
  split
  · rfl
  cases retweetOutboxes core faults tweet.id (core.router.routeTweet tweet)
      (db.replaceTweet (.ofTweet tweet)) with
  | ok r =>
    dsimp only [Except.map]
    split
    · rfl
    · rfl
  | error e => rfl

section Ignores

variable (core : Core) (faults : Faults) (tweet : Tweet) (last : Table LastTweet.id)

theorem ignores_check (statement : Statement) (e : AppError) :
    Prog.Ignores (Board.withLast last) (check faults statement e) := by
  unfold check
  split
  · exact Prog.ignores_abort
  · exact Prog.ignores_done

theorem ignores_retweet : Prog.Ignores (Board.withLast last) (retweet core faults tweet) := by
  refine (ignores_check faults last _ _).bind fun _ => Prog.ignores_attempt fun b => ?_
  rw [show (b.withLast last).db = { b.db with lastTweet := last } from rfl, retweetTransaction_withLast]
  cases retweetTransaction core faults tweet b.db with
  | ok r => rfl
  | error e => rfl

theorem ignores_spawnRetweets (id : Int64) (users : List Int64) :
    Prog.Ignores (Board.withLast last) (spawnRetweets id users) := Prog.ignores_modify fun _ => rfl

theorem ignores_sendUnrecorded : Prog.Ignores (Board.withLast last) (sendUnrecorded core faults tweet) := by
  unfold sendUnrecorded
  split
  · exact Prog.ignores_done
  split
  · exact (ignores_retweet core faults tweet last).bind fun users => ignores_spawnRetweets last _ users
  split
  · exact Prog.ignores_done
  refine (ignores_check faults last _ _).bind fun _ => ?_
  refine Prog.Ignores.bind (f := Board.withLast last) (Prog.ignores_read fun _ => rfl) fun duplicate => ?_
  refine (ignores_retweet core faults tweet last).bind fun users => ?_
  split
  · exact Prog.ignores_abort
  · exact ignores_spawnRetweets last _ users

end Ignores

section Processing

variable {core : Core} {tweet : Tweet} {b : Board}

theorem run_sendTweet_faults (core : Core) (faults : Faults) (tweet : Tweet) (last : Bool) (b : Board) :
    (sendTweet_ core faults tweet last).run b =
      let log := b.log ++ [.received tweet.id]
      if faults .connect then (.error (.error noConnection), { b with log })
      else if faults .find then (.error (.error .database), { b with log })
      else if b.db.tweets.hasKey tweet.id then (.ok (), { b with log })
      else if last && faults .updateLastTweet then (.error (.error .database), { b with log })
      else (sendUnrecorded core faults tweet).run
        { b with db := if last then b.db.updateLastTweet tweet.id else b.db, log } := by
  unfold sendTweet_ check
  cases faults .connect with
  | true => rfl
  | false =>
  cases hfind : faults .find with
  | true => rfl
  | false =>
  show (if b.db.tweets.hasKey tweet.id then pure () else
    raiseLastTweet faults tweet.id last >>= fun _ => sendUnrecorded core faults tweet :
      Prog Board Failure Unit).run { b with log := b.log ++ [.received tweet.id] } = _
  dsimp only
  cases b.db.tweets.hasKey tweet.id with
  | true => rfl
  | false =>
  cases last with
  | false => rfl
  | true =>
    unfold raiseLastTweet check
    cases faults .updateLastTweet with
    | true => rfl
    | false => rfl

theorem run_sendTweet_ (last : Bool) : (sendTweet_ core Faults.none tweet last).run b =
    if b.db.tweets.hasKey tweet.id then (.ok (), { b with log := b.log ++ [.received tweet.id] })
    else (sendUnrecorded core Faults.none tweet).run { b with
      db := if last then b.db.updateLastTweet tweet.id else b.db
      log := b.log ++ [.received tweet.id] } := by
  have hrun := run_sendTweet_faults core Faults.none tweet last b
  simp only [Faults.none, Bool.and_false, Bool.false_eq_true, if_false] at hrun
  exact hrun

/-- Whether a tweet updates `last_tweet` makes no difference to what is done about it. -/
theorem sendTweet_alike (last : Bool) : Alike ((sendTweet core Faults.none tweet).run b).2
    ((sendTweet_ core Faults.none tweet last).run b).2 := by
  unfold sendTweet
  cases last with
  | true => exact ⟨rfl, rfl⟩
  | false =>
    rw [run_sendTweet_, run_sendTweet_]
    split
    · exact ⟨rfl, rfl⟩
    · have hrun := ignores_sendUnrecorded core Faults.none tweet (b.db.updateLastTweet tweet.id).lastTweet
        { b with log := b.log ++ [.received tweet.id] }
      dsimp only [Board.withLast] at hrun
      exact ⟨congrArg (fun r => r.2.inFlight) hrun, congrArg (fun r => r.2.db.tweets) hrun⟩

/-- The user's tokens are at hand, and there is the row that `ongoing_retweets` refers to. -/
def Core.Authorizes (core : Core) (db : Database) (user : Int64) : Prop :=
  db.twitterTokens.hasKey user = true ∧ (core.twitterToken (some user)).isSome

/-- The sender records the tweet, and retweets it as far as it is routed. -/
structure Core.Accepts (core : Core) (tweet : Tweet) (db : Database) : Prop where
  new : db.tweets.hasKey tweet.id = false
  original : tweet.retweetedStatus = none
  routed : core.manifest.skipDuplicate = true → core.router.routeTweet tweet ≠ []
  authorized : ∀ user, .twitter user ∈ core.router.routeTweet tweet → core.Authorizes db user

theorem Core.authorizes_congr {db db' : Database} (htokens : db'.twitterTokens = db.twitterTokens)
    {user : Int64} : core.Authorizes db' user ↔ core.Authorizes db user := by
  rw [Core.Authorizes, htokens, Core.Authorizes]

theorem Core.accepts_congr {db db' : Database} (htweets : db'.tweets = db.tweets)
    (htokens : db'.twitterTokens = db.twitterTokens) : core.Accepts tweet db' ↔ core.Accepts tweet db := by
  have hauthorizes : ∀ user, core.Authorizes db' user ↔ core.Authorizes db user :=
    fun _ => Core.authorizes_congr htokens
  constructor
  · intro h
    exact ⟨htweets ▸ h.new, h.original, h.routed, fun user hu => (hauthorizes user).mp (h.authorized user hu)⟩
  · intro h
    exact ⟨htweets ▸ h.new, h.original, h.routed, fun user hu => (hauthorizes user).mpr (h.authorized user hu)⟩

theorem exists_replaceOngoing_iff {db : Database} {row : OngoingRetweet}
    (hrecorded : db.tweets.hasKey row.id = true) :
    (∃ db', db.replaceOngoing row = some db') ↔ db.twitterTokens.hasKey row.user = true := by
  unfold Database.replaceOngoing
  split
  · rename_i h
    simp [h.2]
  · rename_i h
    simp only [hrecorded, true_and] at h
    simp [h]

theorem retweetOutboxes_iff {id : Int64} {outboxes : List Outbox} {db : Database}
    (hrecorded : db.tweets.hasKey id = true) :
    (∃ r, retweetOutboxes core Faults.none id outboxes db = .ok r) ↔
      ∀ user, .twitter user ∈ outboxes → core.Authorizes db user := by
  induction outboxes generalizing db with
  | nil => simp [retweetOutboxes]
  | cons outbox outboxes ih =>
    obtain ⟨user⟩ := outbox
    have hforall : (∀ user', .twitter user' ∈ Outbox.twitter user :: outboxes → core.Authorizes db user') ↔
        core.Authorizes db user ∧ ∀ user', .twitter user' ∈ outboxes → core.Authorizes db user' := by
      simp
    have hreplace : (∃ db', db.replaceOngoing ⟨id, user⟩ = some db') ↔ db.twitterTokens.hasKey user = true :=
      exists_replaceOngoing_iff hrecorded
    rw [hforall, retweetOutboxes, Faults.none, if_neg Bool.false_ne_true]
    cases hdb : db.replaceOngoing ⟨id, user⟩ with
    | none =>
      rw [hdb] at hreplace
      simp [Core.Authorizes, ← hreplace]
    | some db' =>
      obtain ⟨htweets, -, htokens, -⟩ := Database.replaceOngoing_eq_some hdb
      have hrow : db.twitterTokens.hasKey user = true := hreplace.mp ⟨db', hdb⟩
      have hrest : (∃ r, retweetOutboxes core Faults.none id outboxes db' = .ok r) ↔
          ∀ user, .twitter user ∈ outboxes → core.Authorizes db' user := ih (by rwa [htweets])
      simp only [Core.authorizes_congr htokens] at hrest
      rw [← hrest, Core.Authorizes, hrow]
      cases core.twitterToken (some user) with
      | none => simp
      | some token =>
        dsimp only
        cases retweetOutboxes core Faults.none id outboxes db' with
        | ok r => simp
        | error e => simp

theorem retweetTransaction_iff {db : Database} :
    (∃ r, retweetTransaction core Faults.none tweet db = .ok r) ↔
      ∀ user, .twitter user ∈ core.router.routeTweet tweet → core.Authorizes db user := by
  have hrecorded : (db.replaceTweet (.ofTweet tweet)).tweets.hasKey tweet.id = true := by
    rw [Database.hasKey_tweets_replace]
    simp [TweetRow.ofTweet]
  have houtboxes : (∃ r, retweetOutboxes core Faults.none tweet.id (core.router.routeTweet tweet)
      (db.replaceTweet (.ofTweet tweet)) = .ok r) ↔ _ := retweetOutboxes_iff hrecorded
  unfold retweetTransaction
  rw [if_neg (show ¬ (Faults.none .begin || Faults.none .replaceTweet) = true from Bool.false_ne_true)]
  refine Iff.trans ?_ houtboxes
  cases retweetOutboxes core Faults.none tweet.id (core.router.routeTweet tweet)
      (db.replaceTweet (.ofTweet tweet)) with
  | ok r => simp [Faults.none]
  | error e => simp

theorem sat_sendUnrecorded_accepted (h : core.Accepts tweet b.db) :
    Prog.Sat (sendUnrecorded core Faults.none tweet) b (fun _ b' => b'.db.tweets.hasKey tweet.id = true)
      fun _ b' => b'.db.tweets.hasKey tweet.id = true := by
  obtain ⟨⟨users, db⟩, htransaction⟩ := retweetTransaction_iff.mpr h.authorized
  have hrecorded : db.tweets.hasKey tweet.id = true := by
    rw [(retweetTransaction_ok htransaction).tweets]
    simp
  have hretweet : ∀ {E : Failure → Board → Prop}, Prog.Sat (retweet core Faults.none tweet) b
      (fun _ b' => b'.db.tweets.hasKey tweet.id = true) E := by
    refine Prog.sat_bind (R := fun _ b' => b = b') rfl ?_
    rintro _ _ rfl
    refine Prog.sat_attempt ?_ ?_
    · intro users' b' hrun
      rw [htransaction] at hrun
      cases hrun
      exact hrecorded
    · intro e hrun
      rw [htransaction] at hrun
      cases hrun
  unfold sendUnrecorded
  rw [h.original]
  split
  · rename_i hretweeted
    cases hretweeted
  split
  · exact Prog.sat_bind hretweet fun users b' hb' => Prog.sat_modify.mpr hb'
  · rename_i hskip
    have hroutes := h.routed (by simpa using hskip)
    rw [if_neg (by simpa using hroutes)]
    refine Prog.sat_bind (R := fun _ b' => b = b') rfl ?_
    rintro _ _ rfl
    refine Prog.sat_bind (R := fun _ b' => b = b') rfl ?_
    rintro duplicate _ rfl
    refine Prog.sat_bind hretweet fun users b' hb' => ?_
    split
    · exact hb'
    · exact Prog.sat_modify.mpr hb'

theorem sat_sendUnrecorded_refused (hnew : b.db.tweets.hasKey tweet.id = false)
    (h : ¬ core.Accepts tweet b.db) :
    Prog.Sat (sendUnrecorded core Faults.none tweet) b (fun _ b' => Alike b b') fun _ b' => Alike b b' := by
  have hrefl : Alike b b := ⟨rfl, rfl⟩
  unfold sendUnrecorded
  split
  · exact hrefl
  rename_i horiginal
  have hretweet : (core.manifest.skipDuplicate = true → core.router.routeTweet tweet ≠ []) →
      ∀ {Q : List Int64 → Board → Prop},
        Prog.Sat (retweet core Faults.none tweet) b Q fun _ b' => Alike b b' := by
    intro hrouted Q
    refine Prog.sat_bind (R := fun _ b' => b = b') rfl ?_
    rintro _ _ rfl
    refine Prog.sat_attempt ?_ fun _ _ => hrefl
    intro users b' hrun
    refine absurd ⟨hnew, by simpa using horiginal, hrouted, ?_⟩ h
    refine retweetTransaction_iff.mp ?_
    cases htransaction : retweetTransaction core Faults.none tweet b.db with
    | ok r => exact ⟨r, rfl⟩
    | error e =>
      rw [htransaction] at hrun
      cases hrun
  split
  · rename_i hskip
    refine Prog.sat_bind (R := fun _ _ => False) (hretweet fun hskip' => ?_) fun _ _ hfalse => hfalse.elim
    simp [hskip'] at hskip
  split
  · exact hrefl
  · rename_i hroutes
    refine Prog.sat_bind (R := fun _ b' => b = b') rfl ?_
    rintro _ _ rfl
    refine Prog.sat_bind (R := fun _ b' => b = b') rfl ?_
    rintro duplicate _ rfl
    exact Prog.sat_bind (R := fun _ _ => False) (hretweet fun _ => by simpa using hroutes)
      fun _ _ hfalse => hfalse.elim

/-- Processing a tweet leaves a trace exactly if it is accepted. -/
theorem alike_sendTweet_iff (last : Bool) :
    Alike b ((sendTweet_ core Faults.none tweet last).run b).2 ↔ ¬ core.Accepts tweet b.db := by
  let b' : Board := { b with
    db := if last then b.db.updateLastTweet tweet.id else b.db
    log := b.log ++ [.received tweet.id] }
  have htweets : b'.db.tweets = b.db.tweets := by cases last <;> rfl
  have htokens : b'.db.twitterTokens = b.db.twitterTokens := by cases last <;> rfl
  have haccepts : core.Accepts tweet b'.db ↔ core.Accepts tweet b.db := Core.accepts_congr htweets htokens
  rw [run_sendTweet_]
  cases hnew : b.db.tweets.hasKey tweet.id with
  | true =>
    rw [if_pos rfl]
    refine iff_of_true ⟨rfl, rfl⟩ fun h => ?_
    rw [h.new] at hnew
    cases hnew
  | false =>
    rw [if_neg Bool.false_ne_true]
    constructor
    · intro halike h
      have hrecorded := (sat_sendUnrecorded_accepted (haccepts.mpr h)).run
      rw [← halike.tweets, hnew] at hrecorded
      cases hrecorded
    · intro h
      have halike := (sat_sendUnrecorded_refused (htweets ▸ hnew) fun h' => h (haccepts.mp h')).run
      exact ⟨halike.inFlight, htweets.symm.trans halike.tweets⟩

end Processing

/-- **The stream and the list agree** on a tweet of a topic, whatever has been done before it, exactly if it
replies to nobody or to the user of a topic, or would not be recorded anyway. In the list's batch it may be the
newest tweet or not. -/
theorem stream_agrees_iff (core : Core) (tweet : Tweet) (b : Board) (last : Bool)
    (hauthor : core.manifest.hasTopic (.twitter tweet.user) = true) :
    Alike ((sendStreamed core Faults.none tweet).run b).2 ((sendTweet_ core Faults.none tweet last).run b).2 ↔
      (∀ user, tweet.inReplyToUserId = some user → core.manifest.hasTopic (.twitter user) = true) ∨
        ¬ core.Accepts tweet b.db := by
  have hprocess : willProcess core.manifest tweet = true ↔
      ∀ user, tweet.inReplyToUserId = some user → core.manifest.hasTopic (.twitter user) = true := by
    unfold willProcess
    rw [hauthor, Bool.true_and]
    cases tweet.inReplyToUserId with
    | none => simp
    | some user => simp
  rw [← hprocess]
  unfold sendStreamed
  cases willProcess core.manifest tweet with
  | true => exact iff_of_true (sendTweet_alike last) (.inl rfl)
  | false =>
    rw [if_neg Bool.false_ne_true, ← alike_sendTweet_iff last]
    simp

/-- Here nobody is replied to. -/
theorem stream_agrees_sampleTweet :
    (sampleManifest none [.twitter 10]).hasTopic (.twitter sampleTweet.user) = true ∧
      Alike ((sendStreamed (sampleCore (sampleManifest none [.twitter 10])) Faults.none sampleTweet).run
          ⟨sampleDatabase, [], []⟩).2
        ((sendTweet_ (sampleCore (sampleManifest none [.twitter 10])) Faults.none sampleTweet true).run
          ⟨sampleDatabase, [], []⟩).2 := by
  have hauthor : (sampleManifest none [.twitter 10]).hasTopic (.twitter sampleTweet.user) = true := by decide
  exact ⟨hauthor, (stream_agrees_iff (sampleCore (sampleManifest none [.twitter 10])) sampleTweet _ true
    hauthor).mpr (.inl fun user huser => nomatch huser)⟩

/-- A reply to user 11, who is of no topic, is retweeted where it comes from the list, and not where it comes
from the stream. -/
theorem stream_differs_reply :
    let core := sampleCore (sampleManifest none [.twitter 10])
    let reply : Tweet := { sampleTweet with inReplyToStatusId := some 4, inReplyToUserId := some 11 }
    core.manifest.hasTopic (.twitter reply.user) = true ∧
      ((sendStreamed core Faults.none reply).run ⟨sampleDatabase, [], []⟩).2.inFlight = [] ∧
      ((sendTweets core (fun _ => Faults.none) [reply]).run ⟨sampleDatabase, [], []⟩).2.inFlight = [(5, 1)] ∧
      ((sendStreamed core Faults.none reply).run ⟨sampleDatabase, [], []⟩).2.db.tweets.rows = [] ∧
      ((sendTweets core (fun _ => Faults.none) [reply]).run ⟨sampleDatabase, [], []⟩).2.db.tweets.rows =
        [.ofTweet reply] := by
  decide

end Pipitor.App
