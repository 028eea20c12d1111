import Pipitor.App.Catchup
import Pipitor.App.Duplicates
import Pipitor.App.Sources

/-!
# The last tweet and the tweets that are handled

`send_tweets` goes through a batch from its oldest tweet to its newest, whose id becomes `last_tweet`; the list
is asked from there on after a restart. `send_tweet_` updates `last_tweet` before it looks for a duplicate and
before the transaction of `retweet`, so that a failure of the newest tweet comes after the update.
`redelivers_iff` says for which batches, tables and failures a tweet is lost in this way.
-/

namespace Pipitor.App

open Resumption Relational Twitter

/-- The tweet is ignored on purpose: a retweet, or with `skip_duplicate` one that is routed nowhere. -/
def Core.Ignores (core : Core) (tweet : Tweet) : Prop :=
  tweet.retweetedStatus.isSome = true ∨ core.manifest.skipDuplicate = true ∧ core.router.routeTweet tweet = []

/-- Nothing more is to be done about the tweet. -/
def Handled (core : Core) (db : Database) (tweet : Tweet) : Prop :=
  db.tweets.hasKey tweet.id = true ∨ core.Ignores tweet

/-- If `send_tweets` returns an error, the tweets of the batch from the old `last_tweet` to the new one are
handled, and the next request brings the others again. -/
def Redelivers (core : Core) (faults : ℕ → Faults) (tweets : List Tweet) (b : Board) : Prop :=
  ∀ e b', (sendTweets core faults tweets).run b = (.error (.error e), b') →
    ∀ last last', b.db.lastStatusId = some last → b'.db.lastStatusId = some last' →
      ∀ tweet ∈ tweets, last < tweet.id → tweet.id ≤ last' → Handled core b'.db tweet

/-! ### When the transaction of a retweet fails -/

section Transaction

variable (core : Core) (faults : Faults) (db : Database)

/-- The row of the user can be written, and the user's token is at hand. -/
structure Serves (user : Int64) : Prop where
  fault : faults (.replaceOngoing user) = false
  references : db.twitterTokens.hasKey user = true
  token : (core.twitterToken (some user)).isSome = true

/-- The loop over the outboxes comes to a user whose row cannot be written. -/
def Refuses (outboxes : List Outbox) : Prop :=
  ∃ before user after, outboxes = before ++ .twitter user :: after ∧
    (∀ u, .twitter u ∈ before → Serves core faults db u) ∧
      (faults (.replaceOngoing user) = true ∨ db.twitterTokens.hasKey user = false)

variable {core faults db}

theorem refuses_cons {user : Int64} {outboxes : List Outbox} :
    Refuses core faults db (.twitter user :: outboxes) ↔
      (faults (.replaceOngoing user) = true ∨ db.twitterTokens.hasKey user = false) ∨
        Serves core faults db user ∧ Refuses core faults db outboxes := by
  constructor
  · rintro ⟨before, u, after, heq, hserves, hrefuses⟩
    cases before with
    | nil =>
      obtain ⟨⟨⟩, rfl⟩ := List.cons.inj heq
      exact .inl hrefuses
    | cons first before =>
      obtain ⟨rfl, rfl⟩ := List.cons.inj heq
      obtain ⟨hfirst, hbefore⟩ : Serves core faults db user ∧ _ :=
        ⟨hserves user (by simp), fun u hu => hserves u (List.mem_cons_of_mem _ hu)⟩
      exact .inr ⟨hfirst, before, u, after, rfl, hbefore, hrefuses⟩
  · rintro (hrefuses | ⟨hfirst, before, u, after, rfl, hserves, hrefuses⟩)
    · exact ⟨[], user, outboxes, rfl, by simp, hrefuses⟩
    · refine ⟨.twitter user :: before, u, after, rfl, fun v hv => ?_, hrefuses⟩
      rcases List.mem_cons.mp hv with heq | hv
      · cases heq
        exact hfirst
      · exact hserves v hv

theorem Serves.congr {db' : Database} (h : db'.twitterTokens = db.twitterTokens) {user : Int64} :
    Serves core faults db' user ↔ Serves core faults db user :=
  ⟨fun hs => ⟨hs.fault, h ▸ hs.references, hs.token⟩, fun hs => ⟨hs.fault, h ▸ hs.references, hs.token⟩⟩

theorem Refuses.congr {db' : Database} (h : db'.twitterTokens = db.twitterTokens) {outboxes : List Outbox} :
    Refuses core faults db' outboxes ↔ Refuses core faults db outboxes := by
  unfold Refuses
  simp only [Serves.congr h, h]

theorem retweetOutboxes_cases (core : Core) (faults : Faults) {tweet : Int64} (outboxes : List Outbox) {db : Database}
    (hkey : db.tweets.hasKey tweet = true) :
    ((∀ user, .twitter user ∈ outboxes → Serves core faults db user) ∧
        ¬ Refuses core faults db outboxes ∧
        ∃ users db', retweetOutboxes core faults tweet outboxes db = .ok (users, db') ∧
          db'.twitterTokens = db.twitterTokens) ∨
      ((¬ ∀ user, .twitter user ∈ outboxes → Serves core faults db user) ∧
        Refuses core faults db outboxes ∧
        retweetOutboxes core faults tweet outboxes db = .error (.error .database)) ∨
      ((¬ ∀ user, .twitter user ∈ outboxes → Serves core faults db user) ∧
        ¬ Refuses core faults db outboxes ∧
        retweetOutboxes core faults tweet outboxes db = .error .panic) := by
  induction outboxes generalizing db with
  | nil =>
    refine .inl ⟨by simp, ?_, [], db, rfl, rfl⟩
    rintro ⟨before, user, after, heq, -⟩
    simp at heq
  | cons outbox outboxes ih =>
    obtain ⟨user⟩ := outbox
    rw [refuses_cons]
    unfold retweetOutboxes
    by_cases hfault : faults (.replaceOngoing user) = true
    · refine .inr (.inl ⟨fun h => ?_, .inl (.inl hfault), if_pos hfault⟩)
      have := (h user (by simp)).fault
      simp [hfault] at this
    rw [if_neg hfault]
    have hfault : faults (.replaceOngoing user) = false := by simpa using hfault
    by_cases hreferences : db.twitterTokens.hasKey user = true
    · obtain ⟨db₁, hrep⟩ : ∃ db₁, db.replaceOngoing ⟨tweet, user⟩ = some db₁ := by
        unfold Database.replaceOngoing
        rw [dif_pos ⟨hkey, hreferences⟩]
        exact ⟨_, rfl⟩
      obtain ⟨htweets, -, htokens, -⟩ := Database.replaceOngoing_eq_some hrep
      simp only [hrep]
      cases htoken : core.twitterToken (some user) with
      | none =>
        refine .inr (.inr ⟨fun h => ?_, ?_, rfl⟩)
        · have := (h user (by simp)).token
          simp [htoken] at this
        · rintro ((h | h) | ⟨hserves, -⟩)
          · simp [hfault] at h
          · simp [hreferences] at h
          · have := hserves.token
            simp [htoken] at this
      | some token =>
        have hserves : Serves core faults db user := ⟨hfault, hreferences, by simp [htoken]⟩
        have hno : ¬ (faults (.replaceOngoing user) = true ∨ db.twitterTokens.hasKey user = false) := by
          simp [hfault, hreferences]
        have hall : (∀ u, .twitter u ∈ .twitter user :: outboxes → Serves core faults db u) ↔
            ∀ u, .twitter u ∈ outboxes → Serves core faults db u := by
          constructor
          · exact fun h u hu => h u (List.mem_cons_of_mem _ hu)
          · intro h u hu
            rcases List.mem_cons.mp hu with heq | hu
            · cases heq
              exact hserves
            · exact h u hu
        have hrest := @ih db₁ (by rw [htweets]; exact hkey)
        simp only [Serves.congr htokens, Refuses.congr htokens] at hrest
        simp only [hall, hno, hserves, true_and, false_or]
        rcases hrest with ⟨hall, hnot, users, db', hrun, hsame⟩ | ⟨hall, hrefuses, hrun⟩ | ⟨hall, hnot, hrun⟩
        · rw [hrun]
          exact .inl ⟨hall, hnot, user :: users, db', rfl, hsame.trans htokens⟩
        · rw [hrun]
          exact .inr (.inl ⟨hall, hrefuses, rfl⟩)
        · rw [hrun]
          exact .inr (.inr ⟨hall, hnot, rfl⟩)
    · have hnone : db.replaceOngoing ⟨tweet, user⟩ = none := by
        unfold Database.replaceOngoing
        exact dif_neg fun h => hreferences h.2
      simp only [hnone]
      refine .inr (.inl ⟨fun h => ?_, .inl (.inr (by simpa using hreferences)), trivial⟩)
      exact hreferences (h user (by simp)).references


variable (core faults db)

/-- The transaction of `retweet` commits. -/
structure Commits (tweet : Tweet) : Prop where
  begin : faults .begin = false
  replaceTweet : faults .replaceTweet = false
  serves : ∀ user, .twitter user ∈ core.router.routeTweet tweet → Serves core faults db user
  commit : faults .commit = false

/-- The transaction of `retweet` ends with an error. -/
def RollsBack (tweet : Tweet) : Prop :=
  faults .begin = true ∨ faults .replaceTweet = true ∨ Refuses core faults db (core.router.routeTweet tweet) ∨
    (∀ user, .twitter user ∈ core.router.routeTweet tweet → Serves core faults db user) ∧ faults .commit = true

/-- A tweet that is not ignored is recorded. `recurs` says whether one of the same user and text has been. -/
structure Succeeds (tweet : Tweet) (recurs : Prop) : Prop where
  duplicate : core.manifest.skipDuplicate = true → faults .duplicate = false
  connect : faults .connectRetweet = false
  commits : Commits core faults db tweet
  token : core.manifest.skipDuplicate = true → recurs → (core.twitterToken none).isSome = true

/-- One of the statements for a tweet that is not ignored fails. -/
def Fails (tweet : Tweet) : Prop :=
  core.manifest.skipDuplicate = true ∧ faults .duplicate = true ∨ faults .connectRetweet = true ∨
    RollsBack core faults db tweet

variable {core faults db}

theorem retweetTransaction_cases (core : Core) (faults : Faults) (db : Database) (tweet : Tweet) :
    (Commits core faults db tweet ∧ ¬ RollsBack core faults db tweet ∧
        ∃ users db', retweetTransaction core faults tweet db = .ok (users, db') ∧
          db'.twitterTokens = db.twitterTokens) ∨
      (¬ Commits core faults db tweet ∧ RollsBack core faults db tweet ∧
        retweetTransaction core faults tweet db = .error (.error .database)) ∨
      (¬ Commits core faults db tweet ∧ ¬ RollsBack core faults db tweet ∧
        retweetTransaction core faults tweet db = .error .panic) := by
  unfold retweetTransaction
  cases hbegin : faults .begin with
  | true => exact .inr (.inl ⟨fun h => by simp [h.begin] at hbegin, .inl hbegin, rfl⟩)
  | false =>
  cases hreplace : faults .replaceTweet with
  | true => exact .inr (.inl ⟨fun h => by simp [h.replaceTweet] at hreplace, .inr (.inl hreplace), rfl⟩)
  | false =>
  rw [if_neg (by simp)]
  have hkey : (db.replaceTweet (.ofTweet tweet)).tweets.hasKey tweet.id = true := by
    rw [Database.hasKey_tweets_replace]
    simp [TweetRow.ofTweet]
  have hcommits : Commits core faults db tweet ↔
      (∀ user, .twitter user ∈ core.router.routeTweet tweet → Serves core faults db user) ∧
        faults .commit = false :=
    ⟨fun h => ⟨h.serves, h.commit⟩, fun h => ⟨hbegin, hreplace, h.1, h.2⟩⟩
  have hrollsBack : RollsBack core faults db tweet ↔
      Refuses core faults db (core.router.routeTweet tweet) ∨
        (∀ user, .twitter user ∈ core.router.routeTweet tweet → Serves core faults db user) ∧
          faults .commit = true := by
    simp [RollsBack, hbegin, hreplace]
  have hcases := retweetOutboxes_cases core faults (core.router.routeTweet tweet) hkey
  have htokens : (db.replaceTweet (.ofTweet tweet)).twitterTokens = db.twitterTokens := rfl
  simp only [Serves.congr htokens, Refuses.congr htokens] at hcases
  rw [hcommits, hrollsBack]
  rcases hcases with ⟨hall, hnot, users, db', hrun, hsame⟩ | ⟨hall, hrefuses, hrun⟩ | ⟨hall, hnot, hrun⟩
  · rw [hrun]
    cases hcommit : faults .commit with
    | false => exact .inl ⟨⟨hall, rfl⟩, by simp [hnot], users, db', rfl, hsame⟩
    | true => exact .inr (.inl ⟨by simp, .inr ⟨hall, rfl⟩, rfl⟩)
  · rw [hrun]
    exact .inr (.inl ⟨fun h => hall h.1, .inl hrefuses, rfl⟩)
  · rw [hrun]
    exact .inr (.inr ⟨fun h => hall h.1, fun h => h.elim hnot fun h => hall h.1, rfl⟩)

theorem run_retweet_ok {tweet : Tweet} {b : Board} {users : List Int64} {db' : Database}
    (hconnect : faults .connectRetweet = false)
    (h : retweetTransaction core faults tweet b.db = .ok (users, db')) :
    (retweet core faults tweet).run b =
      (.ok users, { b with db := db', log := b.log ++ [.committed tweet.id users] }) := by
  unfold retweet check
  rw [if_neg (by simp [hconnect])]
  apply Prog.run_attempt_ok
  rw [h]

theorem run_retweet_error {tweet : Tweet} {b : Board} {e : Failure} (hconnect : faults .connectRetweet = false)
    (h : retweetTransaction core faults tweet b.db = .error e) :
    (retweet core faults tweet).run b = (.error e, b) := by
  unfold retweet check
  rw [if_neg (by simp [hconnect])]
  apply Prog.run_attempt_error
  rw [h]

theorem run_retweet (core : Core) (faults : Faults) (tweet : Tweet) (b : Board) :
    (faults .connectRetweet = false ∧ Commits core faults b.db tweet ∧ ¬ RollsBack core faults b.db tweet ∧
        ∃ users b', (retweet core faults tweet).run b = (.ok users, b') ∧
          b'.db.tweets = b.db.tweets.replace (.ofTweet tweet) ∧ b'.db.lastTweet = b.db.lastTweet ∧
            b'.db.twitterTokens = b.db.twitterTokens) ∨
      (¬ (faults .connectRetweet = false ∧ Commits core faults b.db tweet) ∧
        (faults .connectRetweet = true ∨ RollsBack core faults b.db tweet) ∧
          ∃ e, (retweet core faults tweet).run b = (.error (.error e), b)) ∨
      (faults .connectRetweet = false ∧ ¬ Commits core faults b.db tweet ∧ ¬ RollsBack core faults b.db tweet ∧
        (retweet core faults tweet).run b = (.error .panic, b)) := by
  cases hconnect : faults .connectRetweet with
  | true =>
    refine .inr (.inl ⟨by simp, .inl rfl, noConnection, ?_⟩)
    unfold retweet check
    rw [if_pos hconnect]
    rfl
  | false =>
    rcases retweetTransaction_cases core faults b.db tweet with
      ⟨hcommits, hnot, users, db', htx, htokens⟩ | ⟨hnot, hrollsBack, htx⟩ | ⟨hnot, hnot', htx⟩
    · exact .inl ⟨rfl, hcommits, hnot, users, _, run_retweet_ok hconnect htx, retweetTransaction_tweets htx,
        retweetTransaction_lastTweet htx, htokens⟩
    · exact .inr (.inl ⟨fun h => hnot h.2, .inr hrollsBack, .database, run_retweet_error hconnect htx⟩)
    · exact .inr (.inr ⟨rfl, hnot, hnot', run_retweet_error hconnect htx⟩)

theorem Commits.congr {db' : Database} (h : db'.twitterTokens = db.twitterTokens) {tweet : Tweet} :
    Commits core faults db' tweet ↔ Commits core faults db tweet := by
  have hserves : ∀ user, Serves core faults db' user ↔ Serves core faults db user := fun _ => Serves.congr h
  constructor
  · exact fun hc => ⟨hc.begin, hc.replaceTweet, fun user hu => (hserves user).mp (hc.serves user hu), hc.commit⟩
  · exact fun hc => ⟨hc.begin, hc.replaceTweet, fun user hu => (hserves user).mpr (hc.serves user hu), hc.commit⟩

theorem Succeeds.congr {db' : Database} (h : db'.twitterTokens = db.twitterTokens) {tweet : Tweet}
    {recurs : Prop} : Succeeds core faults db' tweet recurs ↔ Succeeds core faults db tweet recurs := by
  constructor
  · exact fun hs => ⟨hs.duplicate, hs.connect, (Commits.congr h).mp hs.commits, hs.token⟩
  · exact fun hs => ⟨hs.duplicate, hs.connect, (Commits.congr h).mpr hs.commits, hs.token⟩

theorem Fails.congr {db' : Database} (h : db'.twitterTokens = db.twitterTokens) {tweet : Tweet} :
    Fails core faults db' tweet ↔ Fails core faults db tweet := by
  unfold Fails RollsBack
  simp only [Serves.congr h, Refuses.congr h]

theorem run_sendUnrecorded_ignored {tweet : Tweet} (h : core.Ignores tweet) (b : Board) :
    (sendUnrecorded core faults tweet).run b = (.ok (), b) := by
  unfold sendUnrecorded
  split
  · rfl
  rename_i horiginal
  obtain ⟨hskip, hroutes⟩ := h.resolve_left horiginal
  rw [if_neg (by simp [hskip]), if_pos (by simp [hroutes])]
  rfl

theorem run_sendUnrecorded_cases (faults : Faults) {tweet : Tweet} (hnot : ¬ core.Ignores tweet) (b : Board) {recurs : Prop}
    (hrecurs : (b.db.duplicate tweet.user tweet.text).isSome = true ↔ recurs) :
    (Succeeds core faults b.db tweet recurs ∧ ¬ Fails core faults b.db tweet ∧
        ∃ b', (sendUnrecorded core faults tweet).run b = (.ok (), b') ∧
          b'.db.tweets = b.db.tweets.replace (.ofTweet tweet) ∧ b'.db.lastTweet = b.db.lastTweet ∧
            b'.db.twitterTokens = b.db.twitterTokens) ∨
      (¬ Succeeds core faults b.db tweet recurs ∧ Fails core faults b.db tweet ∧
        ∃ e, (sendUnrecorded core faults tweet).run b = (.error (.error e), b)) ∨
      (¬ Succeeds core faults b.db tweet recurs ∧ ¬ Fails core faults b.db tweet ∧
        ∃ b', (sendUnrecorded core faults tweet).run b = (.error .panic, b')) := by
  have hretweet := run_retweet core faults tweet b
  unfold Core.Ignores at hnot
  unfold sendUnrecorded Fails
  rw [if_neg fun h => hnot (.inl h)]
  cases hskip : core.manifest.skipDuplicate with
  | false =>
    have hsucceeds : Succeeds core faults b.db tweet recurs ↔
        faults .connectRetweet = false ∧ Commits core faults b.db tweet :=
      ⟨fun h => ⟨h.connect, h.commits⟩, fun h => ⟨by simp [hskip], h.1, h.2, by simp [hskip]⟩⟩
    rw [hsucceeds, if_pos (by rfl), Prog.run_bind]
    simp only [reduceCtorEq, false_and, false_or]
    rcases hretweet with ⟨hconnect, hcommits, hno, users, b', hrun, hdb⟩ | ⟨hno, hfails, e, hrun⟩ |
      ⟨hconnect, hno, hno', hrun⟩
    · rw [hrun]
      exact .inl ⟨⟨hconnect, hcommits⟩, by simp [hconnect, hno], _, rfl, hdb⟩
    · rw [hrun]
      exact .inr (.inl ⟨hno, hfails, e, rfl⟩)
    · rw [hrun]
      exact .inr (.inr ⟨fun h => hno h.2, by simp [hconnect, hno'], b, rfl⟩)
  | true =>
    have hroutes : core.router.routeTweet tweet ≠ [] := fun h => hnot (.inr ⟨hskip, h⟩)
    have hsucceeds : Succeeds core faults b.db tweet recurs ↔ faults .duplicate = false ∧
        (faults .connectRetweet = false ∧ Commits core faults b.db tweet) ∧
          (recurs → (core.twitterToken none).isSome = true) :=
      ⟨fun h => ⟨h.duplicate hskip, ⟨h.connect, h.commits⟩, h.token hskip⟩,
        fun h => ⟨fun _ => h.1, h.2.1.1, h.2.1.2, fun _ => h.2.2⟩⟩
    rw [hsucceeds, if_neg (by simp), if_neg (by simpa using hroutes), check]
    cases faults .duplicate with
    | true => exact .inr (.inl ⟨by simp, .inl ⟨rfl, rfl⟩, .database, rfl⟩)
    | false =>
      rw [if_neg Bool.false_ne_true, Prog.pure_eq, Prog.done_bind, Prog.read, Prog.step_bind, Prog.run_step,
        Prog.done_bind, Prog.run_bind]
      simp only [reduceCtorEq, false_or, true_and, id_eq]
      rcases hretweet with ⟨hconnect, hcommits, hno, users, b', hrun, hdb⟩ | ⟨hno, hfails, e, hrun⟩ |
        ⟨hconnect, hno, hno', hrun⟩
      · rw [hrun, ← hrecurs]
        cases hdup : b.db.duplicate tweet.user tweet.text with
        | none => exact .inl ⟨⟨⟨hconnect, hcommits⟩, by simp⟩, by simp [hconnect, hno], _, rfl, hdb⟩
        | some id =>
          cases core.twitterToken none with
          | none => exact .inr (.inr ⟨by simp, by simp [hconnect, hno], b', rfl⟩)
          | some token => exact .inl ⟨⟨⟨hconnect, hcommits⟩, by simp⟩, by simp [hconnect, hno], _, rfl, hdb⟩
      · rw [hrun]
        exact .inr (.inl ⟨fun h => hno h.1, hfails, e, rfl⟩)
      · rw [hrun]
        exact .inr (.inr ⟨fun h => hno h.1.2, by simp [hconnect, hno'], b, rfl⟩)

end Transaction

/-! ### The older tweets of the batch -/

instance (core : Core) (tweet : Tweet) : Decidable (core.Ignores tweet) :=
  inferInstanceAs (Decidable (_ ∨ _ ∧ _))

section Batch

variable (core : Core) (db : Database)

/-- The tweets of a batch that get a row: those that are not ignored and not recorded yet. -/
def recorded : List Tweet → List Tweet
  | [] => []
  | tweet :: older =>
    if core.Ignores tweet ∨ db.tweets.hasKey tweet.id = true ∨ ∃ t ∈ recorded older, t.id = tweet.id then
      recorded older
    else tweet :: recorded older

/-- The tweet is recorded when the older tweets have been processed. -/
def Known (older : List Tweet) (tweet : Tweet) : Prop :=
  db.tweets.hasKey tweet.id = true ∨ ∃ t ∈ recorded core db older, t.id = tweet.id

/-- A tweet of the same user and text is recorded when the older tweets have been processed. -/
def Recurs (older : List Tweet) (tweet : Tweet) : Prop :=
  (∃ r ∈ db.tweets, r.userId = tweet.user ∧ r.text = tweet.text) ∨
    ∃ t ∈ recorded core db older, t.user = tweet.user ∧ t.text = tweet.text

variable (faults : Faults)

/-- A tweet that is not the newest of its batch is processed without an error. -/
structure Passes (older : List Tweet) (tweet : Tweet) : Prop where
  connect : faults .connect = false
  find : faults .find = false
  settled : Known core db older tweet ∨ core.Ignores tweet ∨
    Succeeds core faults db tweet (Recurs core db older tweet)

/-- So are all tweets of a list. -/
def AllPass (faults : ℕ → Faults) : List Tweet → Prop
  | [] => True
  | tweet :: older => AllPass faults older ∧ Passes core db (faults older.length) older tweet

/-- A statement for the newest tweet of a batch fails after the one that updates `last_tweet`. -/
structure FailsLate (older : List Tweet) (newest : Tweet) : Prop where
  connect : faults .connect = false
  find : faults .find = false
  new : ¬ Known core db older newest
  update : faults .updateLastTweet = false
  original : ¬ core.Ignores newest
  fails : Fails core faults db newest

/-- So it does, and the update has an effect. -/
structure Overtakes (faults : ℕ → Faults) (newest : Tweet) (older : List Tweet) : Prop where
  passed : AllPass core db faults older
  late : FailsLate core db (faults older.length) older newest
  above : ∃ last, db.lastStatusId = some last ∧ last < newest.id

variable {core db faults}

/-- The tables when the older tweets have been processed. -/
structure Processed (core : Core) (db : Database) (older : List Tweet) (db' : Database) : Prop where
  last : db'.lastTweet = db.lastTweet
  tokens : db'.twitterTokens = db.twitterTokens
  tweets : ∀ r, r ∈ db'.tweets ↔ r ∈ db.tweets ∨ ∃ t ∈ recorded core db older, .ofTweet t = r

variable {db' : Database} {older : List Tweet} {tweet : Tweet}

theorem Processed.known_iff (h : Processed core db older db') :
    db'.tweets.hasKey tweet.id = true ↔ Known core db older tweet := by
  unfold Known
  rw [Table.hasKey_iff, Table.hasKey_iff]
  constructor
  · rintro ⟨r, hr, hid⟩
    rcases (h.tweets r).mp hr with hr | ⟨t, ht, rfl⟩
    · exact .inl ⟨r, hr, hid⟩
    · exact .inr ⟨t, ht, hid⟩
  · rintro (⟨r, hr, hid⟩ | ⟨t, ht, hid⟩)
    · exact ⟨r, (h.tweets r).mpr (.inl hr), hid⟩
    · exact ⟨.ofTweet t, (h.tweets _).mpr (.inr ⟨t, ht, rfl⟩), hid⟩

theorem duplicate_isSome_iff {user : Int64} {text : String} :
    (db.duplicate user text).isSome = true ↔ ∃ r ∈ db.tweets, r.userId = user ∧ r.text = text := by
  rw [← Option.ne_none_iff_isSome]
  unfold Database.duplicate
  rw [ne_eq, List.max?_eq_none_iff, List.map_eq_nil_iff, List.filter_eq_nil_iff]
  simp [Table.mem_def]

theorem Processed.recurs_iff (h : Processed core db older db') :
    (db'.duplicate tweet.user tweet.text).isSome = true ↔ Recurs core db older tweet := by
  rw [duplicate_isSome_iff]
  constructor
  · rintro ⟨r, hr, hsame⟩
    rcases (h.tweets r).mp hr with hr | ⟨t, ht, rfl⟩
    · exact .inl ⟨r, hr, hsame⟩
    · exact .inr ⟨t, ht, hsame⟩
  · rintro (⟨r, hr, hsame⟩ | ⟨t, ht, hsame⟩)
    · exact ⟨r, (h.tweets r).mpr (.inl hr), hsame⟩
    · exact ⟨.ofTweet t, (h.tweets _).mpr (.inr ⟨t, ht, rfl⟩), hsame⟩

theorem Processed.cons (h : Processed core db older db') (hsettled : Known core db older tweet ∨ core.Ignores tweet) :
    Processed core db (tweet :: older) db' where
  last := h.last
  tokens := h.tokens
  tweets := by
    have hsame : recorded core db (tweet :: older) = recorded core db older := if_pos hsettled.symm
    rw [hsame]
    exact h.tweets

theorem Processed.cons_recorded (h : Processed core db older db') (hnew : ¬ Known core db older tweet)
    (horiginal : ¬ core.Ignores tweet) {db'' : Database}
    (htweets : db''.tweets = db'.tweets.replace (.ofTweet tweet)) (hlast : db''.lastTweet = db'.lastTweet)
    (htokens : db''.twitterTokens = db'.twitterTokens) : Processed core db (tweet :: older) db'' where
  last := hlast.trans h.last
  tokens := htokens.trans h.tokens
  tweets := by
    intro r
    have hkey : db'.tweets.hasKey tweet.id = false := by
      rw [← Bool.not_eq_true, h.known_iff]
      exact hnew
    have hne : r ∈ db'.tweets → r.id ≠ tweet.id := Table.hasKey_eq_false_iff.mp hkey r
    have hcons : recorded core db (tweet :: older) = tweet :: recorded core db older :=
      if_neg fun hor => hor.elim horiginal hnew
    rw [hcons, htweets, Table.mem_replace]
    simp only [List.mem_cons, exists_eq_or_imp]
    constructor
    · rintro (⟨hr, -⟩ | rfl)
      · exact ((h.tweets r).mp hr).imp_right .inr
      · exact .inr (.inl rfl)
    · rintro (hr | rfl | hr)
      · exact .inl ⟨(h.tweets r).mpr (.inl hr), hne ((h.tweets r).mpr (.inl hr))⟩
      · exact .inr rfl
      · exact .inl ⟨(h.tweets r).mpr (.inr hr), hne ((h.tweets r).mpr (.inr hr))⟩

end Batch

/-! ### The processing of the batch -/

section Processing

variable {core : Core} {db : Database}

/-- The processing of the older tweets of a batch. -/
def sendOlder (core : Core) (faults : ℕ → Faults) (older : List Tweet) : Prog Board Failure Unit :=
  older.reverse.zipIdx.forM fun p => sendTweet_ core (faults p.2) p.1 false

theorem sendOlder_cons (faults : ℕ → Faults) (tweet : Tweet) (older : List Tweet) :
    sendOlder core faults (tweet :: older) =
      sendOlder core faults older >>= fun _ => sendTweet_ core (faults older.length) tweet false := by
  unfold sendOlder
  rw [List.reverse_cons, List.zipIdx_append, Prog.forM_append, List.length_reverse, Nat.zero_add]
  exact congrArg _ (funext fun _ => Prog.bind_done _)

/-- What the processing of one tweet or of several may end with, besides an error. -/
def Failed (db : Database) (r : Except Failure Unit × Board) : Prop :=
  ∃ e b', r = (.error e, b') ∧ ∀ error, e = .error error → b'.db.lastTweet = db.lastTweet

/-- A tweet that is not the newest is settled, or its processing fails and leaves `last_tweet` alone. -/
theorem run_older_cases (faults : Faults) (tweet : Tweet) {older : List Tweet} {b : Board}
    (h : Processed core db older b.db) :
    (Passes core db faults older tweet ∧ ∃ b', (sendTweet_ core faults tweet false).run b = (.ok (), b') ∧
        Processed core db (tweet :: older) b'.db) ∨
      (¬ Passes core db faults older tweet ∧ Failed db ((sendTweet_ core faults tweet false).run b)) := by
  rw [run_sendTweet_faults]
  dsimp only
  cases hconnect : faults .connect with
  | true => exact .inr ⟨fun hp => by simp [hp.connect] at hconnect, _, _, rfl, fun _ _ => h.last⟩
  | false =>
  cases hfind : faults .find with
  | true => exact .inr ⟨fun hp => by simp [hp.find] at hfind, _, _, rfl, fun _ _ => h.last⟩
  | false =>
  have hpasses : Passes core db faults older tweet ↔ Known core db older tweet ∨ core.Ignores tweet ∨
      Succeeds core faults db tweet (Recurs core db older tweet) :=
    ⟨fun hp => hp.settled, fun hp => ⟨hconnect, hfind, hp⟩⟩
  rw [hpasses, ← h.known_iff]
  cases hkey : b.db.tweets.hasKey tweet.id with
  | true => exact .inl ⟨.inl rfl, _, rfl, h.cons (.inl (h.known_iff.mp hkey))⟩
  | false =>
  have hnew : ¬ Known core db older tweet := by
    rw [← h.known_iff, hkey]
    exact Bool.false_ne_true
  by_cases hignores : core.Ignores tweet
  · refine .inl ⟨.inr (.inl hignores), { b with log := b.log ++ [.received tweet.id] }, ?_, h.cons (.inr hignores)⟩
    exact run_sendUnrecorded_ignored hignores _
  · have hcases := run_sendUnrecorded_cases faults hignores
      { b with log := b.log ++ [.received tweet.id] } h.recurs_iff
    simp only [Succeeds.congr h.tokens, Fails.congr h.tokens] at hcases
    simp only [hignores, reduceCtorEq, false_or]
    rcases hcases with ⟨hsucceeds, -, b', hrun, htweets, hlast, htokens⟩ | ⟨hnot, -, e, hrun⟩ |
      ⟨hnot, -, b', hrun⟩
    · exact .inl ⟨hsucceeds, b', hrun, h.cons_recorded hnew hignores htweets hlast htokens⟩
    · exact .inr ⟨hnot, _, _, hrun, fun _ _ => h.last⟩
    · exact .inr ⟨hnot, _, _, hrun, fun _ heq => nomatch heq⟩

theorem run_sendOlder_cases (faults : ℕ → Faults) (older : List Tweet) (b : Board) :
    (AllPass core b.db faults older ∧ ∃ b', (sendOlder core faults older).run b = (.ok (), b') ∧
        Processed core b.db older b'.db) ∨
      (¬ AllPass core b.db faults older ∧ Failed b.db ((sendOlder core faults older).run b)) := by
  induction older with
  | nil => exact .inl ⟨trivial, b, rfl, rfl, rfl, fun r => by simp [recorded]⟩
  | cons tweet older ih =>
    rw [sendOlder_cons, Prog.run_bind]
    rcases ih with ⟨hpass, b₁, hrun, hprocessed⟩ | ⟨hnot, e, b₁, hrun, hlast⟩
    · rw [hrun]
      dsimp only
      rcases run_older_cases (faults older.length) tweet hprocessed with
        ⟨hpasses, b₂, hrun₂, hprocessed₂⟩ | ⟨hnot, hfailed⟩
      · exact .inl ⟨⟨hpass, hpasses⟩, b₂, hrun₂, hprocessed₂⟩
      · exact .inr ⟨fun h => hnot h.2, hfailed⟩
    · rw [hrun]
      exact .inr ⟨fun h => hnot h.1, e, b₁, rfl, hlast⟩

/-- The newest tweet fails after the update of `last_tweet`, or an error leaves that alone. -/
theorem run_newest_cases (faults : Faults) (newest : Tweet) {older : List Tweet} {b : Board}
    (h : Processed core db older b.db) :
    (FailsLate core db faults older newest ∧ ∃ e b', (sendTweet_ core faults newest true).run b =
        (.error (.error e), b') ∧ b'.db = b.db.updateLastTweet newest.id) ∨
      (¬ FailsLate core db faults older newest ∧ ∀ e b', (sendTweet_ core faults newest true).run b =
        (.error (.error e), b') → b'.db.lastTweet = db.lastTweet) := by
  rw [run_sendTweet_faults]
  dsimp only
  cases hconnect : faults .connect with
  | true =>
    refine .inr ⟨fun hf => by simp [hf.connect] at hconnect, ?_⟩
    rintro e b' ⟨⟩
    exact h.last
  | false =>
  cases hfind : faults .find with
  | true =>
    refine .inr ⟨fun hf => by simp [hf.find] at hfind, ?_⟩
    rintro e b' ⟨⟩
    exact h.last
  | false =>
  cases hkey : b.db.tweets.hasKey newest.id with
  | true =>
    refine .inr ⟨fun hf => hf.new (h.known_iff.mp hkey), ?_⟩
    rintro e b' ⟨⟩
  | false =>
  have hnew : ¬ Known core db older newest := by
    rw [← h.known_iff, hkey]
    exact Bool.false_ne_true
  cases hupdate : faults .updateLastTweet with
  | true =>
    refine .inr ⟨fun hf => by simp [hf.update] at hupdate, ?_⟩
    rintro e b' ⟨⟩
    exact h.last
  | false =>
  simp only [Bool.false_eq_true, if_false, Bool.and_false, if_true]
  by_cases hignores : core.Ignores newest
  · refine .inr ⟨fun hf => hf.original hignores, fun e b' hrun => ?_⟩
    rw [run_sendUnrecorded_ignored hignores] at hrun
    cases hrun
  have hcases := run_sendUnrecorded_cases faults hignores
    { b with db := b.db.updateLastTweet newest.id, log := b.log ++ [.received newest.id] } Iff.rfl
  have htokens : (b.db.updateLastTweet newest.id).twitterTokens = db.twitterTokens := h.tokens
  simp only [Fails.congr htokens] at hcases
  rcases hcases with ⟨-, hnot, b', hrun, -⟩ | ⟨-, hfails, e, hrun⟩ | ⟨-, hnot, b', hrun⟩
  · refine .inr ⟨fun hf => hnot hf.fails, fun e b'' heq => ?_⟩
    rw [hrun] at heq
    cases heq
  · exact .inl ⟨⟨hconnect, hfind, hnew, hupdate, hignores, hfails⟩, e, _, hrun, rfl⟩
  · refine .inr ⟨fun hf => hnot hf.fails, fun e b'' heq => ?_⟩
    rw [hrun] at heq
    cases heq

theorem sendTweets_cons (faults : ℕ → Faults) (newest : Tweet) (older : List Tweet) :
    sendTweets core faults (newest :: older) =
      sendOlder core faults older >>= fun _ => sendTweet_ core (faults older.length) newest true := by
  have happend := sendTweets_append core faults [] newest older
  rw [List.nil_append] at happend
  rw [happend]
  exact congrArg _ (funext fun _ => Prog.bind_done _)

variable {faults : ℕ → Faults} {newest : Tweet} {older tweets : List Tweet} {b : Board}

theorem redelivers_of_last (h : ∀ e b', (sendTweets core faults tweets).run b = (.error (.error e), b') →
    b'.db.lastStatusId = b.db.lastStatusId) : Redelivers core faults tweets b := by
  intro e b' hrun last last' hlast hlast' tweet _ hlt hle
  rw [h e b' hrun, hlast] at hlast'
  cases hlast'
  exact absurd (Int64.lt_of_lt_of_le hlt hle) (Int64.lt_irrefl)

end Processing

/-- **`last_tweet` passes over no unhandled tweet**, whatever the batch, the tables and the statements that
fail, unless the newest tweet of the batch, whose id it becomes, cannot be recorded after that. -/
theorem redelivers_iff (core : Core) (faults : ℕ → Faults) (tweets : List Tweet) (b : Board) :
    Redelivers core faults tweets b ↔
      ∀ newest older, tweets = newest :: older → ¬ Overtakes core b.db faults newest older := by
  cases tweets with
  | nil => exact iff_of_true (fun e b' hrun => nomatch hrun) (fun _ _ heq => nomatch heq)
  | cons newest older =>
  have hforall : (∀ newest' older', newest :: older = newest' :: older' →
      ¬ Overtakes core b.db faults newest' older') ↔ ¬ Overtakes core b.db faults newest older := by
    constructor
    · exact fun h => h newest older rfl
    · rintro h _ _ ⟨⟩
      exact h
  rw [hforall]
  have hrun := Prog.run_bind (sendOlder core faults older)
    (fun _ => sendTweet_ core (faults older.length) newest true) b
  rw [← sendTweets_cons] at hrun
  rcases run_sendOlder_cases faults older b with ⟨hpass, b₁, hrun₁, hprocessed⟩ | ⟨hnot, e, b₁, hrun₁, hlast⟩
  · rw [hrun₁] at hrun
    dsimp only at hrun
    rcases run_newest_cases (faults older.length) newest hprocessed with
      ⟨hlate, e, b₂, hrun₂, hupdate⟩ | ⟨hnot, hsame⟩
    · rw [hrun₂] at hrun
      have hkey : b₂.db.tweets.hasKey newest.id = false := by
        rw [hupdate, ← Bool.not_eq_true]
        exact fun hkey => hlate.new (hprocessed.known_iff.mp hkey)
      have hraised : ∀ last, b.db.lastStatusId = some last →
          b₂.db.lastStatusId = some (Database.raised newest.id last) := by
        intro last hlast
        rw [hupdate]
        exact Database.lastStatusId_update _ ((Database.lastStatusId_congr hprocessed.last).trans hlast)
      constructor
      · rintro h ⟨-, -, last, hlast, hlt⟩
        have hhandled := h e b₂ hrun last newest.id hlast (by rw [hraised last hlast, Database.raised, if_pos hlt])
          newest List.mem_cons_self hlt Int64.le_rfl
        rcases hhandled with hrecorded | hignores
        · rw [hkey] at hrecorded
          cases hrecorded
        · exact hlate.original hignores
      · intro h
        refine fun error b' heq last last' hlast hlast' => ?_
        have hge : ¬ last < newest.id := fun hlt => h ⟨hpass, hlate, last, hlast, hlt⟩
        rw [hrun] at heq
        cases heq
        rw [hraised last hlast, Database.raised, if_neg hge] at hlast'
        cases hlast'
        exact fun tweet _ hlt hle => absurd (Int64.lt_of_lt_of_le hlt hle) Int64.lt_irrefl
    · refine iff_of_true (redelivers_of_last fun error b' heq => ?_) fun h => hnot h.late
      rw [hrun] at heq
      exact Database.lastStatusId_congr (hsame error b' heq)
  · rw [hrun₁] at hrun
    refine iff_of_true (redelivers_of_last fun error b' heq => ?_) fun h => hnot h.passed
    rw [hrun] at heq
    cases heq
    exact Database.lastStatusId_congr (hlast error rfl)

/-- The transaction cannot be committed. The tweet is not recorded, but `last_tweet` is its id. -/
theorem not_redelivers_commit :
    ¬ Redelivers (sampleCore (sampleManifest none [.twitter 10])) (fun _ statement => statement = .commit)
      [sampleTweet] ⟨sampleDatabase, [], []⟩ := by
  intro h
  have hhandled := h .database _ rfl 0 5 rfl rfl sampleTweet List.mem_cons_self (by decide) (by decide)
  revert hhandled
  unfold Handled Core.Ignores
  decide

end Pipitor.App
