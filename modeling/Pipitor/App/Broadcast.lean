import Pipitor.App.Sender
import Pipitor.Foundation.Runs

/-!
# Retweets over the life of a database

The `App` processes tweets one at a time, whichever source they come from, while `Retweet` requests are
completed; between any two statements of a processing any number of them may be, and the process may
stop at any point and start again. The configuration may be another for each processing.

`Once` is what every run keeps, the record of a tweet being the reason: the retweet transaction
commits once for a tweet. `Accurate` is what the table `ongoing_retweets` should say.
-/

namespace Pipitor.App

open Resumption Relational Twitter

/-! ### Runs -/

/-- What the `App` passes to its `Sender`: a tweet of the stream, or a batch of the list. -/
inductive Job
  | tweet (core : Core) (faults : Faults) (tweet : Tweet)
  | tweets (core : Core) (faults : ℕ → Faults) (tweets : List Tweet)

def Job.prog : Job → Prog Board Failure Unit
  | .tweet core faults t => sendTweet core faults t
  | .tweets core faults ts => sendTweets core faults ts

/-- The board, and what is left of the present processing. -/
structure Sending where
  board : Board
  current : Prog Board Failure Unit

inductive Act
  | start (job : Job)
  | advance
  | complete (tweet user : Int64) (outcome : Outcome)
  | restart

/-- The future of a `Retweet` request is completed. -/
def Board.complete (b : Board) (tweet user : Int64) (outcome : Outcome) : Board where
  db := afterRetweet tweet user outcome b.db
  inFlight := b.inFlight.erase (tweet, user)
  log := b.log ++ [.completed tweet user outcome]

/-- The process has stopped and starts again. -/
def Board.restart (b : Board) : Board where
  db := b.db.initLastTweet
  inFlight := []
  log := b.log

namespace Sending

/-- The `App` right after its start. -/
def fresh (db : Database) : Sending := ⟨⟨db, [], []⟩, .done ()⟩

def step (s : Sending) : Act → Sending
  | .start job =>
    match s.current with
    | .step _ _ => s
    | _ => { s with current := job.prog }
  | .advance =>
    match s.current with
    | .step update next => ⟨update s.board, next s.board⟩
    | _ => s
  | .complete tweet user outcome =>
    if (tweet, user) ∈ s.board.inFlight then
      { s with board := s.board.complete tweet user outcome }
    else s
  | .restart => ⟨s.board.restart, .done ()⟩

/-! What each act does. -/

theorem step_start (s : Sending) (job : Job) :
    s.step (.start job) = s ∨ s.step (.start job) = { s with current := job.prog } := by
  unfold step
  cases s.current with
  | done u => exact Or.inr rfl
  | abort e => exact Or.inr rfl
  | step update next => exact Or.inl rfl

theorem step_advance (s : Sending) :
    s.step .advance = s ∨ ∃ update next, s.current = .step update next ∧
      s.step .advance = ⟨update s.board, next s.board⟩ := by
  unfold step
  cases s.current with
  | done u => exact Or.inl rfl
  | abort e => exact Or.inl rfl
  | step update next => exact Or.inr ⟨update, next, rfl, rfl⟩

theorem step_complete (s : Sending) (tweet user : Int64) (outcome : Outcome) :
    ((tweet, user) ∈ s.board.inFlight ∧ s.step (.complete tweet user outcome) =
        { s with board := s.board.complete tweet user outcome }) ∨
      (tweet, user) ∉ s.board.inFlight ∧ s.step (.complete tweet user outcome) = s := by
  by_cases hin : (tweet, user) ∈ s.board.inFlight
  · exact Or.inl ⟨hin, if_pos hin⟩
  · exact Or.inr ⟨hin, if_neg hin⟩

end Sending

/-! ### What the log says -/

/-- The tweets whose retweet transaction has been committed. -/
def commits (log : List LogEntry) : List Int64 := log.filterMap fun
  | .committed tweet _ => some tweet
  | _ => none

/-- The tweets whose retweets have been spawned. -/
def spawns (log : List LogEntry) : List Int64 := log.filterMap fun
  | .spawned tweet _ => some tweet
  | _ => none

@[simp] theorem commits_append (log log' : List LogEntry) :
    commits (log ++ log') = commits log ++ commits log' := List.filterMap_append

@[simp] theorem spawns_append (log log' : List LogEntry) :
    spawns (log ++ log') = spawns log ++ spawns log' := List.filterMap_append

theorem mem_commits {log : List LogEntry} {tweet : Int64} :
    tweet ∈ commits log ↔ ∃ users, .committed tweet users ∈ log := by
  unfold commits
  rw [List.mem_filterMap]
  constructor
  · rintro ⟨entry, hmem, heq⟩
    cases entry with
    | committed t users =>
      cases heq
      exact ⟨users, hmem⟩
    | received t => cases heq
    | spawned t users => cases heq
    | completed t user outcome => cases heq
  · rintro ⟨users, hmem⟩
    exact ⟨_, hmem, rfl⟩

theorem mem_spawns {log : List LogEntry} {tweet : Int64} :
    tweet ∈ spawns log ↔ ∃ users, .spawned tweet users ∈ log := by
  unfold spawns
  rw [List.mem_filterMap]
  constructor
  · rintro ⟨entry, hmem, heq⟩
    cases entry with
    | spawned t users =>
      cases heq
      exact ⟨users, hmem⟩
    | received t => cases heq
    | committed t users => cases heq
    | completed t user outcome => cases heq
  · rintro ⟨users, hmem⟩
    exact ⟨_, hmem, rfl⟩

/-! ### The invariant -/

/-- A tweet is recorded when its retweet transaction is committed, and this happens once; what is
spawned, under way or completed has been committed. -/
structure Once (b : Board) : Prop where
  recorded : ∀ t ∈ commits b.log, b.db.tweets.hasKey t = true
  commits_nodup : (commits b.log).Nodup
  spawns_nodup : (spawns b.log).Nodup
  spawned : ∀ t users, .spawned t users ∈ b.log → .committed t users ∈ b.log
  inFlight : ∀ p ∈ b.inFlight, p.1 ∈ commits b.log
  completed : ∀ t user outcome, .completed t user outcome ∈ b.log → t ∈ commits b.log

theorem Once.fresh (db : Database) : Once (Sending.fresh db).board := by
  refine ⟨?_, ?_, ?_, ?_, ?_, ?_⟩ <;> simp [Sending.fresh, commits, spawns]

@[simp] theorem tweets_afterRetweet (tweet user : Int64) (outcome : Outcome) (db : Database) :
    (afterRetweet tweet user outcome db).tweets = db.tweets := by
  unfold afterRetweet
  split <;> rfl

theorem Once.complete {b : Board} (h : Once b) {tweet user : Int64} (outcome : Outcome)
    (hin : (tweet, user) ∈ b.inFlight) : Once (b.complete tweet user outcome) where
  recorded := by
    intro t ht
    simp only [Board.complete, commits_append, tweets_afterRetweet] at ht ⊢
    exact h.recorded t (by simpa [commits] using ht)
  commits_nodup := by simpa [Board.complete, commits] using h.commits_nodup
  spawns_nodup := by simpa [Board.complete, spawns] using h.spawns_nodup
  spawned := by
    intro t users hmem
    have hmem : .spawned t users ∈ b.log := by simpa [Board.complete] using hmem
    exact List.mem_append_left _ (h.spawned t users hmem)
  inFlight := by
    intro p hp
    have hp := h.inFlight p (List.mem_of_mem_erase hp)
    simp only [Board.complete, commits_append]
    exact List.mem_append_left _ hp
  completed := by
    intro t u o hmem
    simp only [Board.complete, commits_append]
    refine List.mem_append_left _ ?_
    rcases List.mem_append.mp hmem with hmem | hmem
    · exact h.completed t u o hmem
    · cases List.mem_singleton.mp hmem
      exact h.inFlight _ hin

theorem tweets_initLastTweet (db : Database) : db.initLastTweet.tweets = db.tweets := by
  unfold Database.initLastTweet
  split <;> rfl

theorem ongoing_initLastTweet (db : Database) :
    db.initLastTweet.ongoingRetweets = db.ongoingRetweets := by
  unfold Database.initLastTweet
  split <;> rfl

theorem Once.restart {b : Board} (h : Once b) : Once b.restart where
  recorded := fun t ht => by
    show b.db.initLastTweet.tweets.hasKey t = true
    rw [tweets_initLastTweet]
    exact h.recorded t ht
  commits_nodup := h.commits_nodup
  spawns_nodup := h.spawns_nodup
  spawned := h.spawned
  inFlight := by simp [Board.restart]
  completed := h.completed

/-! ### A processing among completions -/

/-- What completions do to a board, as far as a processing is concerned. -/
structure Outside (b b' : Board) : Prop where
  tweets : b'.db.tweets = b.db.tweets
  log : ∃ entries, (∀ e ∈ entries, ∃ t user outcome, e = .completed t user outcome) ∧
    b'.log = b.log ++ entries

namespace Outside

variable {b b' b'' : Board}

theorem refl (b : Board) : Outside b b := ⟨rfl, [], by simp, by simp⟩

theorem trans (h : Outside b b') (h' : Outside b' b'') : Outside b b'' := by
  obtain ⟨ht, es, hes, hlog⟩ := h
  obtain ⟨ht', es', hes', hlog'⟩ := h'
  refine ⟨ht'.trans ht, es ++ es', ?_, by rw [hlog', hlog, List.append_assoc]⟩
  intro e he
  rcases List.mem_append.mp he with he | he
  · exact hes e he
  · exact hes' e he

theorem complete (b : Board) (tweet user : Int64) (outcome : Outcome) :
    Outside b (b.complete tweet user outcome) := by
  refine ⟨tweets_afterRetweet _ _ _ _, [.completed tweet user outcome], ?_, rfl⟩
  intro e he
  exact ⟨tweet, user, outcome, List.mem_singleton.mp he⟩

theorem spawns_eq (h : Outside b b') : spawns b'.log = spawns b.log := by
  obtain ⟨-, es, hes, hlog⟩ := h
  have hnone : spawns es = [] := by
    rw [spawns, List.filterMap_eq_nil_iff]
    intro e he
    obtain ⟨t, u, o, rfl⟩ := hes e he
    rfl
  rw [hlog, spawns_append, hnone, List.append_nil]

theorem mem_log (h : Outside b b') {e : LogEntry} (he : e ∈ b.log) : e ∈ b'.log := by
  obtain ⟨-, es, -, hlog⟩ := h
  rw [hlog]
  exact List.mem_append_left _ he

end Outside

/-- The board after a committed retweet transaction. -/
def Board.commit (b : Board) (db : Database) (tweet : Int64) (users : List Int64) : Board :=
  { b with db, log := b.log ++ [.committed tweet users] }

/-- The board after the retweets have been spawned. -/
def Board.spawn (b : Board) (tweet : Int64) (users : List Int64) : Board :=
  { b with
    inFlight := b.inFlight ++ users.map fun user => (tweet, user)
    log := b.log ++ [.spawned tweet users] }

/-- What the retweet transaction does to the tables, where it is committed. -/
structure Retweeted (tweet : Int64) (users : List Int64) (db db' : Database) : Prop where
  tweets : ∀ t, db'.tweets.hasKey t = (db.tweets.hasKey t || decide (tweet = t))
  ongoing : db.tweets.hasKey tweet = false → ∀ r,
    r ∈ db'.ongoingRetweets ↔ r ∈ db.ongoingRetweets ∨ r.id = tweet ∧ r.user ∈ users

theorem retweetOutboxes_ok {core : Core} {faults : Faults} {tweet : Int64} {outboxes : List Outbox}
    {db db' : Database} {users : List Int64}
    (h : retweetOutboxes core faults tweet outboxes db = .ok (users, db')) :
    db'.tweets = db.tweets ∧ ∀ r, r ∈ db'.ongoingRetweets ↔
      r ∈ db.ongoingRetweets ∨ r.id = tweet ∧ r.user ∈ users := by
  induction outboxes generalizing db users with
  | nil =>
    cases h
    exact ⟨rfl, by simp⟩
  | cons outbox outboxes ih =>
    obtain ⟨user⟩ := outbox
    unfold retweetOutboxes at h
    split at h
    · cases h
    split at h
    · cases h
    rename_i db₁ hrep
    split at h
    · cases h
    split at h
    · rename_i users₁ db₂ hrest
      cases h
      obtain ⟨htweets, -, -, hongoing⟩ := Database.replaceOngoing_eq_some hrep
      obtain ⟨htweets', hmem⟩ := ih hrest
      refine ⟨htweets'.trans htweets, ?_⟩
      intro r
      have hkey : r.key = (tweet, user) ↔ r = ⟨tweet, user⟩ := by
        cases r
        simp [OngoingRetweet.key]
      rw [hmem, hongoing, Table.mem_replace]
      by_cases heq : r = ⟨tweet, user⟩
      · subst heq
        simp
      · have hne : r.key ≠ OngoingRetweet.key ⟨tweet, user⟩ := fun hk => heq (hkey.mp hk)
        have huser : r.id = tweet → r.user ≠ user := by
          rintro rfl hu
          exact heq (by cases r; cases hu; rfl)
        simp only [hne, heq, List.mem_cons, ne_eq, not_false_eq_true, and_true, or_false]
        constructor
        · rintro (hr | ⟨hid, hu⟩)
          · exact Or.inl hr
          · exact Or.inr ⟨hid, Or.inr hu⟩
        · rintro (hr | ⟨hid, hu | hu⟩)
          · exact Or.inl hr
          · exact absurd hu (huser hid)
          · exact Or.inr ⟨hid, hu⟩
    · cases h

theorem retweetTransaction_ok {core : Core} {faults : Faults} {tweet : Tweet} {db db' : Database}
    {users : List Int64} (h : retweetTransaction core faults tweet db = .ok (users, db')) :
    Retweeted tweet.id users db db' := by
  unfold retweetTransaction at h
  split at h
  · cases h
  split at h
  · rename_i users₁ db₁ hrun
    split at h
    · cases h
    cases h
    obtain ⟨htweets, hmem⟩ := retweetOutboxes_ok hrun
    refine ⟨?_, ?_⟩
    · intro t
      rw [htweets, Database.hasKey_tweets_replace]
      rfl
    · intro hnew r
      rw [hmem, Database.mem_ongoing_replaceTweet (.ofTweet tweet) hnew]
  · cases h

/-- A further property that the actions of a processing keep. -/
structure Kept (P : Board → Prop) : Prop where
  received : ∀ b t, P b → P { b with log := b.log ++ [.received t] }
  raised : ∀ b t, P b → P { b with db := b.db.updateLastTweet t }
  committed : ∀ b db t users, Once b → b.db.tweets.hasKey t = false → Retweeted t users b.db db →
    P b → P (b.commit db t users)
  spawned : ∀ b t users, P b → P (b.spawn t users)

namespace Once

variable {b : Board}

theorem received (h : Once b) (t : Int64) : Once { b with log := b.log ++ [.received t] } where
  recorded := by simpa [commits] using h.recorded
  commits_nodup := by simpa [commits] using h.commits_nodup
  spawns_nodup := by simpa [spawns] using h.spawns_nodup
  spawned := by simpa using h.spawned
  inFlight := by simpa [commits] using h.inFlight
  completed := by simpa [commits] using h.completed

theorem raised (h : Once b) (t : Int64) : Once { b with db := b.db.updateLastTweet t } where
  recorded := h.recorded
  commits_nodup := h.commits_nodup
  spawns_nodup := h.spawns_nodup
  spawned := h.spawned
  inFlight := h.inFlight
  completed := h.completed

theorem not_mem_commits (h : Once b) {t : Int64} (hnew : b.db.tweets.hasKey t = false) :
    t ∉ commits b.log := by
  intro hmem
  rw [h.recorded t hmem] at hnew
  cases hnew

theorem mem_commits_of_mem_spawns (h : Once b) {t : Int64} (hs : t ∈ spawns b.log) :
    t ∈ commits b.log := by
  obtain ⟨users, hmem⟩ := mem_spawns.mp hs
  exact mem_commits.mpr ⟨users, h.spawned t users hmem⟩

theorem commit (h : Once b) {t : Int64} {users : List Int64} {db : Database}
    (hnew : b.db.tweets.hasKey t = false) (hdb : Retweeted t users b.db db) :
    Once (b.commit db t users) where
  recorded := by
    intro t' ht'
    have hor : t' ∈ commits b.log ∨ t' = t := by simpa [Board.commit, commits] using ht'
    show db.tweets.hasKey t' = true
    rw [hdb.tweets]
    rcases hor with hold | rfl
    · simp [h.recorded t' hold]
    · simp
  commits_nodup := by
    have hfresh := h.not_mem_commits hnew
    have happ : commits (b.commit db t users).log = commits b.log ++ [t] := by
      simp [Board.commit, commits]
    rw [happ]
    exact h.commits_nodup.append (List.nodup_singleton t) (by simpa using hfresh)
  spawns_nodup := by simpa [Board.commit, spawns] using h.spawns_nodup
  spawned := by
    intro t' users' hmem
    have hold : .spawned t' users' ∈ b.log := by simpa [Board.commit] using hmem
    exact List.mem_append_left _ (h.spawned t' users' hold)
  inFlight := by
    intro p hp
    simp only [Board.commit, commits_append]
    exact List.mem_append_left _ (h.inFlight p hp)
  completed := by
    intro t' user outcome hmem
    have hold : .completed t' user outcome ∈ b.log := by simpa [Board.commit] using hmem
    simp only [Board.commit, commits_append]
    exact List.mem_append_left _ (h.completed t' user outcome hold)

theorem spawn (h : Once b) {t : Int64} {users : List Int64} (hc : .committed t users ∈ b.log)
    (hs : t ∉ spawns b.log) : Once (b.spawn t users) where
  recorded := by
    intro t' ht'
    exact h.recorded t' (by simpa [Board.spawn, commits] using ht')
  commits_nodup := by simpa [Board.spawn, commits] using h.commits_nodup
  spawns_nodup := by
    have happ : spawns (b.spawn t users).log = spawns b.log ++ [t] := by
      simp [Board.spawn, spawns]
    rw [happ]
    exact h.spawns_nodup.append (List.nodup_singleton t) (by simpa using hs)
  spawned := by
    intro t' users' hmem
    have hor : .spawned t' users' ∈ b.log ∨ t' = t ∧ users' = users := by
      simpa [Board.spawn] using hmem
    rcases hor with hold | ⟨rfl, rfl⟩
    · exact List.mem_append_left _ (h.spawned t' users' hold)
    · exact List.mem_append_left _ hc
  inFlight := by
    intro p hp
    simp only [Board.spawn, commits_append]
    refine List.mem_append_left _ ?_
    rcases List.mem_append.mp hp with hp | hp
    · exact h.inFlight p hp
    · obtain ⟨user, -, rfl⟩ := List.mem_map.mp hp
      exact mem_commits.mpr ⟨users, hc⟩
  completed := by
    intro t' user outcome hmem
    have hold : .completed t' user outcome ∈ b.log := by simpa [Board.spawn] using hmem
    simp only [Board.spawn, commits_append]
    exact List.mem_append_left _ (h.completed t' user outcome hold)

end Once

section Processing

variable {P : Board → Prop} (hP : Kept P) (core : Core) (faults : Faults)

/-- A processing that keeps `Once` and `P` among completions. -/
abbrev Safe (P : Board → Prop) {α : Type} (post : α → Board → Prop) (p : Prog Board Failure α)
    (b : Board) : Prop :=
  Prog.Amid (fun b b' => Outside b b' ∧ Once b' ∧ P b') (fun _ b' => Once b' ∧ P b') post p b

theorem safe_check (statement : Statement) (e : AppError) (b : Board) :
    Safe P (fun _ b' => b = b') (check faults statement e) b := by
  unfold check
  split
  · trivial
  · exact rfl

include hP

theorem safe_retweet (tweet : Tweet) {b : Board} (hnew : b.db.tweets.hasKey tweet.id = false) :
    Safe P (fun users b' => .committed tweet.id users ∈ b'.log ∧ tweet.id ∉ spawns b'.log)
      (retweet core faults tweet) b := by
  refine Prog.amid_bind (safe_check faults _ _ b) ?_
  rintro _ _ rfl
  refine Prog.amid_attempt ?_ fun _ h => h.2
  rintro b' ⟨hout, honce, hp⟩ users b'' hrun
  rw [← hout.tweets] at hnew
  cases htx : retweetTransaction core faults tweet b'.db with
  | error e =>
    rw [htx] at hrun
    cases hrun
  | ok r =>
    obtain ⟨users', db⟩ := r
    rw [htx] at hrun
    cases hrun
    have hdb := retweetTransaction_ok htx
    refine ⟨⟨honce.commit hnew hdb, hP.committed b' db _ _ honce hnew hdb hp⟩, by simp, ?_⟩
    intro hs
    have hold : tweet.id ∈ spawns b'.log := by simpa [spawns] using hs
    exact honce.not_mem_commits hnew (honce.mem_commits_of_mem_spawns hold)

theorem safe_spawnRetweets {t : Int64} {users : List Int64} {b : Board}
    (hc : .committed t users ∈ b.log) (hs : t ∉ spawns b.log) :
    Safe P (fun _ _ => True) (spawnRetweets t users) b := by
  refine Prog.amid_modify ?_
  rintro b' ⟨hout, honce, hp⟩
  exact ⟨⟨honce.spawn (hout.mem_log hc) (by rwa [hout.spawns_eq]), hP.spawned b' t users hp⟩, trivial⟩

theorem safe_sendUnrecorded (tweet : Tweet) {b : Board}
    (hnew : b.db.tweets.hasKey tweet.id = false) :
    Safe P (fun _ _ => True) (sendUnrecorded core faults tweet) b := by
  unfold sendUnrecorded
  split
  · trivial
  split
  · refine Prog.amid_bind (safe_retweet hP core faults tweet hnew) ?_
    rintro users b' ⟨hc, hs⟩
    exact safe_spawnRetweets hP hc hs
  split
  · trivial
  refine Prog.amid_bind (safe_check faults _ _ b) ?_
  rintro _ _ rfl
  refine Prog.amid_bind (Q := fun _ (b' : Board) => b'.db.tweets.hasKey tweet.id = false)
    (Prog.amid_read fun b' h => ⟨h.2, by rw [h.1.tweets]; exact hnew⟩) ?_
  intro duplicate b' hnew'
  refine Prog.amid_bind (safe_retweet hP core faults tweet hnew') ?_
  rintro users b'' ⟨hc, hs⟩
  split
  · trivial
  · exact safe_spawnRetweets hP hc hs

/-- Nothing needs to be known about the board for a processing to be safe: that the tweet is not
recorded, the processing finds out for itself. -/
theorem safe_sendTweet_ (tweet : Tweet) (updateLastTweet : Bool) (b : Board) :
    Safe P (fun _ _ => True) (sendTweet_ core faults tweet updateLastTweet) b := by
  unfold sendTweet_
  refine Prog.amid_bind (Q := fun _ _ => True)
    (Prog.amid_modify fun b' h => ⟨⟨h.2.1.received _, hP.received b' _ h.2.2⟩, trivial⟩) ?_
  intro _ b₁ _
  refine Prog.amid_bind (safe_check faults _ _ b₁) ?_
  rintro _ _ rfl
  refine Prog.amid_bind (safe_check faults _ _ b₁) ?_
  rintro _ _ rfl
  refine Prog.amid_bind (Q := fun recorded (b' : Board) => b'.db.tweets.hasKey tweet.id = recorded)
    (Prog.amid_read fun b' h => ⟨h.2, rfl⟩) ?_
  intro recorded b₂ hrec
  split
  · trivial
  rename_i hnot
  have hnew : b₂.db.tweets.hasKey tweet.id = false := by rw [hrec]; simpa using hnot
  refine Prog.amid_bind (Q := fun _ (b' : Board) => b'.db.tweets.hasKey tweet.id = false) ?_ ?_
  · cases updateLastTweet with
    | false => exact hnew
    | true =>
      refine Prog.amid_bind (safe_check faults _ _ b₂) ?_
      rintro _ _ rfl
      refine Prog.amid_modify fun b' ⟨hout, h⟩ => ⟨⟨h.1.raised _, hP.raised b' _ h.2⟩, ?_⟩
      show b'.db.tweets.hasKey tweet.id = false
      rw [hout.tweets]
      exact hnew
  · intro _ b₃ hnew'
    exact safe_sendUnrecorded hP core faults tweet hnew'

theorem safe_sendEach (faults : ℕ → Faults) (tweets : List Tweet) (i : ℕ) (b : Board) :
    Safe P (fun _ _ => True) (sendEach core faults i tweets) b := by
  induction tweets generalizing i b with
  | nil => trivial
  | cons tweet tweets ih =>
    refine Prog.amid_bind (safe_sendTweet_ hP core (faults i) tweet tweets.isEmpty b) ?_
    intro _ b' _
    exact ih (i + 1) b'

theorem safe_prog (job : Job) (b : Board) : Safe P (fun _ _ => True) job.prog b := by
  cases job with
  | tweet core faults t => exact safe_sendTweet_ hP core faults t true b
  | tweets core faults ts => exact safe_sendEach hP core faults ts.reverse 0 b

end Processing

/-! ### Whole runs -/

/-- The board is as `Once` says, and what is left of the present processing is safe. -/
structure Sound (P : Board → Prop) (s : Sending) : Prop where
  once : Once s.board
  current : Safe P (fun _ _ => True) s.current s.board

namespace Sound

variable {P : Board → Prop} {s : Sending}

theorem fresh (P : Board → Prop) (db : Database) : Sound P (.fresh db) := ⟨Once.fresh db, trivial⟩

theorem start (hP : Kept P) (h : Sound P s) (job : Job) : Sound P (s.step (.start job)) := by
  rcases s.step_start job with heq | heq
  · rw [heq]
    exact h
  · rw [heq]
    exact ⟨h.once, safe_prog hP job s.board⟩

theorem advance (h : Sound P s) (hp : P s.board) :
    Sound P (s.step .advance) ∧ P (s.step .advance).board := by
  rcases s.step_advance with heq | ⟨update, next, hcur, heq⟩
  · rw [heq]
    exact ⟨h, hp⟩
  · have hsafe := h.current
    rw [hcur] at hsafe
    obtain ⟨⟨honce, hp'⟩, hnext⟩ := hsafe s.board ⟨Outside.refl _, h.once, hp⟩
    rw [heq]
    exact ⟨⟨honce, hnext⟩, hp'⟩

theorem complete (h : Sound P s) (tweet user : Int64) (outcome : Outcome) :
    Sound P (s.step (.complete tweet user outcome)) := by
  rcases s.step_complete tweet user outcome with ⟨hin, heq⟩ | ⟨-, heq⟩
  · rw [heq]
    exact ⟨h.once.complete outcome hin, h.current.stable
      (fun _ h' => ⟨(Outside.complete _ _ _ _).trans h'.1, h'.2⟩) (fun _ _ => trivial)⟩
  · rw [heq]
    exact h

theorem restart (h : Sound P s) : Sound P (s.step .restart) := ⟨h.once.restart, trivial⟩

/-- Every act keeps the invariant, where the present board has the further property. -/
theorem step (hP : Kept P) (h : Sound P s) (hp : P s.board) (a : Act) : Sound P (s.step a) := by
  cases a with
  | start job => exact h.start hP job
  | advance => exact (h.advance hp).1
  | complete tweet user outcome => exact h.complete tweet user outcome
  | restart => exact h.restart

end Sound

/-- **A tweet is retweeted from one processing at most**, whatever sources it comes from, however often
it comes, whatever fails and whenever the process stops: the retweet transaction commits once for a
tweet, and the retweets that it built are spawned once. -/
theorem retweeted_once (db : Database) (run : List Act) :
    let log := (Runs.final Sending.step (.fresh db) run).board.log
    (commits log).Nodup ∧ (spawns log).Nodup ∧
      ∀ t users, .spawned t users ∈ log → .committed t users ∈ log := by
  intro log
  have hkept : Kept fun _ => True :=
    ⟨fun _ _ _ => trivial, fun _ _ _ => trivial, fun _ _ _ _ _ _ _ _ => trivial,
      fun _ _ _ _ => trivial⟩
  have hsound : Sound (fun _ => True) (Runs.final Sending.step (.fresh db) run) :=
    Runs.final_induction (fun s a hs => hs.step hkept trivial a) (Sound.fresh _ db) run
  exact ⟨hsound.once.commits_nodup, hsound.once.spawns_nodup, hsound.once.spawned⟩

/-! ### The ongoing retweets -/

/-- A `Retweet` has been scheduled for the tweet and the user: in this run, or in one before. -/
def Scheduled (db₀ : Database) (log : List LogEntry) (p : OngoingRetweet) : Prop :=
  p ∈ db₀.ongoingRetweets ∨ ∃ users, .committed p.id users ∈ log ∧ p.user ∈ users

/-- Whether a result settles a retweet: it succeeded, or failed for a negligible reason. -/
def settles : Outcome → Bool
  | .ok => true
  | .failed => false
  | .twitter codes => codes.any isNegligible

def Settled (log : List LogEntry) (p : OngoingRetweet) : Prop :=
  ∃ outcome, .completed p.id p.user outcome ∈ log ∧ settles outcome = true

/-- `ongoing_retweets` contains what is scheduled and not settled. -/
def Accurate (db₀ : Database) (b : Board) : Prop :=
  ∀ p, p ∈ b.db.ongoingRetweets ↔ Scheduled db₀ b.log p ∧ ¬Settled b.log p

/-- The tweets of the retweets that were ongoing at the start are recorded. -/
def Remembered (db₀ : Database) (b : Board) : Prop :=
  ∀ p ∈ db₀.ongoingRetweets, b.db.tweets.hasKey p.id = true

section Accurate

variable {db₀ : Database} {b : Board}

theorem scheduled_append {log entries : List LogEntry} {p : OngoingRetweet}
    (h : ∀ t users, .committed t users ∉ entries) :
    Scheduled db₀ (log ++ entries) p ↔ Scheduled db₀ log p := by
  unfold Scheduled
  simp [h]

theorem settled_append {log entries : List LogEntry} {p : OngoingRetweet}
    (h : ∀ t user outcome, .completed t user outcome ∉ entries) :
    Settled (log ++ entries) p ↔ Settled log p := by
  unfold Settled
  simp [h]

theorem accurate_append {entries : List LogEntry} {inFlight : List (Int64 × Int64)}
    (hc : ∀ t users, .committed t users ∉ entries)
    (hd : ∀ t user outcome, .completed t user outcome ∉ entries) :
    Accurate db₀ ⟨b.db, inFlight, b.log ++ entries⟩ ↔ Accurate db₀ b := by
  unfold Accurate
  simp only [scheduled_append hc, settled_append hd]

theorem accurate_commit {db : Database} {t : Int64} {users : List Int64} (honce : Once b)
    (hnew : b.db.tweets.hasKey t = false) (hdb : Retweeted t users b.db db)
    (hacc : Accurate db₀ b) : Accurate db₀ (b.commit db t users) := by
  intro p
  have hsettled : Settled (b.commit db t users).log p ↔ Settled b.log p :=
    settled_append (by simp)
  have hscheduled : Scheduled db₀ (b.commit db t users).log p ↔
      Scheduled db₀ b.log p ∨ p.id = t ∧ p.user ∈ users := by
    unfold Scheduled Board.commit
    simp only [List.mem_append, List.mem_singleton, LogEntry.committed.injEq]
    constructor
    · rintro (h | ⟨us, h | ⟨hid, rfl⟩, hu⟩)
      · exact Or.inl (Or.inl h)
      · exact Or.inl (Or.inr ⟨us, h, hu⟩)
      · exact Or.inr ⟨hid, hu⟩
    · rintro ((h | ⟨us, h, hu⟩) | ⟨hid, hu⟩)
      · exact Or.inl h
      · exact Or.inr ⟨us, Or.inl h, hu⟩
      · exact Or.inr ⟨users, Or.inr ⟨hid, rfl⟩, hu⟩
  show p ∈ db.ongoingRetweets ↔ _
  rw [hdb.ongoing hnew, hsettled, hscheduled, hacc p]
  -- a retweet of the new tweet cannot have been settled before
  have hfresh : p.id = t → ¬Settled b.log p := by
    rintro rfl ⟨outcome, hmem, -⟩
    exact honce.not_mem_commits hnew (honce.completed _ _ _ hmem)
  tauto

theorem kept_accurate (db₀ : Database) : Kept fun b => Remembered db₀ b ∧ Accurate db₀ b where
  received := fun b t h => ⟨h.1, (accurate_append (by simp) (by simp)).mpr h.2⟩
  raised := fun b t h => ⟨h.1, h.2⟩
  committed := by
    intro b db t users honce hnew hdb h
    refine ⟨?_, accurate_commit honce hnew hdb h.2⟩
    intro p hp
    show db.tweets.hasKey p.id = true
    rw [hdb.tweets, h.1 p hp]
    rfl
  spawned := fun b t users h => ⟨h.1, (accurate_append (by simp) (by simp)).mpr h.2⟩

theorem settled_complete {tweet user : Int64} {outcome : Outcome} {p : OngoingRetweet} :
    Settled (b.complete tweet user outcome).log p ↔
      Settled b.log p ∨ p = ⟨tweet, user⟩ ∧ settles outcome = true := by
  unfold Settled Board.complete
  simp only [List.mem_append, List.mem_singleton, LogEntry.completed.injEq]
  constructor
  · rintro ⟨o, h | ⟨hid, hu, rfl⟩, hs⟩
    · exact Or.inl ⟨o, h, hs⟩
    · exact Or.inr ⟨by cases p; cases hid; cases hu; rfl, hs⟩
  · rintro (⟨o, h, hs⟩ | ⟨rfl, hs⟩)
    · exact ⟨o, Or.inl h, hs⟩
    · exact ⟨outcome, Or.inr ⟨rfl, rfl, rfl⟩, hs⟩

theorem mem_ongoing_complete {tweet user : Int64} {outcome : Outcome} {p : OngoingRetweet} :
    p ∈ (b.complete tweet user outcome).db.ongoingRetweets ↔
      p ∈ b.db.ongoingRetweets ∧ (resultIsOk outcome = true → p ≠ ⟨tweet, user⟩) := by
  have hkey : p.key = (tweet, user) ↔ p = ⟨tweet, user⟩ := by
    cases p
    simp [OngoingRetweet.key]
  show p ∈ (afterRetweet tweet user outcome b.db).ongoingRetweets ↔ _
  unfold afterRetweet
  by_cases hok : resultIsOk outcome = true
  · rw [if_pos hok, Database.mem_ongoing_delete, ne_eq, hkey]
    simp [hok]
  · rw [if_neg hok]
    simp [hok]

/-- The completion of a request keeps the table accurate, unless it is an error of Twitter's and the
row is still there: then the row goes if it should stay, and stays if it should go. -/
theorem accurate_complete {tweet user : Int64} {outcome : Outcome} (hacc : Accurate db₀ b) :
    Accurate db₀ (b.complete tweet user outcome) ↔
      ∀ codes, outcome = .twitter codes → ⟨tweet, user⟩ ∉ b.db.ongoingRetweets := by
  have hscheduled : ∀ p, Scheduled db₀ (b.complete tweet user outcome).log p ↔
      Scheduled db₀ b.log p := fun p => scheduled_append (by simp)
  have hiff : Accurate db₀ (b.complete tweet user outcome) ↔
      ∀ p, p ∈ b.db.ongoingRetweets ∧ (resultIsOk outcome = true → p ≠ ⟨tweet, user⟩) ↔
        p ∈ b.db.ongoingRetweets ∧ ¬(p = ⟨tweet, user⟩ ∧ settles outcome = true) := by
    unfold Accurate
    simp only [mem_ongoing_complete, hscheduled, settled_complete, hacc _, not_or, and_assoc]
  rw [hiff]
  cases outcome with
  | ok => simp [resultIsOk, settles]
  | failed => simp [resultIsOk, settles]
  | twitter codes =>
    cases hneg : codes.any isNegligible with
    | true =>
      simp only [resultIsOk, settles, hneg, Bool.not_true, Bool.false_eq_true, false_imp_iff,
        and_true, Outcome.twitter.injEq, forall_eq']
      constructor
      · intro h hrow
        exact ((h _).mp hrow).2 rfl
      · intro h p
        constructor
        · intro hp
          exact ⟨hp, by rintro rfl; exact h hp⟩
        · exact fun hp => hp.1
    | false =>
      simp only [resultIsOk, settles, hneg, Bool.not_false, forall_const, Bool.false_eq_true,
        and_false, not_false_eq_true, and_true, Outcome.twitter.injEq, forall_eq']
      constructor
      · intro h hrow
        exact ((h _).mpr hrow).2 rfl
      · intro h p
        constructor
        · exact fun hp => hp.1
        · intro hp
          exact ⟨hp, by rintro rfl; exact h hp⟩

end Accurate

/-- The act is not an error of Twitter's for a retweet whose row is still in the table. -/
def NotTwitterError : Sending → Act → Prop
  | s, .complete tweet user outcome => (tweet, user) ∈ s.board.inFlight →
      ∀ codes, outcome = .twitter codes → ⟨tweet, user⟩ ∉ s.board.db.ongoingRetweets
  | _, _ => True

theorem remembered_step {db₀ : Database} {s : Sending}
    (hs : Sound (fun b => Remembered db₀ b ∧ Accurate db₀ b) s) (hrem : Remembered db₀ s.board)
    (hacc : Accurate db₀ s.board) (a : Act) : Remembered db₀ (s.step a).board := by
  cases a with
  | start job =>
    rcases s.step_start job with heq | heq
    · rw [heq]
      exact hrem
    · rw [heq]
      exact hrem
  | advance => exact (hs.advance ⟨hrem, hacc⟩).2.1
  | complete tweet user outcome =>
    rcases s.step_complete tweet user outcome with ⟨-, heq⟩ | ⟨-, heq⟩
    · rw [heq]
      intro p hp
      show (afterRetweet tweet user outcome s.board.db).tweets.hasKey p.id = true
      rw [tweets_afterRetweet]
      exact hrem p hp
    · rw [heq]
      exact hrem
  | restart =>
    intro p hp
    show s.board.db.initLastTweet.tweets.hasKey p.id = true
    rw [tweets_initLastTweet]
    exact hrem p hp

/-- An act keeps the table accurate exactly when it is no error of Twitter's for a row that is there. -/
theorem accurate_step {db₀ : Database} {s : Sending}
    (hs : Sound (fun b => Remembered db₀ b ∧ Accurate db₀ b) s) (hrem : Remembered db₀ s.board)
    (hacc : Accurate db₀ s.board) (a : Act) :
    Accurate db₀ (s.step a).board ↔ NotTwitterError s a := by
  cases a with
  | start job =>
    refine iff_of_true ?_ trivial
    rcases s.step_start job with heq | heq
    · rw [heq]
      exact hacc
    · rw [heq]
      exact hacc
  | advance => exact iff_of_true (hs.advance ⟨hrem, hacc⟩).2.2 trivial
  | complete tweet user outcome =>
    rcases s.step_complete tweet user outcome with ⟨hin, heq⟩ | ⟨hin, heq⟩
    · rw [heq]
      exact (accurate_complete hacc).trans ⟨fun h _ => h, fun h => h hin⟩
    · rw [heq]
      exact iff_of_true hacc fun h => absurd h hin
  | restart =>
    refine iff_of_true ?_ trivial
    intro p
    show p ∈ s.board.db.initLastTweet.ongoingRetweets ↔ _
    rw [ongoing_initLastTweet]
    exact hacc p

/-- **The ongoing retweets are those scheduled and not settled**, in every state of a run, exactly when
no request of the run ends in an error of Twitter's while its row is in the table. -/
theorem accurate_iff (db₀ : Database) (run : List Act) :
    (∀ s ∈ Runs.states Sending.step (.fresh db₀) run, Accurate db₀ s.board) ↔
      ∀ m ∈ Runs.moves Sending.step (.fresh db₀) run, NotTwitterError m.1 m.2 := by
  have hkept := kept_accurate db₀
  have hfresh : Accurate db₀ (Sending.fresh db₀).board := by
    intro p
    simp [Sending.fresh, Scheduled, Settled]
  refine Runs.always_iff_moves
    (I := fun s => Sound (fun b => Remembered db₀ b ∧ Accurate db₀ b) s ∧ Remembered db₀ s.board)
    ?_ ?_ ⟨Sound.fresh _ db₀, fun p hp => db₀.tweet_references p hp⟩ hfresh run
  · rintro s a ⟨hs, hrem⟩ hacc -
    exact ⟨hs.step hkept ⟨hrem, hacc⟩ a, remembered_step hs hrem hacc a⟩
  · rintro s a ⟨hs, hrem⟩ hacc
    exact accurate_step hs hrem hacc a

/-- A tweet of user 10. -/
def sampleTweet : Tweet := ⟨5, "text", none, none, 10, none, none⟩

/-- One tweet is processed, and its only `Retweet` request fails with an error that is not negligible. -/
def refusedRetweet : List Act :=
  [.start (.tweet (sampleCore (sampleManifest none [.twitter 10])) (fun _ => false) sampleTweet),
    .advance, .advance, .advance, .advance, .advance, .complete 5 1 (.twitter [.other 88])]

/-- The row of a retweet that Twitter refused is gone, although the retweet is not settled. -/
theorem not_accurate_refused :
    ¬Accurate sampleDatabase
      (Runs.final Sending.step (.fresh sampleDatabase) refusedRetweet).board := by
  intro h
  have hlog : (Runs.final Sending.step (.fresh sampleDatabase) refusedRetweet).board.log =
      [.received 5, .committed 5 [1], .spawned 5 [1], .completed 5 1 (.twitter [.other 88])] := rfl
  have hrows : (Runs.final Sending.step (.fresh sampleDatabase)
      refusedRetweet).board.db.ongoingRetweets.rows = [] := rfl
  have hmem := (h ⟨5, 1⟩).mpr ?_
  · rw [Table.mem_def, hrows] at hmem
    cases hmem
  · rw [hlog]
    refine ⟨Or.inr ⟨[1], by simp, by simp⟩, ?_⟩
    rintro ⟨outcome, hmem, hs⟩
    have houtcome : outcome = .twitter [.other 88] := by simpa using hmem
    rw [houtcome] at hs
    cases hs

end Pipitor.App
