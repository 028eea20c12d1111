import Pipitor.App.Broadcast

/-!
# Duplicates

With `skip_duplicate`, `send_tweet_` spawns a future that first asks Twitter for the recorded tweet of the
same user and text that has the greatest id, and retweets only if that one does not exist any more. Tweets
arrive, are deleted at the service, and `Retweet` requests succeed and fail in any order.

`decides_iff` compares this with the meaning of a duplicate: a tweet of the same content that has been
broadcast. The record that is asked for may be one of a tweet that has not.
-/

namespace Pipitor.App

open Resumption Relational Twitter

/-- A future that waits for the `Show` request of `duplicate`. `earlier` are the tweets that had arrived
before. -/
structure Pending where
  tweet : Tweet
  users : List Int64
  duplicate : Int64
  earlier : List Tweet

/-- The earlier tweet reads as the one that is pending. -/
def Pending.Repeats (p : Pending) (t : Tweet) : Prop :=
  t ∈ p.earlier ∧ t.user = p.tweet.user ∧ t.text = p.tweet.text

instance (p : Pending) (t : Tweet) : Decidable (p.Repeats t) :=
  inferInstanceAs (Decidable (t ∈ p.earlier ∧ t.user = p.tweet.user ∧ t.text = p.tweet.text))

/-- What has been decided for a tweet, and whether a duplicate of it had been broadcast and still existed. -/
structure Decision where
  tweet : Tweet
  withheld : Bool
  isDuplicate : Bool

/-- `inFlight` are the `Retweet` requests under way, `broadcast` the tweets of those that have succeeded, and
`deleted` the tweets that do not exist at the service any more. -/
structure Skipping where
  db : Twitter.Database
  arrived : List Tweet
  pending : List Pending
  inFlight : List (Tweet × Int64)
  broadcast : List Tweet
  deleted : List Int64
  decisions : List Decision

/-! ### What a processing records -/

theorem retweetTransaction_tweets {core : Core} {faults : Faults} {tweet : Tweet} {db db' : Twitter.Database}
    {users : List Int64} (h : retweetTransaction core faults tweet db = .ok (users, db')) :
    db'.tweets = db.tweets.replace (.ofTweet tweet) := by
  unfold retweetTransaction at h
  split at h
  · cases h
  split at h
  · rename_i users₁ db₁ hrun
    split at h
    · cases h
    cases h
    exact (retweetOutboxes_ok hrun).1
  · cases h

/-- The rows of `b` are still there, and the tweet is recorded if a `Retweet` request is under way. -/
structure Records (tweet : Tweet) (b b' : Board) : Prop where
  rows : ∀ r ∈ b.db.tweets, r ∈ b'.db.tweets
  recorded : b'.inFlight ≠ [] → .ofTweet tweet ∈ b'.db.tweets

section Processing

variable (core : Core) (faults : Faults) (tweet : Tweet)

theorem sat_check (statement : Statement) (e : AppError) {b : Board} {E : Failure → Board → Prop}
    (hrefl : ∀ e, E e b) : Prog.Sat (check faults statement e) b (fun _ b' => b = b') E := by
  unfold check
  split
  · exact hrefl _
  · exact rfl

theorem sat_retweet {b : Board} (hnil : b.inFlight = []) (hnew : b.db.tweets.hasKey tweet.id = false) :
    Prog.Sat (retweet core faults tweet) b
      (fun _ b' => (∀ r ∈ b.db.tweets, r ∈ b'.db.tweets) ∧ .ofTweet tweet ∈ b'.db.tweets)
      (fun _ b' => Records tweet b b') := by
  have hrefl : Records tweet b b := ⟨fun _ => id, fun h => absurd hnil h⟩
  refine Prog.sat_bind (sat_check faults _ _ fun _ => hrefl) ?_
  rintro _ _ rfl
  refine Prog.sat_attempt ?_ fun _ _ => hrefl
  intro users b' hrun
  split at hrun
  · rename_i users' db htx
    cases hrun
    rw [retweetTransaction_tweets htx]
    refine ⟨fun r hr => Table.mem_replace.mpr (Or.inl ⟨hr, ?_⟩), Table.mem_replace.mpr (Or.inr rfl)⟩
    exact Table.hasKey_eq_false_iff.mp hnew r hr
  · cases hrun

theorem sat_sendUnrecorded {b : Board} (hnil : b.inFlight = []) (hnew : b.db.tweets.hasKey tweet.id = false) :
    Prog.Sat (sendUnrecorded core faults tweet) b (fun _ b' => Records tweet b b')
      (fun _ b' => Records tweet b b') := by
  have hrefl : Records tweet b b := ⟨fun _ => id, fun h => absurd hnil h⟩
  unfold sendUnrecorded
  split
  · exact hrefl
  split
  · refine Prog.sat_bind (sat_retweet core faults tweet hnil hnew) ?_
    rintro users b' ⟨hrows, hrecorded⟩
    exact ⟨hrows, fun _ => hrecorded⟩
  split
  · exact hrefl
  refine Prog.sat_bind (sat_check faults _ _ fun _ => hrefl) ?_
  rintro _ _ rfl
  refine Prog.sat_bind (R := fun _ b' => b = b') (Prog.sat_read.mpr rfl) ?_
  rintro duplicate _ rfl
  refine Prog.sat_bind (sat_retweet core faults tweet hnil hnew) ?_
  rintro users b' ⟨hrows, hrecorded⟩
  split
  · exact ⟨hrows, fun _ => hrecorded⟩
  · exact ⟨hrows, fun _ => hrecorded⟩

theorem sat_sendTweet_ (updateLastTweet : Bool) {b : Board} (hnil : b.inFlight = []) :
    Prog.Sat (sendTweet_ core faults tweet updateLastTweet) b (fun _ b' => Records tweet b b')
      (fun _ b' => Records tweet b b') := by
  -- neither `record` nor `raiseLastTweet` touches the tweets
  have hsame : ∀ b' : Board, b'.db.tweets = b.db.tweets → b'.inFlight = [] → Records tweet b b' :=
    fun b' htweets hnil' => ⟨fun r hr => htweets ▸ hr, fun h => absurd hnil' h⟩
  unfold sendTweet_
  refine Prog.sat_bind (R := fun _ b' => b'.db = b.db ∧ b'.inFlight = []) (Prog.sat_modify.mpr ⟨rfl, hnil⟩) ?_
  rintro _ b₁ ⟨hdb, hnil₁⟩
  have hrefl₁ : Records tweet b b₁ := hsame b₁ (by rw [hdb]) hnil₁
  refine Prog.sat_bind (sat_check faults _ _ fun _ => hrefl₁) ?_
  rintro _ _ rfl
  refine Prog.sat_bind (sat_check faults _ _ fun _ => hrefl₁) ?_
  rintro _ _ rfl
  refine Prog.sat_bind (R := fun recorded b' => b₁ = b' ∧ recorded = b.db.tweets.hasKey tweet.id)
    (Prog.sat_read.mpr ⟨rfl, by rw [hdb]⟩) ?_
  rintro recorded _ ⟨rfl, rfl⟩
  split
  · exact hrefl₁
  rename_i hnot
  have hnew : b.db.tweets.hasKey tweet.id = false := by simpa using hnot
  refine Prog.sat_bind (R := fun _ b' => b'.db.tweets = b.db.tweets ∧ b'.inFlight = []) ?_ ?_
  · cases updateLastTweet with
    | false => exact ⟨by rw [hdb], hnil₁⟩
    | true =>
      refine Prog.sat_bind (sat_check faults _ _ fun _ => hrefl₁) ?_
      rintro _ _ rfl
      refine Prog.sat_modify.mpr ⟨?_, hnil₁⟩
      show b₁.db.tweets = b.db.tweets
      rw [hdb]
  · rintro _ b₂ ⟨htweets, hnil₂⟩
    have hrec : ∀ b', Records tweet b₂ b' → Records tweet b b' :=
      fun b' h => ⟨fun r hr => h.rows r (htweets ▸ hr), h.recorded⟩
    exact (sat_sendUnrecorded core faults tweet hnil₂ (htweets ▸ hnew)).mono (fun _ => hrec) fun _ => hrec

end Processing

namespace Skipping

inductive Event
  | arrive (core : Core) (faults : Faults) (tweet : Tweet) (updateLastTweet : Bool)
  | shown (i : ℕ)
  | delete (tweet : Int64)
  | complete (tweet : Tweet) (user : Int64) (outcome : Outcome)

/-- One of the tweets that have been broadcast is an earlier one of the same content and still exists. -/
def isDuplicate (s : Skipping) (earlier : List Tweet) (tweet : Tweet) : Bool :=
  s.broadcast.any fun t => earlier.contains t && decide (t.user = tweet.user ∧ t.text = tweet.text) &&
    !s.deleted.contains t.id

def retweetAll (s : Skipping) (tweet : Tweet) (users : List Int64) : Skipping :=
  { s with inFlight := s.inFlight ++ users.map fun user => (tweet, user) }

def decided (s : Skipping) (tweet : Tweet) (earlier : List Tweet) (withheld : Bool) : Skipping :=
  { s with decisions := s.decisions ++ [⟨tweet, withheld, s.isDuplicate earlier tweet⟩] }

/-- The tables after `send_tweet_`, and the users for whom it has built `Retweet` requests. -/
def processed (core : Core) (faults : Faults) (tweet : Tweet) (updateLastTweet : Bool)
    (db : Twitter.Database) : Twitter.Database × List Int64 :=
  let board := ((sendTweet_ core faults tweet updateLastTweet).run ⟨db, [], []⟩).2
  (board.db, board.inFlight.map (·.2))

def arrive (s : Skipping) (core : Core) (faults : Faults) (tweet : Tweet) (updateLastTweet : Bool) :
    Skipping :=
  let (db, users) := processed core faults tweet updateLastTweet s.db
  let s' := { s with db, arrived := s.arrived ++ [tweet] }
  if users.isEmpty then s'
  else if !core.manifest.skipDuplicate then s'.retweetAll tweet users
  else match s.db.duplicate tweet.user tweet.text with
  | some duplicate => { s' with pending := s.pending ++ [⟨tweet, users, duplicate, s.arrived⟩] }
  | none => (s'.decided tweet s.arrived false).retweetAll tweet users

/-- The `Show` request has been answered: it fails iff the tweet does not exist any more. -/
def proceed (s : Skipping) (p : Pending) : Skipping :=
  if s.deleted.contains p.duplicate then (s.decided p.tweet p.earlier false).retweetAll p.tweet p.users
  else s.decided p.tweet p.earlier true

def step (s : Skipping) : Event → Skipping
  | .arrive core faults tweet updateLastTweet => s.arrive core faults tweet updateLastTweet
  | .shown i =>
    match s.pending[i]? with
    | some p => { s with pending := s.pending.eraseIdx i }.proceed p
    | none => s
  | .delete tweet => { s with deleted := s.deleted ++ [tweet] }
  | .complete tweet user outcome =>
    if (tweet, user) ∈ s.inFlight then
      { s with
        db := afterRetweet tweet.id user outcome s.db
        inFlight := s.inFlight.erase (tweet, user)
        broadcast := if outcome = .ok then s.broadcast ++ [tweet] else s.broadcast }
    else s

/-- Tables in which the tweets that have been broadcast are recorded. -/
def start (db : Twitter.Database) (broadcast : List Tweet) : Skipping :=
  ⟨db, broadcast, [], [], broadcast, [], []⟩

/-- A tweet is withheld iff it is a duplicate of one that has been broadcast and still exists. -/
def Decides (s : Skipping) : Prop := ∀ d ∈ s.decisions, d.withheld = d.isDuplicate

/-- Where the recorded tweet that is asked for still exists, so does one that the pending one repeats and that has
been broadcast; where it has been deleted, so have all of these. -/
def Tells (s : Skipping) : Event → Prop
  | .shown i => ∀ p ∈ s.pending[i]?,
    (p.duplicate ∉ s.deleted → ∃ t ∈ s.broadcast, p.Repeats t ∧ t.id ∉ s.deleted) ∧
    (p.duplicate ∈ s.deleted → ∀ t ∈ s.broadcast, p.Repeats t → t.id ∈ s.deleted)
  | _ => True

/-! ### What is broadcast is recorded -/

theorem processed_rows (core : Core) (faults : Faults) (tweet : Tweet) (updateLastTweet : Bool)
    (db : Twitter.Database) :
    (∀ r ∈ db.tweets, r ∈ (processed core faults tweet updateLastTweet db).1.tweets) ∧
      ((processed core faults tweet updateLastTweet db).2 ≠ [] →
        .ofTweet tweet ∈ (processed core faults tweet updateLastTweet db).1.tweets) := by
  have hsat := sat_sendTweet_ core faults tweet updateLastTweet (b := ⟨db, [], []⟩) rfl
  have hrecords : Records tweet ⟨db, [], []⟩
      ((sendTweet_ core faults tweet updateLastTweet).run ⟨db, [], []⟩).2 := hsat.run
  refine ⟨hrecords.rows, fun hne => hrecords.recorded fun hnil => hne ?_⟩
  show List.map _ _ = []
  rw [hnil]
  rfl

/-- Every tweet that has been or may be broadcast is recorded. -/
structure Recorded (s : Skipping) : Prop where
  broadcast : ∀ t ∈ s.broadcast, .ofTweet t ∈ s.db.tweets
  inFlight : ∀ p ∈ s.inFlight, .ofTweet p.1 ∈ s.db.tweets
  pending : ∀ p ∈ s.pending, .ofTweet p.tweet ∈ s.db.tweets

variable {s : Skipping}

theorem recorded_start {db : Twitter.Database} {broadcast : List Tweet}
    (h : ∀ t ∈ broadcast, .ofTweet t ∈ db.tweets) : Recorded (start db broadcast) := ⟨h, nofun, nofun⟩

theorem Recorded.retweetAll (h : Recorded s) {tweet : Tweet} (ht : .ofTweet tweet ∈ s.db.tweets)
    (users : List Int64) : Recorded (s.retweetAll tweet users) where
  broadcast := h.broadcast
  inFlight := by
    intro p hp
    rcases List.mem_append.mp hp with hp | hp
    · exact h.inFlight p hp
    · obtain ⟨user, -, rfl⟩ := List.mem_map.mp hp
      exact ht
  pending := h.pending

theorem Recorded.decided (h : Recorded s) (tweet : Tweet) (earlier : List Tweet) (withheld : Bool) :
    Recorded (s.decided tweet earlier withheld) := ⟨h.broadcast, h.inFlight, h.pending⟩

theorem Recorded.arrive (h : Recorded s) (core : Core) (faults : Faults) (tweet : Tweet)
    (updateLastTweet : Bool) : Recorded (s.arrive core faults tweet updateLastTweet) := by
  obtain ⟨hrows, hrecorded⟩ := processed_rows core faults tweet updateLastTweet s.db
  unfold Skipping.arrive
  cases hprocessed : processed core faults tweet updateLastTweet s.db with
  | mk db users =>
    rw [hprocessed] at hrows hrecorded
    have hkept : Recorded { s with db, arrived := s.arrived ++ [tweet] } :=
      ⟨fun t ht => hrows _ (h.broadcast t ht), fun p hp => hrows _ (h.inFlight p hp),
        fun p hp => hrows _ (h.pending p hp)⟩
    dsimp only
    split
    · exact hkept
    rename_i husers
    have ht : .ofTweet tweet ∈ db.tweets := hrecorded (by simpa using husers)
    split
    · exact hkept.retweetAll ht users
    split
    · refine ⟨hkept.broadcast, hkept.inFlight, fun p hp => ?_⟩
      rcases List.mem_append.mp hp with hp | hp
      · exact hkept.pending p hp
      · rw [List.mem_singleton.mp hp]
        exact ht
    · exact (hkept.decided tweet s.arrived false).retweetAll ht users

theorem Recorded.complete (h : Recorded s) {tweet : Tweet} {user : Int64} (hin : (tweet, user) ∈ s.inFlight)
    (outcome : Outcome) : Recorded (s.step (.complete tweet user outcome)) := by
  have htweets : (afterRetweet tweet.id user outcome s.db).tweets = s.db.tweets := by
    unfold afterRetweet
    split
    · rfl
    · rfl
  have hstep : s.step (.complete tweet user outcome) =
    { s with
      db := afterRetweet tweet.id user outcome s.db
      inFlight := s.inFlight.erase (tweet, user)
      broadcast := if outcome = .ok then s.broadcast ++ [tweet] else s.broadcast } := if_pos hin
  rw [hstep]
  refine ⟨fun t ht => ?_, fun p hp => ?_, fun p hp => ?_⟩
  · rw [htweets]
    dsimp only at ht
    split at ht
    · rcases List.mem_append.mp ht with ht | ht
      · exact h.broadcast t ht
      · exact List.mem_singleton.mp ht ▸ h.inFlight _ hin
    · exact h.broadcast t ht
  · rw [htweets]
    exact h.inFlight p (List.mem_of_mem_erase hp)
  · rw [htweets]
    exact h.pending p hp

theorem step_shown {i : ℕ} {p : Pending} (hp : s.pending[i]? = some p) :
    s.step (.shown i) = { s with pending := s.pending.eraseIdx i }.proceed p := by
  unfold Skipping.step
  simp only [hp]

theorem step_shown_of_none {i : ℕ} (hp : s.pending[i]? = none) : s.step (.shown i) = s := by
  unfold Skipping.step
  simp only [hp]

theorem Recorded.step (h : Recorded s) (event : Event) : Recorded (s.step event) := by
  cases event with
  | arrive core faults tweet updateLastTweet => exact h.arrive core faults tweet updateLastTweet
  | shown i =>
    cases hp : s.pending[i]? with
    | none => rwa [step_shown_of_none hp]
    | some p =>
      have herase : Recorded { s with pending := s.pending.eraseIdx i } :=
        ⟨h.broadcast, h.inFlight, fun q hq => h.pending q (List.mem_of_mem_eraseIdx hq)⟩
      rw [step_shown hp]
      unfold proceed
      split
      · exact (herase.decided _ _ _).retweetAll (h.pending p (List.mem_of_getElem? hp)) _
      · exact herase.decided _ _ _
  | delete tweet => exact ⟨h.broadcast, h.inFlight, h.pending⟩
  | complete tweet user outcome =>
    by_cases hin : (tweet, user) ∈ s.inFlight
    · exact h.complete hin outcome
    · rwa [show s.step (.complete tweet user outcome) = s from if_neg hin]

/-! ### The decisions -/

theorem decides_decided {tweet : Tweet} {earlier : List Tweet} {withheld : Bool} :
    (s.decided tweet earlier withheld).Decides ↔ s.Decides ∧ withheld = s.isDuplicate earlier tweet := by
  unfold Decides decided
  simp [or_imp, forall_and]

theorem isDuplicate_iff {p : Pending} :
    s.isDuplicate p.earlier p.tweet = true ↔ ∃ t ∈ s.broadcast, p.Repeats t ∧ t.id ∉ s.deleted := by
  unfold isDuplicate Pending.Repeats
  simp [and_assoc]

/-- Without a record of the same content nothing of that content has been broadcast. -/
theorem isDuplicate_of_none (h : Recorded s) {tweet : Tweet}
    (hnone : s.db.duplicate tweet.user tweet.text = none) (earlier : List Tweet) :
    s.isDuplicate earlier tweet = false := by
  rw [← Bool.not_eq_true, isDuplicate, List.any_eq_true]
  rintro ⟨t, ht, hsame⟩
  simp only [Bool.and_eq_true, decide_eq_true_eq] at hsame
  obtain ⟨⟨-, huser, htext⟩, -⟩ := hsame
  unfold Database.duplicate at hnone
  rw [List.max?_eq_none_iff, List.map_eq_nil_iff, List.filter_eq_nil_iff] at hnone
  refine hnone (.ofTweet t) (h.broadcast t ht) ?_
  simp [TweetRow.ofTweet, huser, htext]

theorem decides_arrive (h : Recorded s) (hdecides : s.Decides) (core : Core) (faults : Faults) (tweet : Tweet)
    (updateLastTweet : Bool) : (s.arrive core faults tweet updateLastTweet).Decides := by
  unfold arrive
  cases processed core faults tweet updateLastTweet s.db with
  | mk db users =>
    dsimp only
    split
    · exact hdecides
    split
    · exact hdecides
    split
    · exact hdecides
    · rename_i hnone
      exact decides_decided.mpr ⟨hdecides, (isDuplicate_of_none h hnone s.arrived).symm⟩

theorem decides_proceed (hdecides : s.Decides) (p : Pending) :
    (s.proceed p).Decides ↔
      (p.duplicate ∉ s.deleted → ∃ t ∈ s.broadcast, p.Repeats t ∧ t.id ∉ s.deleted) ∧
      (p.duplicate ∈ s.deleted → ∀ t ∈ s.broadcast, p.Repeats t → t.id ∈ s.deleted) := by
  have hnone : (∀ t ∈ s.broadcast, p.Repeats t → t.id ∈ s.deleted) ↔ s.isDuplicate p.earlier p.tweet = false := by
    rw [← Bool.not_eq_true, isDuplicate_iff]
    simp
  rw [hnone, ← isDuplicate_iff]
  unfold proceed
  split
  · rename_i hdeleted
    have hmem : p.duplicate ∈ s.deleted := by simpa using hdeleted
    have hiff : ((s.decided p.tweet p.earlier false).retweetAll p.tweet p.users).Decides ↔
        (s.decided p.tweet p.earlier false).Decides := Iff.rfl
    rw [hiff, decides_decided]
    cases s.isDuplicate p.earlier p.tweet <;> simp [hdecides, hmem]
  · rename_i hexists
    have hmem : p.duplicate ∉ s.deleted := by simpa using hexists
    rw [decides_decided]
    cases s.isDuplicate p.earlier p.tweet <;> simp [hdecides, hmem]

theorem decides_step (h : Recorded s) (hdecides : s.Decides) (event : Event) :
    (s.step event).Decides ↔ s.Tells event := by
  cases event with
  | arrive core faults tweet updateLastTweet =>
    exact iff_of_true (decides_arrive h hdecides core faults tweet updateLastTweet) trivial
  | shown i =>
    cases hp : s.pending[i]? with
    | none =>
      rw [step_shown_of_none hp]
      refine iff_of_true hdecides fun p hp' => ?_
      rw [hp] at hp'
      cases hp'
    | some p =>
      rw [step_shown hp]
      refine (decides_proceed (s := { s with pending := s.pending.eraseIdx i }) hdecides p).trans ?_
      constructor
      · intro htells p' hp'
        obtain rfl := Option.some.inj (hp.symm.trans hp')
        exact htells
      · exact fun htells => htells p hp
  | delete tweet => exact iff_of_true hdecides trivial
  | complete tweet user outcome =>
    refine iff_of_true ?_ trivial
    unfold step
    dsimp only
    split
    · exact hdecides
    · exact hdecides

/-- In every run the tweets that are withheld are the duplicates of what has been broadcast and still exists
exactly when, each time that a recorded tweet is asked for, it is there iff such a duplicate is. -/
theorem decides_iff {db : Twitter.Database} {broadcast : List Tweet}
    (hrecorded : ∀ t ∈ broadcast, .ofTweet t ∈ db.tweets) (run : List Event) :
    (∀ s ∈ Runs.states step (start db broadcast) run, s.Decides) ↔
      ∀ m ∈ Runs.moves step (start db broadcast) run, m.1.Tells m.2 := by
  have hstart : (start db broadcast).Decides := nofun
  exact Runs.always_iff_moves (I := Recorded) (fun _ event h _ _ => h.step event)
    (fun _ event h hdecides => decides_step h hdecides event) (recorded_start hrecorded) hstart run

/-! Three tweets of user 10 that read `text`, to be retweeted by user 1. -/

def skippingCore : Core := sampleCore { sampleManifest none [.twitter 10] with skipDuplicate := true }

def arriveSample (id : Int64) : Event := .arrive skippingCore (fun _ => false) { sampleTweet with id } true

/-- The first tweet is broadcast and the second one is withheld. -/
def secondWithheld : List Event :=
  [arriveSample 1, .complete { sampleTweet with id := 1 } 1 .ok, arriveSample 2, .shown 0]

/-- Then the second one is deleted, and the third one arrives. -/
def thirdArrives : List Event := secondWithheld ++ [.delete 2, arriveSample 3, .shown 0]

/-- The `Retweet` request of the first tweet fails, and the second one arrives. -/
def firstFails : List Event :=
  [arriveSample 1, .complete { sampleTweet with id := 1 } 1 .failed, arriveSample 2, .shown 0]

instance decidableDecides (s : Skipping) : Decidable s.Decides :=
  inferInstanceAs (Decidable (∀ d ∈ s.decisions, _))

instance decidableTells (s : Skipping) (event : Event) : Decidable (s.Tells event) :=
  match event with
  | .shown i => inferInstanceAs (Decidable (∀ p ∈ s.pending[i]?, _))
  | .arrive _ _ _ _ | .delete _ | .complete _ _ _ => .isTrue trivial

theorem decides_secondWithheld :
    (Runs.final step (start sampleDatabase []) secondWithheld).broadcast = [{ sampleTweet with id := 1 }] ∧
      ∀ s ∈ Runs.states step (start sampleDatabase []) secondWithheld, s.Decides :=
  ⟨by decide, (decides_iff (List.forall_mem_nil _) secondWithheld).mpr (by decide)⟩

/-- The third tweet is broadcast although the first one has been and still exists, and the second one is
withheld although nothing has been broadcast. -/
theorem not_decides_thirdArrives :
    (¬ ∀ s ∈ Runs.states step (start sampleDatabase []) thirdArrives, s.Decides) ∧
      ¬ ∀ s ∈ Runs.states step (start sampleDatabase []) firstFails, s.Decides := by
  decide

end Skipping

end Pipitor.App
