import Pipitor.App.Broadcast
import Pipitor.Twitter.Backfill

/-!
# Tweets of the time when the program was down

The `App` with its list timeline, over the life of a database: the tasks of the timeline run, the server
answers them, `App::poll` passes one batch after the other to `send_tweets`, and the process may stop
between any two actions; a restart begins with `last_tweet` as the `since_id`.

`Handed` is what makes such a restart safe. `handed_iff` says that it is kept exactly as long as no
batch raises `last_tweet` over a gap, that is over tweets which are older than the batch and have not
been handed to `send_tweet_`.
-/

namespace Pipitor.App

open Resumption Relational Twitter

/-- No statement fails. -/
def noFaults : ℕ → Faults := fun _ _ => false

/-- `posted` are the tweets that the list shows, the newest first, and `batch` is what the present
processing was started with. -/
structure Following where
  posted : List Tweet
  tasks : Tasks
  batch : List Tweet
  sending : Sending

inductive FollowEvent
  | post (tweet : Tweet)
  | task (event : TaskEvent)
  | deliver (core : Core)
  | advance
  | complete (tweet user : Int64) (outcome : Outcome)
  | restart

namespace Following

def lastTweet (s : Following) : Option Int64 := s.sending.board.db.lastStatusId

/-- The tweets that have been handed to `send_tweet_`. -/
def IsHanded (s : Following) (tweet : Tweet) : Prop := .received tweet.id ∈ s.sending.board.log

/-- The list timeline that a start of the program makes. -/
def start (sender : RequestSender) (posted : List Tweet) (sending : Sending) : Following where
  posted
  tasks := .new sender (sending.board.db.lastStatusId.filter (0 < ·))
  batch := []
  sending

/-- The first start on a database. -/
def fresh (sender : RequestSender) (db : Database) : Following :=
  start sender [] (.fresh db.initLastTweet)

def step (sender : RequestSender) (s : Following) : FollowEvent → Following
  | .post tweet =>
    if s.posted.all (·.id < tweet.id) then { s with posted := tweet :: s.posted } else s
  | .task event => { s with tasks := s.tasks.step sender s.posted event }
  | .deliver core =>
    match s.sending.current, s.tasks.channel with
    | .step _ _, _ => s
    | _, [] => s
    | _, tweets :: channel =>
      { s with
        tasks := { s.tasks with channel }
        batch := tweets
        sending := s.sending.step (.start (.tweets core noFaults tweets)) }
  | .advance => { s with sending := s.sending.step .advance }
  | .complete tweet user outcome =>
    { s with sending := s.sending.step (.complete tweet user outcome) }
  | .restart => start sender s.posted (s.sending.step .restart)

/-- Every tweet of the list after `S` and up to `last_tweet` has been handed to `send_tweet_`. -/
def Handed (S : Int64) (s : Following) : Prop :=
  ∀ last ∈ s.lastTweet, ∀ t ∈ s.posted, S < t.id → t.id ≤ last → s.IsHanded t

/-- Where the next action raises `last_tweet`, the tweets of the list that are newer than the old
`last_tweet` and older than the batch have been handed over before. -/
def NoGap (sender : RequestSender) (s : Following) : FollowEvent → Prop
  | .advance => ∀ last ∈ s.lastTweet, (s.step sender .advance).lastTweet ≠ some last →
      ∀ t ∈ s.posted, last < t.id → (∀ b ∈ s.batch, t.id < b.id) → s.IsHanded t
  | _ => True

end Following

/-! ### What a processing does to `last_tweet` -/

/-- `last_tweet` stays, and what was handed over was so. -/
structure Quiet (b b' : Board) : Prop where
  last : b'.db.lastStatusId = b.db.lastStatusId
  received : ∀ id, .received id ∈ b.log → .received id ∈ b'.log

namespace Quiet

variable {b b' b'' : Board}

theorem refl (b : Board) : Quiet b b := ⟨rfl, fun _ => id⟩

theorem trans (h : Quiet b b') (h' : Quiet b' b'') : Quiet b b'' :=
  ⟨h'.last.trans h.last, fun id hid => h'.received id (h.received id hid)⟩

theorem complete (b : Board) (tweet user : Int64) (outcome : Outcome) :
    Quiet b (b.complete tweet user outcome) where
  last := by
    show (afterRetweet tweet user outcome b.db).lastStatusId = b.db.lastStatusId
    unfold afterRetweet
    split
    · rfl
    · rfl
  received := fun _ hid => List.mem_append_left _ hid

theorem restart {last : Int64} (h : b.db.lastStatusId = some last) : Quiet b b.restart where
  last := by
    show b.db.initLastTweet.lastStatusId = b.db.lastStatusId
    rw [Database.lastStatusId_initLastTweet, h]
    rfl
  received := fun _ => id

end Quiet

/-- What was handed over was so, and `last_tweet` keeps a value. -/
structure Grown (b b' : Board) : Prop where
  last : b.db.lastStatusId.isSome = true → b'.db.lastStatusId.isSome = true
  received : ∀ id, .received id ∈ b.log → .received id ∈ b'.log

theorem Grown.trans {b b' b'' : Board} (h : Grown b b') (h' : Grown b' b'') : Grown b b'' :=
  ⟨h'.last ∘ h.last, fun id hid => h'.received id (h.received id hid)⟩

theorem Quiet.grown {b b' : Board} (h : Quiet b b') : Grown b b' :=
  ⟨fun hb => by rwa [h.last], h.received⟩

/-- A batch that has been handed over raises `last_tweet` to its newest tweet. -/
structure Raise (batch : List Tweet) (b b' : Board) : Prop where
  newest : ∃ t last, batch.head? = some t ∧ b.db.lastStatusId = some last ∧ last < t.id ∧
    b'.db.lastStatusId = some t.id
  log : b'.log = b.log
  handed : ∀ t ∈ batch, .received t.id ∈ b.log

theorem retweetOutboxes_lastTweet {core : Core} {faults : Faults} {tweet : Int64}
    {outboxes : List Outbox} {db db' : Database} {users : List Int64}
    (h : retweetOutboxes core faults tweet outboxes db = .ok (users, db')) :
    db'.lastTweet = db.lastTweet := by
  induction outboxes generalizing db users with
  | nil =>
    cases h
    rfl
  | cons outbox outboxes ih =>
    obtain ⟨user⟩ := outbox
    unfold retweetOutboxes at h
    split at h
    · cases h
    split at h
    · cases h
    rename_i db₁ hrep
    split at h
    · cases h
    split at h
    · rename_i users₁ db₂ hrest
      cases h
      rw [ih hrest, (Database.replaceOngoing_eq_some hrep).2.1]
    · cases h

theorem retweetTransaction_lastTweet {core : Core} {faults : Faults} {tweet : Tweet}
    {db db' : Database} {users : List Int64}
    (h : retweetTransaction core faults tweet db = .ok (users, db')) :
    db'.lastTweet = db.lastTweet := by
  unfold retweetTransaction at h
  split at h
  · cases h
  split at h
  · rename_i users₁ db₁ hrun
    split at h
    · cases h
    cases h
    have hlast := retweetOutboxes_lastTweet hrun
    exact hlast
  · cases h

section Processing

variable (core : Core) (faults : Faults)

/-- A processing that leaves `last_tweet` alone. -/
abbrev Calm {α : Type} (p : Prog Board Failure α) (b : Board) : Prop :=
  Prog.Amid Quiet Quiet (fun _ b' => Quiet b b') p b

/-- Every action of a processing of the batch is quiet, or raises `last_tweet` to the batch's newest. -/
abbrev Handing (batch : List Tweet) {α : Type} (post : α → Board → Prop) (p : Prog Board Failure α)
    (b : Board) : Prop :=
  Prog.Amid Quiet (fun b b' => Quiet b b' ∨ Raise batch b b') post p b

theorem calm_check (statement : Statement) (e : AppError) (b : Board) :
    Calm (check faults statement e) b := by
  unfold check
  split
  · trivial
  · exact Quiet.refl b

theorem Calm.bind {α β : Type} {p : Prog Board Failure α} {f : α → Prog Board Failure β} {b : Board}
    (hp : Calm p b) (hf : ∀ a b', Calm (f a) b') : Calm (p >>= f) b := by
  refine Prog.amid_bind hp fun a b' hb' => ?_
  exact (hf a b').mono (fun _ _ => id) fun _ _ hb'' => hb'.trans hb''

theorem calm_modify {f : Board → Board} (h : ∀ b, Quiet b (f b)) (b : Board) :
    Calm (.modify f : Prog Board Failure Unit) b :=
  Prog.amid_modify fun b' hb' => ⟨h b', hb'.trans (h b')⟩

theorem calm_read {α : Type} (f : Board → α) (b : Board) : Calm (.read f : Prog Board Failure α) b :=
  Prog.amid_read fun b' hb' => ⟨Quiet.refl b', hb'⟩

theorem calm_spawnRetweets (tweet : Int64) (users : List Int64) (b : Board) :
    Calm (spawnRetweets tweet users) b := by
  refine calm_modify (fun b' => ?_) b
  exact ⟨rfl, fun _ hid => List.mem_append_left _ hid⟩

theorem calm_retweet (tweet : Tweet) (b : Board) : Calm (retweet core faults tweet) b := by
  refine (calm_check faults _ _ b).bind fun _ b' => ?_
  refine Prog.amid_attempt ?_ fun b'' _ => Quiet.refl b''
  intro b₁ hb₁ users b₂ hrun
  split at hrun
  · rename_i users' db htx
    cases hrun
    have hquiet : Quiet b₁ { b₁ with db, log := b₁.log ++ [.committed tweet.id users] } :=
      ⟨Database.lastStatusId_congr (retweetTransaction_lastTweet htx),
        fun _ hid => List.mem_append_left _ hid⟩
    exact ⟨hquiet, hb₁.trans hquiet⟩
  · cases hrun

theorem calm_sendUnrecorded (tweet : Tweet) (b : Board) :
    Calm (sendUnrecorded core faults tweet) b := by
  unfold sendUnrecorded
  split
  · exact Quiet.refl b
  split
  · exact (calm_retweet core faults tweet b).bind fun users b' => calm_spawnRetweets _ users b'
  split
  · exact Quiet.refl b
  refine (calm_check faults _ _ b).bind fun _ b₁ => ?_
  refine (calm_read _ b₁).bind fun duplicate b₂ => ?_
  refine (calm_retweet core faults tweet b₂).bind fun users b₃ => ?_
  split
  · trivial
  · exact calm_spawnRetweets _ users b₃

variable {batch : List Tweet}

theorem Calm.handing {α : Type} {post : α → Board → Prop} {p : Prog Board Failure α} {b : Board}
    (h : Calm p b) (hpost : ∀ a b', Quiet b b' → post a b') : Handing batch post p b :=
  h.mono (fun _ _ => Or.inl) hpost

theorem Calm.handing_bind {α β : Type} {post : β → Board → Prop} {p : Prog Board Failure α}
    {f : α → Prog Board Failure β} {b : Board} (hp : Calm p b)
    (hf : ∀ a b', Quiet b b' → Handing batch post (f a) b') : Handing batch post (p >>= f) b :=
  Prog.amid_bind (hp.handing fun _ _ => id) hf

/-- The newest tweet of a batch raises `last_tweet`, if at all, when the batch has been handed over. -/
theorem handing_raiseLastTweet {tweet : Tweet} {b : Board} (hnewest : batch.head? = some tweet)
    (hlast : b.db.lastStatusId.isSome = true) (hhanded : ∀ t ∈ batch, .received t.id ∈ b.log) :
    Handing batch (fun _ b' => Grown b b') (raiseLastTweet faults tweet.id true) b := by
  refine (calm_check faults _ _ b).handing_bind fun _ b₁ hb₁ => ?_
  refine Prog.amid_modify fun b₂ hb₂ => ?_
  have hquiet := hb₁.trans hb₂
  obtain ⟨last, hsome⟩ := Option.isSome_iff_exists.mp hlast
  rw [← hquiet.last] at hsome
  have hupdate := Database.lastStatusId_update tweet.id hsome
  refine ⟨?_, hquiet.grown.trans ⟨fun _ => by rw [hupdate]; rfl, fun _ => id⟩⟩
  by_cases hlt : last < tweet.id
  · refine Or.inr ⟨⟨tweet, last, hnewest, hsome, hlt, ?_⟩, rfl, ?_⟩
    · rw [hupdate, Database.raised, if_pos hlt]
    · exact fun t ht => hquiet.received _ (hhanded t ht)
  · refine Or.inl ⟨?_, fun _ => id⟩
    rw [hupdate, Database.raised, if_neg hlt, hsome]

/-- The processing of one tweet. The one that may raise `last_tweet` is the newest of the batch, and
the others have been handed over before it. -/
theorem handing_sendTweet_ (tweet : Tweet) (updateLastTweet : Bool) (b : Board)
    (hlast : b.db.lastStatusId.isSome = true)
    (hupdate : updateLastTweet = true → batch.head? = some tweet ∧
      ∀ t ∈ batch, t = tweet ∨ .received t.id ∈ b.log) :
    Handing batch (fun _ b' => .received tweet.id ∈ b'.log ∧ Grown b b')
      (sendTweet_ core faults tweet updateLastTweet) b := by
  have hrecord : Handing batch (fun _ b' => Quiet b b' ∧ .received tweet.id ∈ b'.log)
      (record (.received tweet.id)) b := by
    refine Prog.amid_modify fun b' hb' => ?_
    have hquiet : Quiet b' { b' with log := b'.log ++ [.received tweet.id] } :=
      ⟨rfl, fun _ hid => List.mem_append_left _ hid⟩
    exact ⟨Or.inl hquiet, hb'.trans hquiet, by simp⟩
  unfold sendTweet_
  refine Prog.amid_bind hrecord fun _ b₁ ⟨hb₁, hrec₁⟩ => ?_
  refine (calm_check faults _ _ b₁).handing_bind fun _ b₂ hb₂ => ?_
  refine (calm_check faults _ _ b₂).handing_bind fun _ b₃ hb₃ => ?_
  refine (calm_read _ b₃).handing_bind fun recorded b₄ hb₄ => ?_
  have hb := ((hb₁.trans hb₂).trans hb₃).trans hb₄
  have hrec : .received tweet.id ∈ b₄.log := ((hb₂.trans hb₃).trans hb₄).received _ hrec₁
  split
  · exact ⟨hrec, hb.grown⟩
  refine Prog.amid_bind (Q := fun _ b' => Grown b₄ b') ?_ ?_
  · cases updateLastTweet with
    | false => exact (Quiet.refl b₄).grown
    | true =>
      obtain ⟨hnewest, hothers⟩ := hupdate rfl
      refine handing_raiseLastTweet faults hnewest (by rwa [hb.last]) fun t ht => ?_
      rcases hothers t ht with rfl | hold
      · exact hrec
      · exact hb.received _ hold
  · intro _ b₅ hb₅
    refine (calm_sendUnrecorded core faults tweet b₅).handing fun _ b₆ hb₆ => ?_
    exact ⟨hb₆.received _ (hb₅.received _ hrec), (hb.grown.trans hb₅).trans hb₆.grown⟩

/-- The loop of `send_tweets`, when the tweets other than `tweets` have been handed over. -/
theorem handing_sendEach (faults : ℕ → Faults) (tweets : List Tweet) (i : ℕ) (b : Board)
    (hlast : b.db.lastStatusId.isSome = true) (hsuffix : tweets <:+ batch.reverse)
    (hhanded : ∀ t ∈ batch, t ∈ tweets ∨ .received t.id ∈ b.log) :
    Handing batch (fun _ _ => True) (sendEach core faults i tweets) b := by
  induction tweets generalizing i b with
  | nil => trivial
  | cons tweet tweets ih =>
    have hupdate : tweets.isEmpty = true → batch.head? = some tweet ∧
        ∀ t ∈ batch, t = tweet ∨ .received t.id ∈ b.log := by
      intro hempty
      obtain rfl := List.isEmpty_iff.mp hempty
      obtain ⟨init, hinit⟩ := hsuffix
      have hbatch : batch = tweet :: init.reverse := by
        rw [← List.reverse_reverse batch, ← hinit, List.reverse_append]
        rfl
      exact ⟨by rw [hbatch]; rfl, fun t ht => by simpa using hhanded t ht⟩
    refine Prog.amid_bind (handing_sendTweet_ core (faults i) tweet _ b hlast hupdate) ?_
    rintro _ b' ⟨hrec, hgrown⟩
    refine ih (i + 1) b' (hgrown.last hlast) ((List.suffix_cons tweet tweets).trans hsuffix) ?_
    intro t ht
    rcases hhanded t ht with hmem | hold
    · rcases List.mem_cons.mp hmem with rfl | hmem
      · exact Or.inr hrec
      · exact Or.inl hmem
    · exact Or.inr (hgrown.received _ hold)

theorem handing_sendTweets (faults : ℕ → Faults) (b : Board) (hlast : b.db.lastStatusId.isSome = true) :
    Handing batch (fun _ _ => True) (sendTweets core faults batch) b :=
  handing_sendEach core faults batch.reverse 0 b hlast List.suffix_rfl
    fun _ ht => Or.inl (List.mem_reverse.mpr ht)

end Processing

/-! ### Whole runs -/

namespace Following

/-- The batches have no gaps, `last_tweet` is `S` or not above the list, and the present processing is
one of its batch. -/
structure Sound (S : Int64) (s : Following) : Prop where
  distinct : s.posted.Pairwise fun t t' => t'.id < t.id
  onTheWay : ∀ tweets, s.tasks.OnTheWay tweets → Listing.Segment Tweet.id s.posted tweets
  batch : Listing.Segment Tweet.id s.posted s.batch
  current : Handing s.batch (fun _ _ => True) s.sending.current s.sending.board
  last : ∃ last, s.lastTweet = some last ∧ S ≤ last ∧ (last = S ∨ ∃ t ∈ s.posted, last ≤ t.id)

variable {sender : RequestSender} {S : Int64} {s : Following}

/-- A delivery does nothing, or starts the processing of the first batch of the channel. -/
theorem step_deliver (sender : RequestSender) (s : Following) (core : Core) :
    s.step sender (.deliver core) = s ∨
      ∃ tweets channel, s.tasks.channel = tweets :: channel ∧ s.step sender (.deliver core) =
        { s with
          tasks := { s.tasks with channel }
          batch := tweets
          sending := { s.sending with current := sendTweets core noFaults tweets } } := by
  obtain ⟨posted, tasks, batch, ⟨board, current⟩⟩ := s
  obtain ⟨sinceId, backfill, responses, channel⟩ := tasks
  cases current with
  | step update next => exact Or.inl rfl
  | done u =>
    cases channel with
    | nil => exact Or.inl rfl
    | cons tweets channel => exact Or.inr ⟨tweets, channel, rfl, rfl⟩
  | abort e =>
    cases channel with
    | nil => exact Or.inl rfl
    | cons tweets channel => exact Or.inr ⟨tweets, channel, rfl, rfl⟩

/-- An action of the present processing does nothing, is quiet, or raises `last_tweet`. -/
theorem Sound.step_advance (h : Sound S s) (sender : RequestSender) :
    Handing s.batch (fun _ _ => True) (s.step sender .advance).sending.current
        (s.step sender .advance).sending.board ∧
      (Quiet s.sending.board (s.step sender .advance).sending.board ∨
        Raise s.batch s.sending.board (s.step sender .advance).sending.board) := by
  show Handing _ _ (s.sending.step .advance).current (s.sending.step .advance).board ∧
    (Quiet _ (s.sending.step .advance).board ∨ Raise _ _ (s.sending.step .advance).board)
  rcases s.sending.step_advance with heq | ⟨update, next, hcur, heq⟩
  · rw [heq]
    exact ⟨h.current, Or.inl (Quiet.refl _)⟩
  · have hhanding := h.current
    rw [hcur] at hhanding
    obtain ⟨hguar, hnext⟩ := hhanding s.sending.board (Quiet.refl _)
    rw [heq]
    exact ⟨hnext, hguar⟩

theorem Sound.fresh (sender : RequestSender) (db : Database) :
    Sound (db.lastStatusId.getD 0) (fresh sender db) where
  distinct := List.Pairwise.nil
  onTheWay := fun _ h => absurd h Tasks.not_onTheWay_new
  batch := .nil
  current := trivial
  last := ⟨_, db.lastStatusId_initLastTweet, le_rfl, Or.inl rfl⟩

theorem Sound.answer (h : Sound S s) (request : Statuses) :
    Listing.Segment Tweet.id s.posted (request.answer Tweet.id s.posted) := by
  refine Listing.segment_page fun t ht t' ht' heq => ?_
  have hnodup : (s.posted.map Tweet.id).Nodup :=
    List.pairwise_map.mpr (h.distinct.imp fun hlt => (ne_of_lt hlt).symm)
  exact List.inj_on_of_nodup_map hnodup ht ht' heq

theorem Sound.post (h : Sound S s) {tweet : Tweet} (hnew : ∀ t ∈ s.posted, t.id < tweet.id) :
    Sound S { s with posted := tweet :: s.posted } where
  distinct := List.pairwise_cons.mpr ⟨hnew, h.distinct⟩
  onTheWay := fun tweets htweets => (h.onTheWay tweets htweets).cons hnew
  batch := h.batch.cons hnew
  current := h.current
  last := by
    obtain ⟨last, hlast, hle, hor⟩ := h.last
    refine ⟨last, hlast, hle, ?_⟩
    rcases hor with heq | ⟨t, ht, hlt⟩
    · exact Or.inl heq
    · exact Or.inr ⟨t, List.mem_cons_of_mem _ ht, hlt⟩

theorem Sound.deliver (h : Sound S s) (sender : RequestSender) (core : Core) :
    Sound S (s.step sender (.deliver core)) := by
  rcases step_deliver sender s core with heq | ⟨tweets, channel, hchannel, heq⟩
  · rwa [heq]
  · rw [heq]
    have hsome : s.sending.board.db.lastStatusId.isSome = true := by
      obtain ⟨last, hlast, -⟩ := h.last
      exact Option.isSome_iff_exists.mpr ⟨last, hlast⟩
    refine ⟨h.distinct, ?_, h.onTheWay tweets (Or.inl (by simp [hchannel])),
      handing_sendTweets core noFaults _ hsome, h.last⟩
    intro batch hbatch
    refine h.onTheWay batch ?_
    rcases hbatch with hmem | hrest
    · exact Or.inl (by rw [hchannel]; exact List.mem_cons_of_mem _ hmem)
    · exact Or.inr hrest

theorem Sound.advance (h : Sound S s) (sender : RequestSender) : Sound S (s.step sender .advance) := by
  obtain ⟨hcurrent, hguar⟩ := h.step_advance sender
  refine ⟨h.distinct, h.onTheWay, h.batch, hcurrent, ?_⟩
  obtain ⟨last, hlast, hle, hor⟩ := h.last
  rcases hguar with hquiet | hraise
  · exact ⟨last, hquiet.last.trans hlast, hle, hor⟩
  · obtain ⟨t, last', hhead, hlast', hlt, hnew⟩ := hraise.newest
    obtain rfl : last = last' := Option.some.inj (hlast.symm.trans hlast')
    exact ⟨t.id, hnew, hle.trans hlt.le, Or.inr ⟨t, h.batch.subset t (List.mem_of_head? hhead), le_rfl⟩⟩

theorem Sound.complete (h : Sound S s) (sender : RequestSender) (tweet user : Int64)
    (outcome : Outcome) : Sound S (s.step sender (.complete tweet user outcome)) := by
  rcases s.sending.step_complete tweet user outcome with ⟨-, heq⟩ | ⟨-, heq⟩
  · have hquiet := Quiet.complete s.sending.board tweet user outcome
    have hstep : s.step sender (.complete tweet user outcome) = { s with sending := { s.sending with
        board := s.sending.board.complete tweet user outcome } } := by
      rw [← heq]
      rfl
    rw [hstep]
    refine ⟨h.distinct, h.onTheWay, h.batch, h.current.stable (fun _ => hquiet.trans)
      fun _ _ => trivial, ?_⟩
    obtain ⟨last, hlast, hle, hor⟩ := h.last
    exact ⟨last, hquiet.last.trans hlast, hle, hor⟩
  · have hstep : s.step sender (.complete tweet user outcome) = s := by
      show { s with sending := s.sending.step (.complete tweet user outcome) } = s
      rw [heq]
    rwa [hstep]

theorem Sound.restart (h : Sound S s) (sender : RequestSender) : Sound S (s.step sender .restart) := by
  obtain ⟨last, hlast, hle, hor⟩ := h.last
  exact ⟨h.distinct, fun _ hbatch => absurd hbatch Tasks.not_onTheWay_new, .nil, trivial,
    last, (Quiet.restart hlast).last.trans hlast, hle, hor⟩

theorem Sound.step (h : Sound S s) (sender : RequestSender) (event : FollowEvent) :
    Sound S (s.step sender event) := by
  cases event with
  | post tweet =>
    by_cases hnew : s.posted.all (·.id < tweet.id) = true
    · rw [Following.step, if_pos hnew]
      exact h.post (by simpa using hnew)
    · rw [Following.step, if_neg hnew]
      exact h
  | task event =>
    refine ⟨h.distinct, fun batch hbatch => ?_, h.batch, h.current, h.last⟩
    rcases Tasks.onTheWay_step hbatch with hold | ⟨request, rfl⟩
    · exact h.onTheWay batch hold
    · exact h.answer request
  | deliver core => exact h.deliver sender core
  | advance => exact h.advance sender
  | complete tweet user outcome => exact h.complete sender tweet user outcome
  | restart => exact h.restart sender

theorem Handed.of_quiet (hhanded : Handed S s) {s' : Following} (hposted : s'.posted = s.posted)
    (hquiet : Quiet s.sending.board s'.sending.board) : Handed S s' := by
  intro last hlast t ht hS hle
  rw [hposted] at ht
  exact hquiet.received _ (hhanded last (hquiet.last.symm.trans hlast) t ht hS hle)

theorem Handed.post (hhanded : Handed S s) (h : Sound S s) {tweet : Tweet}
    (hnew : ∀ t ∈ s.posted, t.id < tweet.id) : Handed S { s with posted := tweet :: s.posted } := by
  intro last hlast t ht hS hle
  rcases List.mem_cons.mp ht with rfl | ht
  · obtain ⟨last', hlast', -, hor⟩ := h.last
    obtain rfl : last = last' := Option.some.inj (hlast.symm.trans hlast')
    rcases hor with rfl | ⟨t', ht', hle'⟩
    · exact absurd hle (not_le.mpr hS)
    · exact absurd (hnew t' ht') (not_lt.mpr (hle.trans hle'))
  · exact hhanded last hlast t ht hS hle

/-- The action that raises `last_tweet` keeps `Handed` exactly where it finds no gap. -/
theorem handed_raise (h : Sound S s) (hhanded : Handed S s)
    (hraise : Raise s.batch s.sending.board (s.step sender .advance).sending.board) :
    Handed S (s.step sender .advance) ↔ s.NoGap sender .advance := by
  obtain ⟨newest, last, hhead, hlast, hlt, hnew⟩ := hraise.newest
  have hmem := List.mem_of_head? hhead
  have hS : S ≤ last := by
    obtain ⟨last', hlast', hle, -⟩ := h.last
    obtain rfl : last = last' := Option.some.inj (hlast.symm.trans hlast')
    exact hle
  have hsame : ∀ t, (s.step sender .advance).IsHanded t ↔ s.IsHanded t := by
    intro t
    unfold IsHanded
    rw [hraise.log]
  constructor
  · intro hafter last' hlast' _ t ht hgt hbelow
    obtain rfl : last = last' := Option.some.inj (hlast.symm.trans hlast')
    rw [← hsame]
    exact hafter newest.id hnew t ht (lt_of_le_of_lt hS hgt) (hbelow newest hmem).le
  · intro hgap last' hlast' t ht hSt hle
    obtain rfl : newest.id = last' := Option.some.inj (hnew.symm.trans hlast')
    rw [hsame]
    by_cases hold : t.id ≤ last
    · exact hhanded last hlast t ht hSt hold
    by_cases hbelow : ∀ b ∈ s.batch, t.id < b.id
    · refine hgap last hlast ?_ t ht (not_le.mp hold) hbelow
      intro heq
      have := Option.some.inj (hnew.symm.trans heq)
      exact absurd hlt (by rw [this]; exact lt_irrefl _)
    · push Not at hbelow
      obtain ⟨b, hb, hbt⟩ := hbelow
      exact hraise.handed t (h.batch.between b hb newest hmem t ht hbt hle)

theorem handed_step (h : Sound S s) (hhanded : Handed S s) (event : FollowEvent) :
    Handed S (s.step sender event) ↔ s.NoGap sender event := by
  cases event with
  | post tweet =>
    refine iff_of_true ?_ trivial
    by_cases hnew : s.posted.all (·.id < tweet.id) = true
    · rw [Following.step, if_pos hnew]
      exact hhanded.post h (by simpa using hnew)
    · rw [Following.step, if_neg hnew]
      exact hhanded
  | task event => exact iff_of_true hhanded trivial
  | deliver core =>
    refine iff_of_true ?_ trivial
    rcases step_deliver sender s core with heq | ⟨tweets, channel, -, heq⟩
    · rwa [heq]
    · rw [heq]
      exact hhanded
  | advance =>
    rcases (h.step_advance sender).2 with hquiet | hraise
    · refine iff_of_true (hhanded.of_quiet rfl hquiet) ?_
      intro last hlast hne
      exact absurd (hquiet.last.trans hlast) hne
    · exact handed_raise h hhanded hraise
  | complete tweet user outcome =>
    refine iff_of_true ?_ trivial
    rcases s.sending.step_complete tweet user outcome with ⟨-, heq⟩ | ⟨-, heq⟩
    · refine hhanded.of_quiet rfl ?_
      show Quiet _ (s.sending.step _).board
      rw [heq]
      exact Quiet.complete _ _ _ _
    · refine hhanded.of_quiet rfl ?_
      show Quiet _ (s.sending.step _).board
      rw [heq]
      exact Quiet.refl _
  | restart =>
    refine iff_of_true ?_ trivial
    obtain ⟨last, hlast, -⟩ := h.last
    exact hhanded.of_quiet rfl (Quiet.restart hlast)

/-- **A restart skips no tweet as long as no batch raises `last_tweet` over a gap**: throughout a run
from any database every tweet of the list after the first `last_tweet` and up to the present one has been
handed to `send_tweet_`, exactly when each action of the run that raises `last_tweet` finds that the
tweets between the old `last_tweet` and the batch have been handed over. -/
theorem handed_iff (sender : RequestSender) (db : Database) (run : List FollowEvent) :
    (∀ s ∈ Runs.states (step sender) (fresh sender db) run, Handed (db.lastStatusId.getD 0) s) ↔
      ∀ m ∈ Runs.moves (step sender) (fresh sender db) run, m.1.NoGap sender m.2 :=
  Runs.always_iff_moves (I := Sound (db.lastStatusId.getD 0)) (P := Handed (db.lastStatusId.getD 0))
    (C := fun s event => s.NoGap sender event) (fun _ event hs _ _ => hs.step sender event)
    (fun _ event hs hhanded => handed_step hs hhanded event) (Sound.fresh sender db)
    (by intro last hlast t ht; cases ht) run

/-! ### A backfill of two pages -/

def sampleRequests : RequestSender :=
  ⟨sampleList.id, sampleList.delay, sampleList.interval, ⟨⟨"key", "secret"⟩, 1, ⟨"token", "secret"⟩⟩⟩

/-- The database of a program that has last seen the tweet 1. -/
def seenOne : Database := { sampleDatabase with lastTweet := ⟨[⟨0, 1⟩], by simp⟩ }

/-- The oldest of the tweets that were posted in the suspension. -/
def oldestTweet : Tweet := { sampleTweet with id := 2 }

/-- While the program is down 201 tweets are posted, of which only the oldest is routed. After its
start the first page is processed, and the process stops before the next. -/
def longSuspension : List FollowEvent :=
  .post oldestTweet ::
    (List.range 200).map (fun i => .post { sampleTweet with id := .ofNat (i + 3), user := 11 }) ++
    [.restart, .task .answerBackfill, .task .pollBackfill,
      .deliver (sampleCore { sampleManifest none [.twitter 10] with skipDuplicate := true })] ++
    List.replicate 401 .advance ++ [.restart]

/-- The first page raises `last_tweet` over the tweets of the second: the next start backfills from
there, and the oldest tweet is never handed over. -/
theorem not_handed_longSuspension :
    (¬ ∀ s ∈ Runs.states (step sampleRequests) (fresh sampleRequests seenOne) longSuspension,
        Handed 1 s) ∧
      (Runs.final (step sampleRequests) (fresh sampleRequests seenOne) longSuspension).tasks.backfill.map
        (·.sinceId) = some 202 := by
  have hfinal : (fun s : Following => s.lastTweet = some 202 ∧ oldestTweet ∈ s.posted ∧
      ¬ s.IsHanded oldestTweet ∧ s.tasks.backfill.map (·.sinceId) = some 202)
      (Runs.final (step sampleRequests) (fresh sampleRequests seenOne) longSuspension) := by
    unfold IsHanded
    decide +kernel
  obtain ⟨hlast, hposted, hnot, hbackfill⟩ := hfinal
  refine ⟨fun hall => hnot ?_, hbackfill⟩
  exact hall _ (Runs.final_mem_states _ _ _) 202 hlast oldestTweet hposted (by decide) (by decide)

end Following

end Pipitor.App
