import Pipitor.App.Reload
import Pipitor.Foundation.Runs

/-!
# The life of an application

`App::poll`, `App::shutdown` and `App::reset`, and the loop of `pipitor run` around them: an `App` whose
future resolves is reset and polled again, a `Reload` request replaces its manifest, and an error of
either ends the process.

`reset` ends with `shutdown`, which drops the `RequestSender` of the list timeline for good.
-/

namespace Pipitor.App

open Relational Twitter
open Websub (World)

/-! ### Polling -/

/-- What the streaming connection yields. `other` is a message that is no tweet. -/
inductive StreamItem
  | tweet (t : Tweet)
  | other
  | malformed (e : AppError)
  | failed (e : AppError)
  | ended

/-- What is ready when an `App` is polled, and how the `Sender` takes it. A `feed` is an update of a
topic, or an error of the listening socket. -/
structure PollEnv where
  batches : List (List Tweet)
  sendTweets : List Tweet → Except AppError Unit
  feeds : List (Except AppError Unit)
  stream : List StreamItem
  sendTweet : Tweet → Except AppError Unit

/-- Whether `poll_twitter` passes a tweet on. -/
def willProcess (manifest : Manifest) (tweet : Tweet) : Bool :=
  manifest.hasTopic (.twitter tweet.user) &&
    tweet.inReplyToUserId.all fun user => manifest.hasTopic (.twitter user)

/-- `TwitterStream` gone: `this.twitter.set(None)`. -/
def dropTwitter (app : App) : App :=
  { app with twitter := none, twitter_created := fun _ h => by cases h }

/-- The loop of `poll_twitter`. `none` is `Poll::Pending`. -/
def pollStream (env : PollEnv) : List StreamItem → App → Option (Except AppError Unit) × App
  | [], app => (none, app)
  | .ended :: _, app => (some (.ok ()), app.dropTwitter)
  | .failed e :: _, app => (some (.error e), app.dropTwitter)
  | .malformed e :: _, app => (some (.error e), app)
  | .other :: items, app => pollStream env items app
  | .tweet t :: items, app =>
    if willProcess app.core.manifest t then
      match env.sendTweet t with
      | .error e => (some (.error e), app)
      | .ok () => pollStream env items app
    else pollStream env items app

def pollTwitter (app : App) (env : PollEnv) : Option (Except AppError Unit) × App :=
  match app.twitter with
  | none => (some (.ok ()), app)
  | some _ => pollStream env env.stream app

/-- `App::poll`. -/
def poll (app : App) (env : PollEnv) : Option (Except AppError Unit) × App :=
  match (if app.twitterList.inner.isSome then env.batches else []).forM env.sendTweets with
  | .error e => (some (.error e), app)
  | .ok _ =>
    match (if app.websub.isSome then env.feeds else []).forM id with
    | .error e => (some (.error e), app)
    | .ok _ =>
      if app.core.manifest.twitter.any (·.stream) then app.pollTwitter env else (none, app)

/-! ### Shutting down and resetting -/

/-- What `reset` meets: the outcome of `init_twitter`'s `await`s, and the batches that are still to
come, with how the `Sender` takes them. -/
structure ResetEnv extends CoreEnv where
  batches : List (List Tweet)
  sendTweets : List Tweet → Except AppError Unit

/-- `App::shutdown`, once it resolves. -/
def shutdown (app : App) (env : ResetEnv) : Except Failure Unit × App :=
  let app := { app with
    twitterList := app.twitterList.shutdown
    list_created := fun inner hi => by
      obtain ⟨inner', hi', rfl⟩ := Option.map_eq_some_iff.mp hi
      exact app.list_created inner' hi' }
  match env.batches.forM env.sendTweets with
  | .error e => (.error (.error e), app)
  | .ok _ => (.ok (), app)

/-- Put a fresh streaming connection in place. -/
def setTwitter (app : App) (twitter : Option TwitterStream)
    (hid : ∀ t, twitter = some t → t.id = app.created) : App :=
  { app with
    twitter
    created := app.created + 1
    twitter_created := fun t ht => by rw [hid t ht]; exact Nat.lt_succ_self _
    list_created := fun inner hi => Nat.lt_succ_of_lt (app.list_created inner hi) }

/-- `App::reset`. -/
def reset (app : App) (env : ResetEnv) : Except Failure Unit × App :=
  if app.twitter.isNone then
    match h : app.core.initTwitter env.toCoreEnv app.created with
    | .error e => (.error e, app)
    | .ok twitter => (app.setTwitter twitter (Core.initTwitter_id h)).shutdown env
  else app.shutdown env

/-! ### The process -/

/-- `pipitor run`: the `App` in its loop, or the end. -/
inductive Process
  | running (app : App) (w : World)
  | exited

/-- One turn of the loop: the `App` is polled and, if it resolves, reset; a `Reload` request; a
`Shutdown` request or a signal. -/
inductive Event
  | poll (env : PollEnv) (reset : ResetEnv)
  | reload (manifest : Except AppError Manifest) (env : ReloadEnv)
  | shutdown

/-- What comes of a poll: an `App` that resolved is reset. -/
def Process.resume (resetEnv : ResetEnv) (w : World) : Option (Except AppError Unit) × App → Process
  | (none, app) => .running app w
  | (some _, app) =>
    match app.reset resetEnv with
    | (.ok (), app) => .running app w
    | (.error _, _) => .exited

/-- What comes of a reload: its failure is the end. -/
def Process.reloaded : Replaced × App × World → Process
  | (.ok _, app, w) => .running app w
  | _ => .exited

def Process.step : Process → Event → Process
  | .exited, _ => .exited
  | .running app w, .poll env resetEnv => resume resetEnv w (app.poll env)
  | .running _ _, .reload (.error _) _ => .exited
  | .running app w, .reload (.ok manifest) env => reloaded (app.replaceManifest manifest env w)
  | .running _ _, .shutdown => .exited

/-! ### The list timeline -/

/-- The manifest configures a list. -/
def WantsList (manifest : Manifest) : Prop := Core.listOf manifest ≠ none

/-- The list timeline is live whenever the manifest configures a list. -/
def ListLive : Process → Prop
  | .running app _ => WantsList app.core.manifest → app.twitterList.IsLive
  | .exited => True

/-- The event does not kill a list timeline that the manifest configures, nor does it configure one
that is not started: no reset succeeds, and a reload has updates or finds the timeline live. -/
def KeepsList : Process → Event → Prop
  | .running app _, .poll env resetEnv =>
    WantsList app.core.manifest →
      (app.poll env).1 = none ∨ ∃ e, ((app.poll env).2.reset resetEnv).1 = .error e
  | .running app w, .reload (.ok manifest) env =>
    (∃ old, (app.replaceManifest manifest env w).1 = .ok old) → WantsList manifest →
      hasUpdates app.core.manifest manifest = true ∨ app.twitterList.IsLive
  | _, _ => True

section Poll

variable {app : App} {env : PollEnv}

theorem pollStream_keeps (items : List StreamItem) (app : App) :
    (pollStream env items app).2.core = app.core ∧
      (pollStream env items app).2.twitterList = app.twitterList := by
  induction items with
  | nil => exact ⟨rfl, rfl⟩
  | cons item items ih =>
    cases item with
    | tweet t =>
      unfold pollStream
      split
      · split
        · exact ⟨rfl, rfl⟩
        · exact ih
      · exact ih
    | other => exact ih
    | malformed e => exact ⟨rfl, rfl⟩
    | failed e => exact ⟨rfl, rfl⟩
    | ended => exact ⟨rfl, rfl⟩

/-- A poll may lose the streaming connection, and nothing else. -/
theorem poll_keeps (app : App) (env : PollEnv) :
    (app.poll env).2.core = app.core ∧ (app.poll env).2.twitterList = app.twitterList := by
  unfold poll
  split
  · exact ⟨rfl, rfl⟩
  · split
    · exact ⟨rfl, rfl⟩
    · split
      · unfold pollTwitter
        split
        · exact ⟨rfl, rfl⟩
        · exact pollStream_keeps _ _
      · exact ⟨rfl, rfl⟩

end Poll

theorem shutdown_keeps (app : App) (env : ResetEnv) :
    (app.shutdown env).2.core = app.core ∧ (app.shutdown env).2.twitterList.sender = none := by
  unfold shutdown
  dsimp only
  split
  · exact ⟨rfl, ListTimeline.sender_shutdown _⟩
  · exact ⟨rfl, ListTimeline.sender_shutdown _⟩

/-- A successful reset leaves a list timeline without a `RequestSender`. -/
theorem reset_ok {app app' : App} {env : ResetEnv} (h : app.reset env = (.ok (), app')) :
    app'.core = app.core ∧ ¬app'.twitterList.IsLive := by
  have hshut : ∀ app₀ : App, app₀.core = app.core → app₀.shutdown env = (.ok (), app') →
      app'.core = app.core ∧ ¬app'.twitterList.IsLive := by
    intro app₀ hcore h
    obtain ⟨hc, hs⟩ := shutdown_keeps app₀ env
    rw [h] at hc hs
    refine ⟨hc.trans hcore, ?_⟩
    rw [ListTimeline.isLive_iff, hs]
    simp
  unfold reset at h
  split at h
  · split at h
    · cases h
    · rename_i twitter ht
      exact hshut (app.setTwitter twitter (Core.initTwitter_id ht)) rfl h
  · exact hshut app rfl h

theorem isLive_of_listAs {manifest : Manifest} {t : ListTimeline} (h : ListAs manifest t)
    (hw : WantsList manifest) : t.IsLive := by
  unfold ListAs at h
  rw [ListTimeline.isLive_iff]
  split at h
  · rename_i hnone
    exact absurd hnone hw
  · obtain ⟨sender, hsender, -⟩ := h
    rw [hsender]
    rfl

theorem listLive_resume {app : App} {env : PollEnv} {resetEnv : ResetEnv} {w : World}
    (hp : ListLive (.running app w)) :
    ListLive (.resume resetEnv w (app.poll env)) ↔
      (WantsList app.core.manifest →
        (app.poll env).1 = none ∨ ∃ e, ((app.poll env).2.reset resetEnv).1 = .error e) := by
  obtain ⟨hcore, hlist⟩ := poll_keeps app env
  cases hpoll : app.poll env with
  | mk result app₁ =>
    rw [hpoll] at hcore hlist
    cases result with
    | none =>
      refine iff_of_true ?_ fun _ => Or.inl rfl
      show WantsList app₁.core.manifest → app₁.twitterList.IsLive
      rw [hcore, hlist]
      exact hp
    | some r =>
      cases hreset : app₁.reset resetEnv with
      | mk result app₂ =>
        cases result with
        | error e =>
          have hexit : Process.resume resetEnv w (some r, app₁) = .exited := by
            simp only [Process.resume, hreset]
          rw [hexit]
          exact iff_of_true trivial fun _ => Or.inr ⟨e, rfl⟩
        | ok u =>
          have hrun : Process.resume resetEnv w (some r, app₁) = .running app₂ w := by
            simp only [Process.resume, hreset]
          obtain ⟨hcore', hdead⟩ := reset_ok hreset
          rw [hrun]
          show (WantsList app₂.core.manifest → app₂.twitterList.IsLive) ↔ _
          rw [hcore', hcore]
          constructor
          · intro h hw
            exact absurd (h hw) hdead
          · intro h hw
            rcases h hw with hnone | ⟨e, he⟩
            · cases hnone
            · cases he

theorem listLive_reloaded {app : App} {manifest : Manifest} {env : ReloadEnv} {w : World} :
    ListLive (.reloaded (app.replaceManifest manifest env w)) ↔
      ((∃ old, (app.replaceManifest manifest env w).1 = .ok old) → WantsList manifest →
        hasUpdates app.core.manifest manifest = true ∨ app.twitterList.IsLive) := by
  cases hrep : app.replaceManifest manifest env w with
  | mk result rest =>
    obtain ⟨app', w'⟩ := rest
    cases result with
    | ok old =>
      have h := replaceManifest_ok hrep
      show (WantsList app'.core.manifest → app'.twitterList.IsLive) ↔ _
      rw [h.manifest_eq]
      constructor
      · intro hlive _ hw
        rcases h.sources with ⟨-, -, hl⟩ | ⟨hu, -⟩
        · exact Or.inr (hl ▸ hlive hw)
        · exact Or.inl hu
      · intro hkeep hw
        rcases h.sources with ⟨hu, -, hl⟩ | ⟨-, -, hlist⟩
        · rcases hkeep ⟨old, rfl⟩ hw with hu' | hlive
          · rw [hu] at hu'
            cases hu'
          · rw [hl]
            exact hlive
        · exact isLive_of_listAs hlist hw
    | err e m => exact iff_of_true trivial (by rintro ⟨old, hold⟩; cases hold)
    | panicked => exact iff_of_true trivial (by rintro ⟨old, hold⟩; cases hold)
    | dropped => exact iff_of_true trivial (by rintro ⟨old, hold⟩; cases hold)

/-- From a state in which the timeline is as it should be, it stays so by exactly these events. -/
theorem listLive_step (p : Process) (e : Event) (hp : ListLive p) :
    ListLive (p.step e) ↔ KeepsList p e := by
  cases p with
  | exited => exact iff_of_true trivial trivial
  | running app w =>
    cases e with
    | shutdown => exact iff_of_true trivial trivial
    | poll env resetEnv => exact listLive_resume hp
    | reload manifest env =>
      cases manifest with
      | error e => exact iff_of_true trivial trivial
      | ok manifest => exact listLive_reloaded

/-- **A configured list is polled** throughout a run of the process exactly when no event of the run
kills or fails to start its timeline. -/
theorem list_live_iff (manifest : Manifest) (env : AppEnv) (app : App) (w w' : World)
    (hstart : App.withHttpClient manifest env w = (.ok app, w')) (run : List Event) :
    (∀ p ∈ Runs.states Process.step (.running app w') run, ListLive p) ↔
      ∀ mv ∈ Runs.moves Process.step (.running app w') run, KeepsList mv.1 mv.2 := by
  obtain ⟨hconf, hm⟩ := withHttpClient_asConfigured hstart
  refine Runs.always_iff_moves (I := fun _ => True) (fun _ _ _ _ _ => trivial)
    (fun p e _ hp => listLive_step p e hp) trivial ?_ run
  intro hw
  rw [hm] at hw
  exact isLive_of_listAs hconf.list hw

/-! ### A batch that fails -/

/-- A start in which nothing fails. -/
def startEnv : AppEnv where
  db := sampleDatabase
  insertLastTweet := .ok ()
  loadTokens := .ok ()
  ready := .ok ()
  listen := .ok ()
  loadLastTweet := .ok ()
  pool := .ok ⟨"pipitor.sqlite3", 0⟩
  bind := .ok ()
  now := 0
  boot := 0
  overflowChecks := true
  lib := anyUri
  sync := .calm

/-- A tweet arrives, and the database refuses it. -/
def failingPoll : PollEnv :=
  ⟨[[⟨5, "text", none, none, 10, none, none⟩]], fun _ => .error .database, [], [], fun _ => .ok ()⟩

def calmReset : ResetEnv := { startEnv.toCoreEnv with batches := [], sendTweets := fun _ => .ok () }

/-- After an error of the database and a successful reset the list is polled no more. -/
theorem list_dead_after_reset :
    ∃ app app', App.withHttpClient (sampleManifest (some sampleList) [.twitter 10]) startEnv
        sampleWorld = (.ok app, sampleWorld) ∧
      Process.step (.running app sampleWorld) (.poll failingPoll calmReset) =
        .running app' sampleWorld ∧
      ¬ListLive (.running app' sampleWorld) := by
  refine ⟨_, _, rfl, rfl, ?_⟩
  intro h
  have hwants : WantsList (sampleManifest (some sampleList) [.twitter 10]) :=
    Option.some_ne_none (Credentials.mk "key" "secret", (1 : Int64), sampleList)
  have hlive := ListTimeline.isLive_iff.mp (h hwants)
  cases hlive

/-- The list yields nothing, the manifest gains a topic, and the database refuses the list's first tweet and, in
the reset, its last. -/
def endingRun : List Event :=
  [.poll ⟨[], fun _ => .ok (), [], [], fun _ => .ok ()⟩ calmReset,
    .reload (.ok (sampleManifest (some sampleList) [.twitter 10, .twitter 11])) (sampleEnv (.ok ())),
    .poll failingPoll
      { calmReset with batches := failingPoll.batches, sendTweets := fun _ => .error .database }]

/-- The list is polled as long as the process goes on. -/
theorem list_live_endingRun :
    ∃ app, App.withHttpClient (sampleManifest (some sampleList) [.twitter 10]) startEnv sampleWorld =
        (.ok app, sampleWorld) ∧
      ∀ p ∈ Runs.states Process.step (.running app sampleWorld) endingRun, ListLive p := by
  refine ⟨_, rfl, (list_live_iff (sampleManifest (some sampleList) [.twitter 10]) startEnv _ sampleWorld
    sampleWorld rfl _).mpr ?_⟩
  intro mv hmv
  rcases List.mem_cons.mp hmv with rfl | hmv
  · exact fun _ => Or.inl rfl
  rcases List.mem_cons.mp hmv with rfl | hmv
  · exact fun _ _ => Or.inl rfl
  obtain rfl := List.mem_singleton.mp hmv
  exact fun _ => Or.inr ⟨_, rfl⟩

end Pipitor.App
