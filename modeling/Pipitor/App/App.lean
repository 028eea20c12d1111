import Pipitor.App.Core
import Pipitor.App.Sync

/-!
# The application

`app.rs`: the `App` with its sources (the streaming connection, the list timeline, the WebSub subscriber),
its construction, and `replace_manifest`, which switches a running `App` to another manifest.

`replace_manifest` restores the manifest and the pool by an RAII guard, so the three ways in which it
may end early (an error, a panic, its future being dropped) leave the same state behind.
-/

namespace Pipitor

open Relational Twitter
open Websub (Service Abort World)

/-- `websub::Subscriber`, with the pool that its `Service` was given. -/
structure App.Subscriber where
  service : Service
  pool : App.Pool

/-- `App`. Connections and timelines are numbered in the order of their creation; `created` is the
number of the next. -/
structure App where
  core : App.Core
  twitterList : ListTimeline
  twitter : Option App.TwitterStream
  websub : Option App.Subscriber
  created : ℕ
  twitter_created : ∀ t, twitter = some t → t.id < created
  list_created : ∀ inner, twitterList.inner = some inner → inner.id < created

namespace App

/-- A streaming connection and a list timeline that were just made. -/
structure Sources (id : ℕ) where
  twitter : Option TwitterStream
  twitterList : ListTimeline
  twitter_id : ∀ t, twitter = some t → t.id = id
  list_id : ∀ inner, twitterList.inner = some inner → inner.id = id

namespace Core

variable {core core' : Core} {env : CoreEnv} {id : ℕ}

/-! ### What the functions of `Core` return -/

theorem initTwitter_ok {twitter : Option TwitterStream} (h : core.initTwitter env id = .ok twitter) :
    match core.manifest.twitter.filter (·.stream) with
    | none => twitter = none
    | some config => ∃ access, core.twitterTokens config.user = some access ∧
        twitter = some ⟨id, ⟨config.client, config.user, access⟩, followOf core.manifest⟩ := by
  unfold initTwitter at h
  cases hm : core.manifest.twitter with
  | none =>
    rw [hm] at h
    cases h
    rfl
  | some config =>
    rw [hm] at h
    by_cases hs : config.stream = true
    · simp only [hs, Bool.not_true, Bool.false_eq_true, if_false] at h
      simp only [Option.filter_some, hs, if_true]
      cases ht : core.twitterTokens config.user with
      | none =>
        rw [ht] at h
        cases h
      | some access =>
        rw [ht] at h
        cases hr : env.ready with
        | error e =>
          rw [hr] at h
          cases h
        | ok u =>
          cases hl : env.listen with
          | error e =>
            rw [hr, hl] at h
            cases h
          | ok u =>
            rw [hr, hl] at h
            cases h
            exact ⟨access, rfl, rfl⟩
    · simp only [hs, Bool.not_false, if_true] at h
      cases h
      simp [Option.filter_some, hs]

theorem initTwitter_id {twitter : Option TwitterStream} (h : core.initTwitter env id = .ok twitter) :
    ∀ t, twitter = some t → t.id = id := by
  have hspec := initTwitter_ok h
  intro t ht
  split at hspec
  · rw [hspec] at ht
    cases ht
  · obtain ⟨access, -, heq⟩ := hspec
    rw [heq] at ht
    cases ht
    rfl

/-- The list that the manifest configures, with the credentials to poll it. -/
def listOf (manifest : Manifest) : Option (Credentials × Int64 × TwitterList) :=
  manifest.twitter.bind fun config => config.list.map fun list => (config.client, config.user, list)

theorem initTwitterList_ok {t : ListTimeline} (h : core.initTwitterList env id = .ok t) :
    match listOf core.manifest with
    | none => t = .empty
    | some (client, user, list) => ∃ access, core.twitterTokens user = some access ∧
        t = .new list (env.db.lastStatusId.filter (0 < ·)) ⟨client, user, access⟩ id := by
  unfold initTwitterList at h
  unfold listOf
  cases hm : core.manifest.twitter with
  | none =>
    rw [hm] at h
    cases h
    rfl
  | some config =>
    obtain ⟨client, user, stream, list⟩ := config
    rw [hm] at h
    cases list with
    | none =>
      cases h
      rfl
    | some list =>
      simp only [Option.bind_some, Option.map_some]
      cases hl : env.loadLastTweet with
      | error e =>
        simp only [hl] at h
        cases h
      | ok u =>
        cases ht : core.twitterTokens user with
        | none =>
          simp only [hl, ht] at h
          cases h
        | some access =>
          simp only [hl, ht] at h
          cases h
          exact ⟨access, rfl, rfl⟩

theorem initTwitterList_id {t : ListTimeline} (h : core.initTwitterList env id = .ok t) :
    ∀ inner, t.inner = some inner → inner.id = id := by
  have hspec := initTwitterList_ok h
  intro inner hi
  split at hspec
  · rw [hspec] at hi
    cases hi
  · obtain ⟨access, -, heq⟩ := hspec
    rw [heq] at hi
    cases hi
    rfl

/-- `init_twitter` followed by `init_twitter_list`. -/
def connect (core : Core) (env : CoreEnv) (id : ℕ) : Except Failure (Sources id) :=
  match ht : core.initTwitter env id, hl : core.initTwitterList env id with
  | .error e, _ => .error e
  | .ok _, .error e => .error e
  | .ok twitter, .ok twitterList =>
    .ok ⟨twitter, twitterList, initTwitter_id ht, initTwitterList_id hl⟩

theorem connect_ok {s : Sources id} (h : core.connect env id = .ok s) :
    core.initTwitter env id = .ok s.twitter ∧ core.initTwitterList env id = .ok s.twitterList := by
  unfold connect at h
  split at h
  · cases h
  · cases h
  · rename_i ht hl
    cases h
    exact ⟨ht, hl⟩

end Core

/-! ### Construction -/

/-- What the construction of an `App` asks of the outside: besides what `Core` asks, the pool, the
socket, the time and the time at which the machine was booted, the results of `Subscriber::new` and of the
final synchronisation, and the build's libraries. -/
structure AppEnv extends CoreEnv where
  pool : Except Failure Pool
  bind : Except Failure Unit
  now : UInt64
  boot : UInt64
  overflowChecks : Bool
  lib : Websub.Libraries
  sync : SyncEnv

/-- `prepare_callback_prefix`: ensure that the path ends with a slash. -/
def prepareCallbackPrefix (lib : Websub.Libraries) (callback : Uri) : Except Failure Uri :=
  match callback.pathAndQuery with
  | none => .error .panic
  | some path =>
    if path.endsWith "/" then .ok callback
    else
      let path := path ++ "/"
      let parts := { callback with pathAndQuery := some path }
      if lib.isPathAndQuery path && lib.isUriParts parts then .ok parts else .error .panic

/-- The parts of `service::Service` that come from the manifest. -/
def serviceOf (env : AppEnv) (config : WebSub) : Except Failure Service :=
  match prepareCallbackPrefix env.lib config.callback with
  | .ok callback =>
    .ok ⟨callback, (Duration.asSecs config.renewalMargin).toUInt64, env.overflowChecks, env.boot, env.lib⟩
  | .error e => .error e

/-- `App::init_websub`, with `Subscriber::new` and the removal of dangling subscriptions. -/
def initWebsub (core : Core) (env : AppEnv) (w : World) :
    Except Failure (Option Subscriber) × World :=
  match core.manifest.websub with
  | none => (.ok none, w)
  | some config =>
    match env.bind, serviceOf env config with
    | .error e, _ => (.error e, w)
    | .ok (), .error e => (.error e, w)
    | .ok (), .ok service =>
      match service.newTimer env.now w.db with
      | .error _ => (.error .panic, w)
      | .ok timer => (.ok (some ⟨service, core.pool⟩), { w with timer, db := w.db.removeDangling })

/-- The outcome of a synchronisation, as the error that the `App` returns. -/
def syncOutcome : Except Abort (Except SyncError Unit) → Except Failure Unit
  | .ok (.ok ()) => .ok ()
  | .ok (.error .pool) =>
    .error (.error (.pool "failed to retrieve a connection from the connection pool"))
  | .ok (.error (.query _)) => .error (.error .database)
  | .error _ => .error .panic

/-- `App::sync_websub_subscriptions` of this `App`. -/
def sync (app : App) (env : SyncEnv) (w : World) : Except Failure Unit × World :=
  let (r, w) := (syncWebsubSubscriptions (app.websub.map (·.service)) app.core.manifest env).run w
  (syncOutcome r, w)

/-- An `App` around fresh sources. -/
def ofSources (core : Core) (websub : Option Subscriber) (s : Sources 0) : App where
  core
  twitterList := s.twitterList
  twitter := s.twitter
  websub
  created := 1
  twitter_created := fun t ht => by rw [s.twitter_id t ht]; exact Nat.one_pos
  list_created := fun inner hi => by rw [s.list_id inner hi]; exact Nat.one_pos

/-- `App::with_http_client`. -/
def withHttpClient (manifest : Manifest) (env : AppEnv) (w : World) : Except Failure App × World :=
  match Core.new manifest env.toCoreEnv env.pool with
  | (.error e, _) => (.error e, w)
  | (.ok core, db) =>
    match initWebsub core env w with
    | (.error e, w) => (.error e, w)
    | (.ok websub, w) =>
      match core.connect { env.toCoreEnv with db } 0 with
      | .error e => (.error e, w)
      | .ok s =>
        let app := ofSources core websub s
        match app.sync env.sync w with
        | (.error e, w) => (.error e, w)
        | (.ok (), w) => (.ok app, w)

/-- Put fresh sources in the place of the present ones. -/
def adopt (app : App) (s : Sources app.created) : App :=
  { app with
    twitter := s.twitter
    twitterList := s.twitterList
    created := app.created + 1
    twitter_created := fun t ht => by rw [s.twitter_id t ht]; exact Nat.lt_succ_self _
    list_created := fun inner hi => by rw [s.list_id inner hi]; exact Nat.lt_succ_self _ }

/-! ### Replacing the manifest -/

/-- `has_updates` of `replace_manifest`. -/
def hasUpdates (old new : Manifest) : Bool :=
  match new.twitter with
  | none => false
  | some newt =>
    (match old.twitter with
      | none => true
      | some oldt => newt.client.identifier != oldt.client.identifier || newt.user != oldt.user) ||
    new.twitterTopics.any (fun user => !old.hasTopic (.twitter user)) ||
    old.twitterTopics.any (fun user => !new.hasTopic (.twitter user))

/-- How `replace_manifest` ends. -/
inductive Replaced
  | ok (old : Manifest)
  | err (e : AppError) (manifest : Manifest)
  | panicked
  | dropped

def Replaced.ofFailure (manifest : Manifest) : Failure → Replaced
  | .error e => .err e manifest
  | .panic => .panicked
  | .dropped => .dropped

structure ReloadEnv extends CoreEnv where
  pool : Except Failure Pool
  sync : SyncEnv

/-- The pool that `replace_manifest` puts in the place of the present one, if it does. -/
def newPool (app : App) (manifest : Manifest) (env : ReloadEnv) : Except Failure (Option Pool) :=
  if manifest.databaseUrl = app.core.manifest.databaseUrl then .ok none
  else match env.pool with
    | .ok pool => .ok (some pool)
    | .error e => .error e

/-- The `App` right after the manifest and the pool have been replaced. -/
def begin (app : App) (manifest : Manifest) (pool : Option Pool) : App :=
  { app with core := { app.core with manifest, pool := pool.getD app.core.pool } }

/-- The `catch` block of `replace_manifest`, after the tokens have been loaded. -/
def reconnect (app : App) (old : Manifest) (env : ReloadEnv) : Except Failure App :=
  if hasUpdates old app.core.manifest then
    match app.core.connect env.toCoreEnv app.created with
    | .ok s => .ok (app.adopt s)
    | .error e => .error e
  else .ok app

/-- The `catch` block of `replace_manifest`. -/
def apply (app : App) (old : Manifest) (env : ReloadEnv) (w : World) :
    Except Failure Unit × App × World :=
  match app.core.loadTwitterTokens env.toCoreEnv with
  | .error e => (.error e, app, w)
  | .ok core =>
    let app := { app with core }
    match app.reconnect old env with
    | .error e => (.error e, app, w)
    | .ok app =>
      let (r, w) := app.sync env.sync w
      (r, app, w)

/-- `Guard::rollback`. -/
def rollback (app : App) (old : Manifest) (oldPool : Option Pool) : App :=
  { app with core := { app.core with manifest := old, pool := oldPool.getD app.core.pool } }

/-- The end of a successful `replace_manifest`. -/
def finish (app : App) : App :=
  { app with core := { app.core.gcTwitterTokens with router := .fromManifest app.core.manifest } }

def replaceManifest (app : App) (manifest : Manifest) (env : ReloadEnv) (w : World) :
    Replaced × App × World :=
  match manifest.validate with
  | .error message => (.err (.invalid message) manifest, app, w)
  | .ok () =>
    match app.newPool manifest env with
    | .error e => (.ofFailure manifest e, app, w)
    | .ok pool =>
      let oldPool := pool.map fun _ => app.core.pool
      let old := app.core.manifest
      match (app.begin manifest pool).apply old env w with
      | (.ok (), app, w) => (.ok old, app.finish, w)
      | (.error e, app, w) => (.ofFailure app.core.manifest e, app.rollback old oldPool, w)

end App

end Pipitor
