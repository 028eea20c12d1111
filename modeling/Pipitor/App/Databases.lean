import Pipitor.App.Lifecycle

/-!
# A change of the database

`Core::new` inserts the row of `last_tweet`, and loads the tokens of all users that the manifest needs; the
subscriber is given the pool of that time. `replace_manifest` may put the pool of another database in its place.
`established_iff` says in which runs the database of the `App` still is what the rest of the program relies on.
-/

namespace Pipitor.App

open Relational Twitter
open Websub (World)

/-- The databases, by the file that a URL names. -/
structure Disk where
  file : String → ℕ
  tables : ℕ → Database

namespace Disk

/-- The tables behind the pool. -/
def behind (disk : Disk) (pool : Pool) : Database := disk.tables (disk.file pool.url)

/-- What `Core::new` asks of the outside, where the database is the one that the manifest names. `var` is the
variable `DATABASE_URL`, and `id` tells the pool from others. -/
def start (disk : Disk) (var : Option String) (manifest : Manifest) (id : ℕ) (env : AppEnv) : AppEnv :=
  { env with
    db := disk.behind ⟨manifest.databaseUrl' var, id⟩
    pool := .ok ⟨manifest.databaseUrl' var, id⟩ }

/-- The databases after a successful `Core::new`. -/
def started (disk : Disk) (var : Option String) (manifest : Manifest) : Disk :=
  let file := disk.file (manifest.databaseUrl' var)
  { disk with tables := Function.update disk.tables file (disk.tables file).initLastTweet }

end Disk

/-- A call of `replace_manifest`. -/
structure Reload where
  manifest : Manifest
  env : ReloadEnv
  world : World

namespace Reload

variable (disk : Disk) (var : Option String) (app : App) (r : Reload)

/-- The pool of the database that the manifest names, if it can be created. -/
def pool : Except Failure Pool := r.env.pool.map fun pool => { pool with url := r.manifest.databaseUrl' var }

/-- The pool that the `App` has from the beginning of the call on. -/
def used : Pool :=
  match app.newPool r.manifest { r.env with pool := r.pool var } with
  | .ok (some pool) => pool
  | _ => app.core.pool

/-- What the call asks of the outside, where the tokens are loaded from the database behind that pool. -/
def envOn : ReloadEnv := { r.env with pool := r.pool var, db := disk.behind (r.used var app) }

def outcome : Replaced := (app.replaceManifest r.manifest (r.envOn disk var app) r.world).1

def step : App := (app.replaceManifest r.manifest (r.envOn disk var app) r.world).2.1

end Reload

/-- What the rest of the program relies on: the database behind the pool has the row of `last_tweet` and the
rows that `ongoing_retweets` refers to, and it is the one of the subscriber. -/
structure Established (disk : Disk) (app : App) : Prop where
  lastTweet : (disk.behind app.core.pool).lastTweet.hasKey 0 = true
  tokens : ∀ user, app.core.router.Yields user →
    (disk.behind app.core.pool).twitterTokens.hasKey user = true
  websub : ∀ subscriber, app.websub = some subscriber →
    disk.file subscriber.pool.url = disk.file app.core.pool.url

/-- A new pool, if there is one, is of a database that has the row of `last_tweet` and is the one of the
subscriber; and those users of the new router whose tokens are not loaded because they are at hand have their
rows in the database. -/
structure Reload.Safe (disk : Disk) (var : Option String) (app : App) (r : Reload) : Prop where
  switched : ∀ pool, app.newPool r.manifest (r.envOn disk var app) = .ok (some pool) →
    (disk.behind pool).lastTweet.hasKey 0 = true ∧
      ∀ subscriber, app.websub = some subscriber → disk.file subscriber.pool.url = disk.file pool.url
  cached : ∀ user, (Router.fromManifest r.manifest).Yields user →
    (app.core.twitterTokens user).isSome = true →
      (disk.behind (r.used var app)).twitterTokens.hasKey user = true

/-! ### The database of the start -/

theorem hasKey_initLastTweet (db : Database) : db.initLastTweet.lastTweet.hasKey 0 = true := by
  unfold Database.initLastTweet
  split
  · rename_i t hinsert
    rw [Table.hasKey_of_insert hinsert]
    simp
  · rename_i hinsert
    exact Table.insert_eq_none_iff.mp hinsert

/-- The users whose tokens are not at hand have their rows in the database that they are loaded from. -/
theorem Core.hasKey_of_load {core core' : Core} {env : CoreEnv} (h : core.loadTwitterTokens env = .ok core')
    {config : Twitter} (hconfig : core.manifest.twitter = some config) {user : Int64}
    (huser : user ∈ usersOf core.manifest config) (hnone : core.twitterTokens user = none) :
    env.db.twitterTokens.hasKey user = true := by
  unfold loadTwitterTokens at h
  simp only [hconfig] at h
  cases hload : env.loadTokens with
  | error e =>
    rw [hload] at h
    cases h
  | ok u =>
    rw [hload] at h
    replace h : (if ((usersOf core.manifest config).filter fun user => (core.twitterTokens user).isNone).length =
        (env.db.twitterTokens.rows.filter (·.id ∈ (usersOf core.manifest config).filter
          fun user => (core.twitterTokens user).isNone)).length then _ else _) = Except.ok core' := h
    split at h
    · rename_i hlength
      obtain ⟨token, htoken, rfl⟩ := hasKey_of_length_eq hlength user
        (List.mem_filter.mpr ⟨huser, by rw [hnone]; rfl⟩)
      exact Table.hasKey_of_mem (List.mem_filter.mp htoken).1
    · cases h

/-- The users that a router made from the manifest can yield need tokens. -/
theorem mem_usersOf_of_yields {manifest : Manifest} (hvalid : manifest.validate = .ok ()) {user : Int64}
    (hyields : (Router.fromManifest manifest).Yields user) :
    ∃ config, manifest.twitter = some config ∧ user ∈ usersOf manifest config := by
  have houtbox := Router.yields_fromManifest hyields
  cases hconfig : manifest.twitter with
  | none =>
    obtain ⟨-, hnone⟩ := Manifest.validate_eq_ok_iff.mp hvalid hconfig
    rw [hnone] at houtbox
    cases houtbox
  | some config => exact ⟨config, rfl, by simp [usersOf, houtbox]⟩

theorem pool_gc (core : Core) : core.gcTwitterTokens.pool = core.pool := by
  unfold Core.gcTwitterTokens
  split <;> rfl

theorem core_new_load {manifest : Manifest} {env : CoreEnv} {pool : Pool} {core : Core} {db : Database}
    (h : Core.new manifest env (.ok pool) = (.ok core, db)) :
    manifest.validate = .ok () ∧ db = env.db.initLastTweet ∧
      Core.loadTwitterTokens ⟨manifest, .fromManifest manifest, pool, fun _ => none⟩
        { env with db := env.db.initLastTweet } = .ok core := by
  unfold Core.new at h
  split at h
  · cases h
  · cases h
  · cases h
  · rename_i hvalid hpool _
    cases hpool
    obtain ⟨hload, hdb⟩ := Prod.mk.inj h
    exact ⟨hvalid, hdb.symm, hload⟩

theorem initWebsub_pool {core : Core} {env : AppEnv} {w w' : World} {websub : Option Subscriber}
    (h : initWebsub core env w = (.ok websub, w')) :
    ∀ subscriber, websub = some subscriber → subscriber.pool = core.pool := by
  rintro subscriber rfl
  unfold initWebsub at h
  split at h
  · cases h
  · split at h
    · cases h
    · cases h
    · split at h
      · cases h
      · cases h
        rfl

theorem established_start {disk : Disk} {var : Option String} {manifest : Manifest} {id : ℕ} {env : AppEnv}
    {w w' : World} {app : App} (h : App.withHttpClient manifest (disk.start var manifest id env) w = (.ok app, w')) :
    Established (disk.started var manifest) app := by
  unfold withHttpClient at h
  split at h
  · cases h
  rename_i core db hnew
  split at h
  · cases h
  rename_i websub w₁ hwebsub
  split at h
  · cases h
  rename_i sources hsources
  dsimp only at h
  split at h
  · cases h
  cases h
  obtain ⟨hvalid, -, hload⟩ := core_new_load hnew
  have hloaded := Core.loadTwitterTokens_ok hload
  have hpool : core.pool = ⟨manifest.databaseUrl' var, id⟩ := hloaded.pool
  have hbehind : (disk.started var manifest).behind core.pool =
      (disk.tables (disk.file (manifest.databaseUrl' var))).initLastTweet := by
    rw [hpool]
    exact Function.update_self ..
  refine ⟨?_, fun user hyields => ?_, fun subscriber hsubscriber => ?_⟩
  · show ((disk.started var manifest).behind core.pool).lastTweet.hasKey 0 = true
    rw [hbehind]
    exact hasKey_initLastTweet _
  · show ((disk.started var manifest).behind core.pool).twitterTokens.hasKey user = true
    have hrouter : core.router = .fromManifest manifest := hloaded.router
    obtain ⟨config, hconfig, huser⟩ := mem_usersOf_of_yields hvalid (hrouter ▸ hyields)
    rw [hbehind]
    exact Core.hasKey_of_load hload hconfig huser rfl
  · show _ = disk.file core.pool.url
    rw [initWebsub_pool hwebsub subscriber hsubscriber]
    rfl

/-! ### One call -/

section Step

variable {disk : Disk} {var : Option String} {app : App} {r : Reload}

theorem used_eq {pool : Option Pool} (h : app.newPool r.manifest (r.envOn disk var app) = .ok pool) :
    r.used var app = pool.getD app.core.pool := by
  have h : app.newPool r.manifest { r.env with pool := r.pool var } = .ok pool := h
  unfold Reload.used
  rw [h]
  cases pool <;> rfl

theorem step_failed (h : ∀ old, r.outcome disk var app ≠ .ok old) :
    (r.step disk var app).core.pool = app.core.pool ∧ (r.step disk var app).core.router = app.core.router ∧
      (r.step disk var app).websub = app.websub := by
  unfold Reload.outcome at h
  unfold Reload.step
  cases hrun : app.replaceManifest r.manifest (r.envOn disk var app) r.world with
  | mk outcome rest =>
    obtain ⟨app', w'⟩ := rest
    rw [hrun] at h
    rcases replaceManifest_cases hrun with ⟨rfl, -⟩ | ⟨pool, applied, -, -, hcases⟩
    · exact ⟨rfl, rfl, rfl⟩
    rcases hcases with ⟨rfl, -, -⟩ | ⟨e, -, rfl, happly⟩
    · exact absurd rfl (h _)
    · obtain ⟨happlied, -⟩ := apply_cases happly
      refine ⟨?_, happlied.router, happlied.websub⟩
      show (pool.map fun _ => app.core.pool).getD applied.core.pool = app.core.pool
      rw [happlied.pool]
      cases pool <;> rfl

/-- One that succeeds loads the tokens that are not at hand from the database that is used from then on. -/
structure Succeeded (disk : Disk) (var : Option String) (app : App) (r : Reload) : Prop where
  pool_eq : (r.step disk var app).core.pool = r.used var app
  router_eq : (r.step disk var app).core.router = .fromManifest r.manifest
  websub_eq : (r.step disk var app).websub = app.websub
  newPool : ∃ pool, app.newPool r.manifest (r.envOn disk var app) = .ok pool
  loaded : ∀ user, (Router.fromManifest r.manifest).Yields user → app.core.twitterTokens user = none →
    (disk.behind (r.used var app)).twitterTokens.hasKey user = true

theorem step_succeeded {old : Manifest} (h : r.outcome disk var app = .ok old) : Succeeded disk var app r := by
  unfold Reload.outcome at h
  cases hrun : app.replaceManifest r.manifest (r.envOn disk var app) r.world with
  | mk outcome rest =>
    obtain ⟨app', w'⟩ := rest
    have hstep : r.step disk var app = app' := by
      unfold Reload.step
      rw [hrun]
    rw [hrun] at h
    obtain rfl : outcome = .ok old := h
    have hreloaded := replaceManifest_ok hrun
    rcases replaceManifest_cases hrun with ⟨-, ⟨e, he⟩, -⟩ | ⟨pool, applied, hvalid, hpool, hcases⟩
    · exact absurd he.symm (Replaced.ofFailure_ne_ok _ _ e)
    rcases hcases with ⟨-, hfinish, happly⟩ | ⟨e, he, -⟩
    · obtain ⟨happlied, hsources⟩ := apply_cases happly
      rcases hsources with ⟨⟨e, he⟩, -⟩ | ⟨core, hload, -, -⟩
      · cases he
      refine ⟨?_, hstep ▸ hreloaded.router, hstep ▸ hreloaded.websub_eq, ⟨pool, hpool⟩, ?_⟩
      · rw [hstep, hfinish, used_eq hpool]
        exact (pool_gc applied.core).trans happlied.pool
      · intro user hyields hnone
        obtain ⟨config, hconfig, huser⟩ := mem_usersOf_of_yields hvalid hyields
        exact Core.hasKey_of_load hload hconfig huser hnone
    · exact absurd he.symm (Replaced.ofFailure_ne_ok _ _ e)

theorem established_step (h : Established disk app) (r : Reload) :
    Established disk (r.step disk var app) ↔
      ((∃ old, r.outcome disk var app = .ok old) → r.Safe disk var app) := by
  by_cases hok : ∃ old, r.outcome disk var app = .ok old
  · obtain ⟨old, hold⟩ := hok
    have hs := step_succeeded hold
    obtain ⟨pool, hpool⟩ := hs.newPool
    have hused := used_eq hpool
    constructor
    · intro hestablished _
      refine ⟨fun p hp => ?_, fun user hyields _ => ?_⟩
      · obtain rfl : pool = some p := Except.ok.inj (hpool.symm.trans hp)
        have hpool : (r.step disk var app).core.pool = p := hs.pool_eq.trans hused
        refine ⟨hpool ▸ hestablished.lastTweet, fun subscriber hsubscriber => ?_⟩
        rw [← hpool]
        exact hestablished.websub subscriber (hs.websub_eq.trans hsubscriber)
      · rw [← hs.pool_eq]
        exact hestablished.tokens user (hs.router_eq ▸ hyields)
    · intro hsafe
      have hsafe := hsafe ⟨old, hold⟩
      have hswitched : (disk.behind (r.used var app)).lastTweet.hasKey 0 = true ∧
          ∀ subscriber, app.websub = some subscriber →
            disk.file subscriber.pool.url = disk.file (r.used var app).url := by
        rw [hused]
        cases pool with
        | none => exact ⟨h.lastTweet, h.websub⟩
        | some p => exact hsafe.switched p hpool
      refine ⟨?_, fun user hyields => ?_, fun subscriber hsubscriber => ?_⟩
      · rw [hs.pool_eq]
        exact hswitched.1
      · rw [hs.router_eq] at hyields
        rw [hs.pool_eq]
        cases hcached : app.core.twitterTokens user with
        | none => exact hs.loaded user hyields hcached
        | some token => exact hsafe.cached user hyields (by rw [hcached]; rfl)
      · rw [hs.pool_eq]
        exact hswitched.2 subscriber (hs.websub_eq.symm.trans hsubscriber)
  · obtain ⟨hpool, hrouter, hwebsub⟩ := step_failed fun old hold => hok ⟨old, hold⟩
    refine iff_of_true ⟨?_, fun user hyields => ?_, fun subscriber hsubscriber => ?_⟩ fun hold => absurd hold hok
    · rw [hpool]
      exact h.lastTweet
    · rw [hpool]
      exact h.tokens user (hrouter ▸ hyields)
    · rw [hpool]
      exact h.websub subscriber (hwebsub.symm.trans hsubscriber)

end Step

/-- **A change of the database.** After a successful start, in a run of calls of `replace_manifest`: at any time
the database of the `App` is what the program relies on, exactly if each call that succeeds is safe. -/
theorem established_iff (disk : Disk) (var : Option String) (manifest : Manifest) (id : ℕ) (env : AppEnv)
    (w w' : World) (app : App)
    (hstart : App.withHttpClient manifest (disk.start var manifest id env) w = (.ok app, w'))
    (run : List Reload) :
    let disk := disk.started var manifest
    (∀ x ∈ Runs.states (Reload.step disk var) app run, Established disk x) ↔
      ∀ m ∈ Runs.moves (Reload.step disk var) app run,
        (∃ old, m.2.outcome disk var m.1 = .ok old) → m.2.Safe disk var m.1 := by
  intro disk
  exact Runs.always_iff_moves (I := fun _ => True) (P := Established disk)
    (C := fun x r => (∃ old, Reload.outcome disk var x r = .ok old) → Reload.Safe disk var x r)
    (fun _ _ _ _ _ => trivial) (fun x r _ hx => established_step hx r) trivial (established_start hstart) run

/-- User 1 has logged in to the database of the start only, which has two names. -/
def twoFiles : Disk where
  file url := if url = "pipitor.sqlite3" ∨ url = "./pipitor.sqlite3" then 0 else 1
  tables file := if file = 0 then sampleDatabase else .empty

/-- A manifest with a subscriber. -/
def websubManifest (databaseUrl : Option String) : Manifest :=
  { sampleManifest none [.twitter 10] with
    databaseUrl
    websub := some ⟨⟨some "https", some "example.com", some "/"⟩, some "tcp://127.0.0.1:8080", 3600000000000⟩ }

/-- The environment of its start. -/
def websubEnv : AppEnv := twoFiles.start none (websubManifest none) 0 startEnv

/-- The `App` after its start. -/
def websubApp : App :=
  { listApp with
    core := match Core.new (websubManifest none) websubEnv.toCoreEnv websubEnv.pool with
      | (.ok core, _) => core
      | (.error _, _) => sampleCore (websubManifest none)
    twitterList := .empty
    list_created := by simp [ListTimeline.empty] }

theorem start_websubApp :
    App.withHttpClient (websubManifest none) websubEnv sampleWorld = (.ok websubApp, sampleWorld) := by
  have hnew : Core.new (websubManifest none) websubEnv.toCoreEnv websubEnv.pool =
      (.ok websubApp.core, sampleDatabase) := rfl
  have hcallback : prepareCallbackPrefix anyUri ⟨some "https", some "example.com", some "/"⟩ =
      .ok ⟨some "https", some "example.com", some "/"⟩ :=
    if_pos (show "/".endsWith "/" = true by decide +kernel)
  let config : WebSub := ⟨⟨some "https", some "example.com", some "/"⟩, some "tcp://127.0.0.1:8080", 3600000000000⟩
  have hservice : serviceOf websubEnv config = .ok sampleService := by
    unfold serviceOf
    rw [show prepareCallbackPrefix websubEnv.lib config.callback = _ from hcallback]
    dsimp only
    rw [show config.renewalMargin.asSecs.toUInt64 = 3600 by decide]
    rfl
  have hwebsub : initWebsub websubApp.core websubEnv sampleWorld = (.ok websubApp.websub, sampleWorld) := by
    unfold initWebsub
    rw [show websubApp.core.manifest.websub = some config from rfl]
    dsimp only
    rw [hservice]
    rfl
  unfold withHttpClient
  rw [hnew]
  dsimp only
  rw [hwebsub]
  rfl

def reloadTo (manifest : Manifest) : Reload := ⟨manifest, sampleEnv (.ok ()), sampleWorld⟩

/-- A new pool of the same database. -/
theorem established_renamed :
    App.withHttpClient (websubManifest none) websubEnv sampleWorld = (.ok websubApp, sampleWorld) ∧
      ∀ x ∈ Runs.states (Reload.step (twoFiles.started none (websubManifest none)) none) websubApp
        [reloadTo (websubManifest (some "./pipitor.sqlite3"))],
        Established (twoFiles.started none (websubManifest none)) x := by
  refine ⟨start_websubApp, (established_iff twoFiles none (websubManifest none) 0 startEnv sampleWorld sampleWorld
    websubApp start_websubApp [reloadTo (websubManifest (some "./pipitor.sqlite3"))]).mpr ?_⟩
  intro m hm _
  obtain rfl := List.mem_singleton.mp hm
  refine ⟨fun pool hpool => ?_, fun user hyields _ => ?_⟩
  · have hnew : (Except.ok (some ⟨"./pipitor.sqlite3", 1⟩) : Except Failure (Option Pool)) = .ok (some pool) := hpool
    obtain rfl := Option.some.inj (Except.ok.inj hnew)
    refine ⟨by decide, fun subscriber hsubscriber => ?_⟩
    obtain rfl := Option.some.inj hsubscriber
    decide
  · obtain rfl : user = 1 := List.mem_singleton.mp (Router.yields_fromManifest hyields)
    decide

/-- A reload to a database that has just been migrated succeeds, and nothing of it holds afterwards. -/
theorem not_established_moved :
    App.withHttpClient (websubManifest none) websubEnv sampleWorld = (.ok websubApp, sampleWorld) ∧
      let disk := twoFiles.started none (websubManifest none)
      let r := reloadTo (websubManifest (some "new.sqlite3"))
      (∃ old, r.outcome disk none websubApp = .ok old) ∧
        (disk.behind (r.step disk none websubApp).core.pool).lastTweet.hasKey 0 = false ∧
        ((r.step disk none websubApp).core.router.Yields 1 ∧
          (disk.behind (r.step disk none websubApp).core.pool).twitterTokens.hasKey 1 = false) ∧
        ∃ subscriber, (r.step disk none websubApp).websub = some subscriber ∧
          disk.file subscriber.pool.url ≠ disk.file (r.step disk none websubApp).core.pool.url := by
  refine ⟨start_websubApp, ⟨_, rfl⟩, by decide, ⟨⟨.twitter 10, ⟨none, none, [.twitter 1]⟩, ?_, ?_⟩, by decide⟩, _, rfl,
    by decide⟩
  · exact List.mem_singleton_self _
  · exact List.mem_singleton_self _

end Pipitor.App
