import Mathlib.Data.List.Perm.Subperm
import Pipitor.App.App

/-!
# Replacing the manifest

What `replace_manifest` does to an `App`, whether it succeeds or not. A failure puts back the manifest and
the pool, but not a streaming connection and a list timeline that were already replaced; a success
leaves the sources as they were unless `has_updates`, and never touches the subscriber.
-/

namespace Pipitor.App

open Relational Twitter
open Websub (World)

/-! ### The tokens -/

namespace Core

variable {core core' : Core} {env : CoreEnv}

/-- What loading the tokens does: nothing is lost, and nothing but the tokens changes. -/
structure TokensLoaded (core core' : Core) : Prop where
  manifest : core'.manifest = core.manifest
  router : core'.router = core.router
  pool : core'.pool = core.pool
  superset : ∀ user token, core.twitterTokens user = some token → core'.twitterTokens user = some token
  loaded : ∀ config, core.manifest.twitter = some config →
    ∀ user ∈ usersOf core.manifest config, (core'.twitterTokens user).isSome = true
  only : ∀ user, (core'.twitterTokens user).isSome = true →
    (core.twitterTokens user).isSome = true ∨
      ∃ config, core.manifest.twitter = some config ∧ user ∈ usersOf core.manifest config

theorem hasKey_of_length_eq {t : Table TwitterToken.id} {users : List Int64}
    (hlen : users.length = (t.rows.filter (·.id ∈ users)).length) :
    ∀ user ∈ users, ∃ token ∈ t.rows.filter (·.id ∈ users), token.id = user := by
  have hids : ((t.rows.filter (·.id ∈ users)).map (·.id)).Nodup :=
    (List.Sublist.map _ List.filter_sublist).nodup t.nodup
  have hsub : (t.rows.filter (·.id ∈ users)).map (·.id) ⊆ users := by
    intro id hid
    obtain ⟨token, ht, rfl⟩ := List.mem_map.mp hid
    simpa using (List.mem_filter.mp ht).2
  have hperm : ((t.rows.filter (·.id ∈ users)).map (·.id)).Perm users := by
    refine (hids.subperm hsub).perm_of_length_le ?_
    rw [List.length_map]
    exact le_of_eq hlen
  intro user hu
  obtain ⟨token, ht, hid⟩ := List.mem_map.mp (hperm.mem_iff.mpr hu)
  exact ⟨token, ht, hid⟩

theorem find?_of_not_mem {t : Table TwitterToken.id} {users : List Int64} {user : Int64}
    (hu : user ∉ users) : (t.rows.filter (·.id ∈ users)).find? (·.id = user) = none := by
  rw [List.find?_eq_none]
  intro token ht heq
  have hmem := (List.mem_filter.mp ht).2
  rw [decide_eq_true_eq] at hmem heq
  exact hu (heq ▸ hmem)

theorem find?_of_length_eq {t : Table TwitterToken.id} {users : List Int64}
    (hlen : users.length = (t.rows.filter (·.id ∈ users)).length) {user : Int64} (hu : user ∈ users) :
    ∃ token, (t.rows.filter (·.id ∈ users)).find? (·.id = user) = some token := by
  obtain ⟨token, ht, hid⟩ := hasKey_of_length_eq hlen user hu
  rw [← Option.isSome_iff_exists, List.find?_isSome]
  exact ⟨token, ht, by simpa using hid⟩

theorem loadTwitterTokens_ok (h : core.loadTwitterTokens env = .ok core') : TokensLoaded core core' := by
  unfold loadTwitterTokens at h
  cases hm : core.manifest.twitter with
  | none =>
    rw [hm] at h
    cases h
    exact ⟨rfl, rfl, rfl, fun _ _ h => h, fun config hc => (by rw [hm] at hc; cases hc),
      fun _ h => Or.inl h⟩
  | some config =>
    simp only [hm] at h
    cases hl : env.loadTokens with
    | error e =>
      rw [hl] at h
      cases h
    | ok u =>
      rw [hl] at h
      revert h
      generalize hun : (usersOf core.manifest config).filter
        (fun user => (core.twitterTokens user).isNone) = unauthed
      intro h
      have hmem : ∀ user, user ∈ unauthed ↔
          user ∈ usersOf core.manifest config ∧ core.twitterTokens user = none := by
        intro user
        rw [← hun, List.mem_filter, Option.isNone_iff_eq_none]
      by_cases hlen : unauthed.length = (env.db.twitterTokens.rows.filter (·.id ∈ unauthed)).length
      · replace h := (if_pos hlen).symm.trans h
        cases h
        refine ⟨rfl, rfl, rfl, ?_, ?_, ?_⟩
        · intro user token ht
          have hnot : user ∉ unauthed := by simp [hmem, ht]
          simp only [find?_of_not_mem hnot]
          exact ht
        · intro config' hc user hu
          rw [hm] at hc
          cases hc
          by_cases hin : user ∈ unauthed
          · obtain ⟨token, hfind⟩ := find?_of_length_eq hlen hin
            simp only [hfind, Option.isSome_some]
          · have hsome : (core.twitterTokens user).isSome = true := by
              by_contra hnone
              exact hin ((hmem user).mpr ⟨hu, by simpa using hnone⟩)
            simp only [find?_of_not_mem hin]
            exact hsome
        · intro user hsome
          by_cases hin : user ∈ unauthed
          · exact Or.inr ⟨config, hm, ((hmem user).mp hin).1⟩
          · simp only [find?_of_not_mem hin] at hsome
            exact Or.inl hsome
      · replace h := (if_neg hlen).symm.trans h
        cases h

end Core

/-! ### What `replace_manifest` can do -/

variable {app app' : App} {manifest : Manifest} {env : ReloadEnv} {w w' : World}

/-- The new tokens are loaded and, because of updates, the new sources made. -/
def SourcesMade (app : App) (manifest : Manifest) (env : ReloadEnv) (s : Sources app.created) : Prop :=
  manifest.validate = .ok () ∧ hasUpdates app.core.manifest manifest = true ∧
    ∃ pool core, app.newPool manifest env = .ok pool ∧
      (app.begin manifest pool).core.loadTwitterTokens env.toCoreEnv = .ok core ∧
      core.connect env.toCoreEnv app.created = .ok s

/-- What the `catch` block leaves of an `App` whose manifest has just been replaced. -/
structure Applied (app : App) (manifest : Manifest) (pool : Option Pool) (env : ReloadEnv)
    (app' : App) : Prop where
  manifest : app'.core.manifest = manifest
  pool : app'.core.pool = pool.getD app.core.pool
  router : app'.core.router = app.core.router
  websub : app'.websub = app.websub
  superset : ∀ user token, app.core.twitterTokens user = some token →
    app'.core.twitterTokens user = some token

/-- The three ways through the `catch` block: it fails before any source is replaced, or all is done
but perhaps the synchronisation, with the sources of before or with new ones. -/
theorem apply_cases {pool : Option Pool} {r : Except Failure Unit}
    (h : (app.begin manifest pool).apply app.core.manifest env w = (r, app', w')) :
    Applied app manifest pool env app' ∧
      (((∃ e, r = .error e) ∧ app'.twitter = app.twitter ∧ app'.twitterList = app.twitterList ∧
          ∀ core s, (app.begin manifest pool).core.loadTwitterTokens env.toCoreEnv = .ok core →
            hasUpdates app.core.manifest manifest = true →
              core.connect env.toCoreEnv app.created ≠ .ok s) ∨
        ∃ core, (app.begin manifest pool).core.loadTwitterTokens env.toCoreEnv = .ok core ∧
          app'.core = core ∧
          ((hasUpdates app.core.manifest manifest = false ∧ app'.twitter = app.twitter ∧
              app'.twitterList = app.twitterList) ∨
            ∃ s, hasUpdates app.core.manifest manifest = true ∧
              core.connect env.toCoreEnv app.created = .ok s ∧ app'.twitter = s.twitter ∧
              app'.twitterList = s.twitterList)) := by
  unfold apply at h
  cases hl : (app.begin manifest pool).core.loadTwitterTokens env.toCoreEnv with
  | error e =>
    rw [hl] at h
    cases h
    exact ⟨⟨rfl, rfl, rfl, rfl, fun _ _ h => h⟩, Or.inl ⟨⟨e, rfl⟩, rfl, rfl, by simp⟩⟩
  | ok core =>
    have hload := Core.loadTwitterTokens_ok hl
    simp only [hl] at h
    unfold reconnect at h
    have hm : core.manifest = manifest := hload.manifest
    have happlied : ∀ app'' : App, app''.core = core → app''.websub = app.websub →
        Applied app manifest pool env app'' := by
      intro app'' hcore hweb
      refine ⟨by rw [hcore, hm], by rw [hcore, hload.pool]; rfl, by rw [hcore, hload.router]; rfl,
        hweb, ?_⟩
      rw [hcore]
      exact hload.superset
    by_cases hu : hasUpdates app.core.manifest manifest = true
    · simp only [hm, hu, if_true] at h
      cases hc : core.connect env.toCoreEnv app.created with
      | error e =>
        have hc' : core.connect env.toCoreEnv (app.begin manifest pool).created = .error e := hc
        simp only [hc'] at h
        cases h
        refine ⟨happlied _ rfl rfl, Or.inl ⟨⟨e, rfl⟩, rfl, rfl, ?_⟩⟩
        intro core' s hl' _ hs
        cases hl'
        rw [hc] at hs
        cases hs
      | ok s =>
        have hc' : core.connect env.toCoreEnv (app.begin manifest pool).created = .ok s := hc
        simp only [hc'] at h
        cases h
        exact ⟨happlied _ rfl rfl, Or.inr ⟨core, rfl, rfl, Or.inr ⟨s, hu, hc, rfl, rfl⟩⟩⟩
    · simp only [hm, hu, Bool.false_eq_true, if_false] at h
      cases h
      exact ⟨happlied _ rfl rfl, Or.inr ⟨core, rfl, rfl,
        Or.inl ⟨Bool.eq_false_iff.mpr hu, rfl, rfl⟩⟩⟩

/-- Everything that `replace_manifest` can do: fail before anything is replaced, succeed, or fail in
the `catch` block and roll back. -/
theorem replaceManifest_cases {r : Replaced}
    (h : app.replaceManifest manifest env w = (r, app', w')) :
    (app' = app ∧ (∃ e, r = .ofFailure manifest e) ∧
        (manifest.validate ≠ .ok () ∨ ∃ e, app.newPool manifest env = .error e)) ∨
      ∃ pool applied, manifest.validate = .ok () ∧ app.newPool manifest env = .ok pool ∧
        ((r = .ok app.core.manifest ∧ app' = applied.finish ∧
            (app.begin manifest pool).apply app.core.manifest env w = (.ok (), applied, w')) ∨
          ∃ e, r = .ofFailure applied.core.manifest e ∧
            app' = applied.rollback app.core.manifest (pool.map fun _ => app.core.pool) ∧
            (app.begin manifest pool).apply app.core.manifest env w = (.error e, applied, w')) := by
  unfold replaceManifest at h
  cases hv : manifest.validate with
  | error message =>
    simp only [hv] at h
    cases h
    exact Or.inl ⟨rfl, ⟨.error (.invalid message), rfl⟩, Or.inl (by simp)⟩
  | ok u =>
    cases hp : app.newPool manifest env with
    | error e =>
      simp only [hv, hp] at h
      cases h
      exact Or.inl ⟨rfl, ⟨e, rfl⟩, Or.inr ⟨e, rfl⟩⟩
    | ok pool =>
      simp only [hv, hp] at h
      refine Or.inr ⟨pool, ?_⟩
      cases ha : (app.begin manifest pool).apply app.core.manifest env w with
      | mk result rest =>
        obtain ⟨applied, w₁⟩ := rest
        rw [ha] at h
        cases result with
        | ok u =>
          cases h
          exact ⟨applied, rfl, rfl, Or.inl ⟨rfl, rfl, rfl⟩⟩
        | error e =>
          cases h
          exact ⟨applied, rfl, rfl, Or.inr ⟨e, rfl, rfl, rfl⟩⟩

theorem Replaced.ofFailure_ne_ok (manifest old : Manifest) (e : Failure) :
    Replaced.ofFailure manifest e ≠ .ok old := by
  cases e <;> simp [Replaced.ofFailure]

theorem Replaced.manifest_of_ofFailure {manifest m : Manifest} {e : Failure} {e' : AppError}
    (h : Replaced.ofFailure manifest e = .err e' m) : m = manifest := by
  cases e <;> simp [Replaced.ofFailure] at h
  exact h.2.symm

/-! ### Failures -/

/-- Nothing of `app` but its tokens has changed, these have only become more, and an error comes with
the manifest that was refused. -/
structure Atomic (app : App) (manifest : Manifest) (r : Replaced) (app' : App) : Prop where
  manifest_eq : app'.core.manifest = app.core.manifest
  router_eq : app'.core.router = app.core.router
  pool_eq : app'.core.pool = app.core.pool
  twitter_eq : app'.twitter = app.twitter
  twitterList_eq : app'.twitterList = app.twitterList
  superset : ∀ user token, app.core.twitterTokens user = some token →
    app'.core.twitterTokens user = some token
  returned : ∀ e m, r = .err e m → m = manifest

/-- The `App` has no streaming connection and no list timeline, and the manifest wants neither. -/
structure NoSources (app : App) (manifest : Manifest) : Prop where
  twitter : app.twitter = none
  twitterList : app.twitterList = .empty
  no_stream : manifest.twitter.filter (·.stream) = none
  no_list : Core.listOf manifest = none

theorem twitter_eq_none {s : Sources app.created} (h : s.twitter = app.twitter) : s.twitter = none := by
  cases hst : s.twitter with
  | none => rfl
  | some t =>
    have hid := s.twitter_id t hst
    have hlt := app.twitter_created t (by rw [← h, hst])
    omega

theorem twitterList_eq_empty {s : Sources app.created} (h : s.twitterList = app.twitterList) :
    s.twitterList = .empty := by
  cases hsl : s.twitterList.inner with
  | none =>
    cases hlist : s.twitterList with
    | mk inner =>
      rw [hlist] at hsl
      cases hsl
      rfl
  | some inner =>
    have hid := s.list_id inner hsl
    have hlt := app.list_created inner (by rw [← h, hsl])
    omega

/-- New sources are the old ones only where there are none. -/
theorem sources_eq_iff {core : Core} {env : CoreEnv} {s : Sources app.created}
    (hs : core.connect env app.created = .ok s) :
    s.twitter = app.twitter ∧ s.twitterList = app.twitterList ↔ NoSources app core.manifest := by
  obtain ⟨ht, hl⟩ := Core.connect_ok hs
  have htwitter := Core.initTwitter_ok ht
  have hlist := Core.initTwitterList_ok hl
  constructor
  · rintro ⟨heq, heql⟩
    have hnone := twitter_eq_none heq
    have hempty := twitterList_eq_empty heql
    refine ⟨by rw [← heq, hnone], by rw [← heql, hempty], ?_, ?_⟩
    · cases hf : core.manifest.twitter.filter (·.stream) with
      | none => rfl
      | some config =>
        rw [hf] at htwitter
        obtain ⟨access, -, hsome⟩ := htwitter
        rw [hnone] at hsome
        cases hsome
    · cases hf : Core.listOf core.manifest with
      | none => rfl
      | some config =>
        rw [hf] at hlist
        obtain ⟨access, -, hsome⟩ := hlist
        rw [hempty] at hsome
        cases hsome
  · intro h
    rw [h.no_stream] at htwitter
    rw [h.no_list] at hlist
    exact ⟨htwitter.trans h.twitter.symm, hlist.trans h.twitterList.symm⟩

theorem rolled_back {pool : Option Pool} (h : Applied app manifest pool env app') :
    (app'.rollback app.core.manifest (pool.map fun _ => app.core.pool)).core.manifest =
        app.core.manifest ∧
      (app'.rollback app.core.manifest (pool.map fun _ => app.core.pool)).core.router =
        app.core.router ∧
      (app'.rollback app.core.manifest (pool.map fun _ => app.core.pool)).core.pool =
        app.core.pool := by
  refine ⟨rfl, h.router, ?_⟩
  cases pool with
  | none => exact h.pool
  | some p => rfl

/-- **A failed `replace_manifest` leaves the `App` as it was** exactly when it fails before the new
sources are made, or there are no sources, neither old nor new. -/
theorem replaceManifest_atomic_iff (app app' : App) (manifest : Manifest) (env : ReloadEnv)
    (w w' : World) (r : Replaced) (hrun : app.replaceManifest manifest env w = (r, app', w'))
    (hfail : ∀ old, r ≠ .ok old) :
    Atomic app manifest r app' ↔
      (∀ s, ¬SourcesMade app manifest env s) ∨ NoSources app manifest := by
  rcases replaceManifest_cases hrun with ⟨rfl, ⟨e, rfl⟩, hwhy⟩ | ⟨pool, applied, hv, hp, hcases⟩
  · have hnone : ∀ s, ¬SourcesMade app' manifest env s := by
      rintro s ⟨hv, -, pool, core, hp, -⟩
      rcases hwhy with hinvalid | ⟨e', he'⟩
      · exact hinvalid hv
      · rw [he'] at hp
        cases hp
    exact iff_of_true
      ⟨rfl, rfl, rfl, rfl, rfl, fun _ _ h => h, fun _ _ h => Replaced.manifest_of_ofFailure h⟩
      (Or.inl hnone)
  rcases hcases with ⟨rfl, -, -⟩ | ⟨e, rfl, rfl, ha⟩
  · exact absurd rfl (hfail _)
  obtain ⟨happ, hsources⟩ := apply_cases ha
  obtain ⟨hm, hr, hpool⟩ := rolled_back happ
  have hret : ∀ e' m, Replaced.ofFailure applied.core.manifest e = .err e' m → m = manifest := by
    intro e' m h
    rw [Replaced.manifest_of_ofFailure h, happ.manifest]
  have hatomic : applied.twitter = app.twitter ∧ applied.twitterList = app.twitterList →
      Atomic app manifest (.ofFailure applied.core.manifest e)
        (applied.rollback app.core.manifest (pool.map fun _ => app.core.pool)) :=
    fun h => ⟨hm, hr, hpool, h.1, h.2, happ.superset, hret⟩
  rcases hsources with ⟨-, ht, hl, hnot⟩ | ⟨core, hload, hcore, hsources⟩
  · refine iff_of_true (hatomic ⟨ht, hl⟩) (Or.inl ?_)
    rintro s ⟨-, hu, pool', core, hp', hload, hs⟩
    rw [hp] at hp'
    cases hp'
    exact hnot core s hload hu hs
  · rcases hsources with ⟨hu, ht, hl⟩ | ⟨s, hu, hs, ht, hl⟩
    · refine iff_of_true (hatomic ⟨ht, hl⟩) (Or.inl ?_)
      rintro s ⟨-, hu', -⟩
      rw [hu] at hu'
      cases hu'
    · have hmade : SourcesMade app manifest env s := ⟨hv, hu, pool, core, hp, hload, hs⟩
      have hmanifest : core.manifest = manifest := by rw [← hcore, happ.manifest]
      have hiff := sources_eq_iff hs
      rw [hmanifest] at hiff
      constructor
      · intro h
        refine Or.inr (hiff.mp ⟨?_, ?_⟩)
        · rw [← ht]
          exact h.twitter_eq
        · rw [← hl]
          exact h.twitterList_eq
      · rintro (hnone | hnone)
        · exact absurd hmade (hnone s)
        · obtain ⟨ht', hl'⟩ := hiff.mpr hnone
          exact hatomic ⟨ht.trans ht', hl.trans hl'⟩

/-! ### A list timeline that is replaced too early -/

/-- An `App` that does not poll a list. -/
def plainApp : App where
  core := sampleCore (sampleManifest none [.twitter 10])
  twitterList := .empty
  twitter := none
  websub := none
  created := 0
  twitter_created := by simp
  list_created := by simp [ListTimeline.empty]

/-- An `App` that polls a list and has a subscriber. -/
def listApp : App where
  core := sampleCore (sampleManifest (some sampleList) [.twitter 10])
  twitterList := .new sampleList none ⟨⟨"key", "secret"⟩, 1, ⟨"token", "secret"⟩⟩ 0
  twitter := none
  websub := some ⟨sampleService, ⟨"pipitor.sqlite3", 0⟩⟩
  created := 1
  twitter_created := by simp
  list_created := by
    intro inner hi
    cases hi
    exact Nat.one_pos

/-- Nothing fails but, perhaps, the synchronisation. -/
def sampleEnv (conn : Except SyncError Unit) : ReloadEnv where
  db := .empty
  insertLastTweet := .ok ()
  loadTokens := .ok ()
  ready := .ok ()
  listen := .ok ()
  loadLastTweet := .ok ()
  pool := .ok ⟨"pipitor.sqlite3", 1⟩
  sync := { SyncEnv.calm with conn }

def sampleWorld : World := ⟨.empty, .new none, []⟩

/-- A new topic, and no connection for the synchronisation: the list timeline has been replaced. -/
theorem not_atomic_listApp :
    ∃ app', listApp.replaceManifest (sampleManifest (some sampleList) [.twitter 10, .twitter 11])
        (sampleEnv (.error .pool)) sampleWorld =
          (.err (.pool "failed to retrieve a connection from the connection pool")
            (sampleManifest (some sampleList) [.twitter 10, .twitter 11]), app', sampleWorld) ∧
      ¬Atomic listApp (sampleManifest (some sampleList) [.twitter 10, .twitter 11])
        (.err (.pool "failed to retrieve a connection from the connection pool")
          (sampleManifest (some sampleList) [.twitter 10, .twitter 11])) app' := by
  refine ⟨_, rfl, ?_⟩
  intro h
  have hid := congrArg (fun t : ListTimeline => t.inner.map (·.id)) h.twitterList_eq
  have hne : some 1 = some 0 := hid
  simp at hne

/-- Nobody has logged in, so an `App` without tokens is not reloaded, and stays as it is. -/
theorem atomic_unauthorized :
    let app : App := { listApp with core := { listApp.core with twitterTokens := fun _ => none } }
    let r : Replaced := .err (.notAuthorized
      "not all Twitter users are authorized; please run `pipitor twitter-login`")
      (sampleManifest (some sampleList) [.twitter 10, .twitter 11])
    ∃ app', Atomic app (sampleManifest (some sampleList) [.twitter 10, .twitter 11]) r app' := by
  refine ⟨_, (replaceManifest_atomic_iff _ _ _ (sampleEnv (.ok ())) sampleWorld sampleWorld _ rfl
    (fun _ h => by cases h)).mpr (Or.inl ?_)⟩
  rintro s ⟨-, -, pool, core, hp, hload, -⟩
  cases hp
  have herr : (Except.error (Failure.error (.notAuthorized
      "not all Twitter users are authorized; please run `pipitor twitter-login`")) :
      Except Failure Core) = .ok core := hload
  cases herr

/-! ### Successes -/

/-- The streaming connection is the one that the manifest asks for. -/
def StreamAs (manifest : Manifest) (twitter : Option TwitterStream) : Prop :=
  match manifest.twitter.filter (·.stream) with
  | none => twitter = none
  | some config => ∃ t, twitter = some t ∧ t.token.client = config.client ∧
      t.token.user = config.user ∧
      ∀ id, id ∈ t.follow ↔ ∃ user ∈ manifest.twitterTopics, user.toUInt64 = id

/-- The list timeline is the one that the manifest asks for. -/
def ListAs (manifest : Manifest) (twitterList : ListTimeline) : Prop :=
  match Core.listOf manifest with
  | none => twitterList.sender = none
  | some (client, user, list) => ∃ sender, twitterList.sender = some sender ∧
      sender.listId = list.id ∧ sender.period = list.interval ∧ sender.delay = list.delay ∧
      sender.token.client = client ∧ sender.token.user = user

/-- The subscriber is the one that the manifest asks for. -/
def WebsubAs (lib : Websub.Libraries) (manifest : Manifest) (websub : Option Subscriber) : Prop :=
  match manifest.websub with
  | none => websub = none
  | some config => ∃ sub, websub = some sub ∧
      prepareCallbackPrefix lib config.callback = .ok sub.service.callback ∧
      sub.service.renewalMargin = (Duration.asSecs config.renewalMargin).toUInt64

/-- The users whose tokens the manifest needs. -/
def neededUsers (manifest : Manifest) : List Int64 :=
  match manifest.twitter with
  | none => []
  | some config => usersOf manifest config

/-- The `App` is configured as the manifest says. -/
structure AsConfigured (lib : Websub.Libraries) (manifest : Manifest) (app : App) : Prop where
  stream : StreamAs manifest app.twitter
  list : ListAs manifest app.twitterList
  websub : WebsubAs lib manifest app.websub
  router : app.core.router = .fromManifest manifest
  tokens : ∀ user, (app.core.twitterTokens user).isSome = true ↔ user ∈ neededUsers manifest

/-- Dropping an element that repeats the one before it loses none. -/
theorem mem_destutter_ne {α : Type} [DecidableEq α] {x : α} :
    ∀ {l : List α}, x ∈ l.destutter (· ≠ ·) ↔ x ∈ l := by
  have haux : ∀ (l : List α) (a : α), x ∈ l.destutter' (· ≠ ·) a ↔ x = a ∨ x ∈ l := by
    intro l
    induction l with
    | nil => simp
    | cons b l ih =>
      intro a
      by_cases hab : a = b
      · rw [List.destutter'_cons_neg l (by simpa using hab), ih, hab]
        simp
      · rw [List.destutter'_cons_pos l hab, List.mem_cons, ih]
        simp
  intro l
  cases l with
  | nil => simp
  | cons a l =>
    rw [List.mem_cons]
    exact haux l a

theorem mem_followOf {id : UInt64} :
    id ∈ followOf manifest ↔ ∃ user ∈ manifest.twitterTopics, user.toUInt64 = id := by
  unfold followOf
  rw [mem_destutter_ne, (List.mergeSort_perm _ _).mem_iff, List.mem_map]

theorem streamAs_initTwitter {core : Core} {env : CoreEnv} {id : ℕ} {twitter : Option TwitterStream}
    (h : core.initTwitter env id = .ok twitter) : StreamAs core.manifest twitter := by
  have hspec := Core.initTwitter_ok h
  unfold StreamAs
  cases hf : core.manifest.twitter.filter (·.stream) with
  | none =>
    rw [hf] at hspec
    exact hspec
  | some config =>
    rw [hf] at hspec
    obtain ⟨access, -, rfl⟩ := hspec
    exact ⟨_, rfl, rfl, rfl, fun id => mem_followOf⟩

theorem listAs_initTwitterList {core : Core} {env : CoreEnv} {id : ℕ} {t : ListTimeline}
    (h : core.initTwitterList env id = .ok t) : ListAs core.manifest t := by
  have hspec := Core.initTwitterList_ok h
  unfold ListAs
  cases hf : Core.listOf core.manifest with
  | none =>
    rw [hf] at hspec
    obtain rfl := hspec
    rfl
  | some config =>
    obtain ⟨client, user, list⟩ := config
    rw [hf] at hspec
    obtain ⟨access, -, rfl⟩ := hspec
    exact ⟨_, rfl, rfl, rfl, rfl, rfl, rfl⟩

theorem gcTwitterTokens_isSome {core : Core}
    (hloaded : ∀ config, core.manifest.twitter = some config →
      ∀ user ∈ usersOf core.manifest config, (core.twitterTokens user).isSome = true) (user : Int64) :
    (core.gcTwitterTokens.twitterTokens user).isSome = true ↔ user ∈ neededUsers core.manifest := by
  unfold Core.gcTwitterTokens neededUsers
  cases hm : core.manifest.twitter with
  | none => simp
  | some config =>
    by_cases hu : user ∈ usersOf core.manifest config
    · simp [hu, hloaded config hm user hu]
    · simp [hu]

/-- What a successful `replace_manifest` leaves: the router and the tokens are those of the manifest,
the subscriber is the one of before, and so are the sources without updates. -/
structure Reloaded (app : App) (manifest : Manifest) (app' : App) : Prop where
  manifest_eq : app'.core.manifest = manifest
  router : app'.core.router = .fromManifest manifest
  tokens : ∀ user, (app'.core.twitterTokens user).isSome = true ↔ user ∈ neededUsers manifest
  websub_eq : app'.websub = app.websub
  sources : (hasUpdates app.core.manifest manifest = false ∧ app'.twitter = app.twitter ∧
      app'.twitterList = app.twitterList) ∨
    (hasUpdates app.core.manifest manifest = true ∧ StreamAs manifest app'.twitter ∧
      ListAs manifest app'.twitterList)

theorem manifest_gc (core : Core) : core.gcTwitterTokens.manifest = core.manifest := by
  unfold Core.gcTwitterTokens
  split <;> rfl

theorem replaceManifest_ok {old : Manifest}
    (h : app.replaceManifest manifest env w = (.ok old, app', w')) : Reloaded app manifest app' := by
  rcases replaceManifest_cases h with ⟨-, ⟨e, he⟩, -⟩ | ⟨pool, applied, -, -, hcases⟩
  · exact absurd he.symm (Replaced.ofFailure_ne_ok _ _ e)
  rcases hcases with ⟨-, rfl, ha⟩ | ⟨e, he, -⟩
  · obtain ⟨happ, hsources⟩ := apply_cases ha
    rcases hsources with ⟨⟨e, he⟩, -⟩ | ⟨core, hload, hcore, hsources⟩
    · cases he
    have hm : applied.core.manifest = manifest := happ.manifest
    have htok := (Core.loadTwitterTokens_ok hload)
    have hloaded : ∀ config, applied.core.manifest.twitter = some config →
        ∀ user ∈ usersOf applied.core.manifest config,
          (applied.core.twitterTokens user).isSome = true := by
      rw [hm, hcore]
      exact htok.loaded
    refine ⟨?_, ?_, ?_, happ.websub, ?_⟩
    · show applied.core.gcTwitterTokens.manifest = manifest
      rw [manifest_gc, hm]
    · show Router.fromManifest applied.core.manifest = _
      rw [hm]
    · intro user
      rw [← hm]
      exact gcTwitterTokens_isSome hloaded user
    · rcases hsources with hsame | ⟨s, hu, hs, ht, hl⟩
      · exact Or.inl hsame
      · obtain ⟨htw, htl⟩ := Core.connect_ok hs
        have hmanifest : core.manifest = manifest := by rw [← hcore, hm]
        refine Or.inr ⟨hu, ?_, ?_⟩
        · show StreamAs manifest applied.twitter
          rw [ht, ← hmanifest]
          exact streamAs_initTwitter htw
        · show ListAs manifest applied.twitterList
          rw [hl, ← hmanifest]
          exact listAs_initTwitterList htl
  · exact absurd he.symm (Replaced.ofFailure_ne_ok _ _ e)

/-! ### Reloading and restarting -/

theorem core_new_ok {core : Core} {env : CoreEnv} {pool : Except Failure Pool} {db : Database}
    (h : Core.new manifest env pool = (.ok core, db)) :
    core.manifest = manifest ∧ core.router = .fromManifest manifest ∧
      ∀ user, (core.twitterTokens user).isSome = true ↔ user ∈ neededUsers manifest := by
  unfold Core.new at h
  split at h
  · cases h
  · cases h
  · cases h
  · obtain ⟨h, -⟩ := Prod.mk.inj h
    have hload := Core.loadTwitterTokens_ok h
    refine ⟨hload.manifest, hload.router, ?_⟩
    intro user
    unfold neededUsers
    constructor
    · intro hsome
      rcases hload.only user hsome with hnone | ⟨config, hc, hu⟩
      · cases hnone
      · rw [hc]
        exact hu
    · intro hu
      cases hm : manifest.twitter with
      | none =>
        rw [hm] at hu
        cases hu
      | some config =>
        rw [hm] at hu
        exact hload.loaded config hm user hu

theorem websubAs_initWebsub {core : Core} {env : AppEnv} {websub : Option Subscriber}
    (h : initWebsub core env w = (.ok websub, w')) : WebsubAs env.lib core.manifest websub := by
  unfold initWebsub at h
  unfold WebsubAs
  cases hc : core.manifest.websub with
  | none =>
    rw [hc] at h
    cases h
    rfl
  | some config =>
    simp only [hc] at h
    split at h
    · cases h
    · cases h
    · rename_i service _ hservice
      split at h
      · cases h
      · cases h
        unfold serviceOf at hservice
        split at hservice
        · rename_i callback hcallback
          cases hservice
          exact ⟨_, rfl, hcallback, rfl⟩
        · cases hservice

/-- A fresh start configures the `App` as the manifest says. -/
theorem withHttpClient_asConfigured {env : AppEnv}
    (h : App.withHttpClient manifest env w = (.ok app, w')) :
    AsConfigured env.lib manifest app ∧ app.core.manifest = manifest := by
  unfold withHttpClient at h
  split at h
  · cases h
  rename_i core db hn
  obtain ⟨hm, hr, htokens⟩ := core_new_ok hn
  split at h
  · cases h
  rename_i websub w₁ hw
  split at h
  · cases h
  rename_i s hc
  obtain ⟨ht, hl⟩ := Core.connect_ok hc
  have hstream := streamAs_initTwitter ht
  have hlist := listAs_initTwitterList hl
  have hwebsub := websubAs_initWebsub hw
  rw [hm] at hstream hlist hwebsub
  dsimp only at h
  split at h
  · cases h
  · cases h
    exact ⟨⟨hstream, hlist, hwebsub, hr, htokens⟩, hm⟩

/-- The two manifests ask for the same streaming connection. -/
def SameStream (m m' : Manifest) : Prop :=
  match m.twitter.filter (·.stream), m'.twitter.filter (·.stream) with
  | none, none => True
  | some config, some config' => config.client = config'.client ∧ config.user = config'.user ∧
      ∀ user, user ∈ m.twitterTopics ↔ user ∈ m'.twitterTopics
  | _, _ => False

/-- The two manifests ask for the same subscriber. -/
def SameWebsub (lib : Websub.Libraries) (m m' : Manifest) : Prop :=
  match m.websub, m'.websub with
  | none, none => True
  | some config, some config' =>
      prepareCallbackPrefix lib config.callback = prepareCallbackPrefix lib config'.callback ∧
        (Duration.asSecs config.renewalMargin).toUInt64 =
          (Duration.asSecs config'.renewalMargin).toUInt64
  | _, _ => False

theorem toUInt64_injective {a b : Int64} (h : a.toUInt64 = b.toUInt64) : a = b := by
  cases a; cases b; cases h; rfl

variable {m m' : Manifest}

theorem streamAs_iff {twitter : Option TwitterStream} (h : StreamAs m twitter) :
    StreamAs m' twitter ↔ SameStream m m' := by
  unfold StreamAs at h ⊢
  unfold SameStream
  cases hm : m.twitter.filter (·.stream) with
  | none =>
    rw [hm] at h
    obtain rfl := h
    cases hm' : m'.twitter.filter (·.stream) with
    | none => simp
    | some config' => simp
  | some config =>
    rw [hm] at h
    obtain ⟨t, rfl, hclient, huser, hfollow⟩ := h
    cases hm' : m'.twitter.filter (·.stream) with
    | none => simp
    | some config' =>
      have htopics : (∀ id, id ∈ t.follow ↔ ∃ user ∈ m'.twitterTopics, user.toUInt64 = id) ↔
          ∀ user, user ∈ m.twitterTopics ↔ user ∈ m'.twitterTopics := by
        have hmem : ∀ (l : List Int64) (user : Int64),
            (∃ u ∈ l, u.toUInt64 = user.toUInt64) ↔ user ∈ l := by
          intro l user
          constructor
          · rintro ⟨u, hu, heq⟩
            rwa [← toUInt64_injective heq]
          · intro hu
            exact ⟨user, hu, rfl⟩
        constructor
        · intro h user
          rw [← hmem m.twitterTopics, ← hfollow, h, hmem]
        · intro h id
          rw [hfollow]
          simp only [h]
      constructor
      · rintro ⟨t', ht', hclient', huser', hfollow'⟩
        cases ht'
        exact ⟨hclient.symm.trans hclient', huser.symm.trans huser', htopics.mp hfollow'⟩
      · rintro ⟨hc, hu, ht⟩
        exact ⟨t, rfl, hclient.trans hc, huser.trans hu, htopics.mpr ht⟩

theorem listAs_iff {twitterList : ListTimeline} (h : ListAs m twitterList) :
    ListAs m' twitterList ↔ Core.listOf m = Core.listOf m' := by
  unfold ListAs at h ⊢
  cases hm : Core.listOf m with
  | none =>
    rw [hm] at h
    cases hm' : Core.listOf m' with
    | none => simpa using h
    | some config' =>
      have h : twitterList.sender = none := h
      simp [h]
  | some config =>
    rw [hm] at h
    obtain ⟨sender, hsender, hid, hperiod, hdelay, hclient, huser⟩ := h
    cases hm' : Core.listOf m' with
    | none => simp [hsender]
    | some config' =>
      constructor
      · rintro ⟨sender', hsender', hid', hperiod', hdelay', hclient', huser'⟩
        rw [hsender] at hsender'
        cases hsender'
        obtain ⟨client, user, ⟨id, interval, delay⟩⟩ := config
        obtain ⟨client', user', ⟨id', interval', delay'⟩⟩ := config'
        simp only at hid hperiod hdelay hclient huser hid' hperiod' hdelay' hclient' huser'
        simp only [Option.some.injEq, Prod.mk.injEq, TwitterList.mk.injEq]
        exact ⟨hclient.symm.trans hclient', huser.symm.trans huser', hid.symm.trans hid',
          hperiod.symm.trans hperiod', hdelay.symm.trans hdelay'⟩
      · intro heq
        cases heq
        exact ⟨sender, hsender, hid, hperiod, hdelay, hclient, huser⟩

theorem websubAs_iff {lib : Websub.Libraries} {websub : Option Subscriber} (h : WebsubAs lib m websub) :
    WebsubAs lib m' websub ↔ SameWebsub lib m m' := by
  unfold WebsubAs at h ⊢
  unfold SameWebsub
  cases hm : m.websub with
  | none =>
    rw [hm] at h
    obtain rfl := h
    cases hm' : m'.websub with
    | none => simp
    | some config' => simp
  | some config =>
    rw [hm] at h
    obtain ⟨sub, rfl, hcallback, hmargin⟩ := h
    cases hm' : m'.websub with
    | none => simp
    | some config' =>
      constructor
      · rintro ⟨sub', hsub', hcallback', hmargin'⟩
        cases hsub'
        exact ⟨hcallback.trans hcallback'.symm, hmargin.symm.trans hmargin'⟩
      · rintro ⟨hc, hr⟩
        exact ⟨sub, rfl, hc ▸ hcallback, hmargin.trans hr⟩

/-- **A reload agrees with a restart** exactly when the `App` has updates, or already the streaming
connection and the list timeline that the new manifest asks for, and in any case the subscriber that
it asks for. Of an `App` that its manifest configures this can be read off the two manifests. -/
theorem replaceManifest_agrees_iff (lib : Websub.Libraries) (app app' : App) (manifest old : Manifest)
    (env : ReloadEnv) (w w' : World)
    (hrun : app.replaceManifest manifest env w = (.ok old, app', w')) :
    (AsConfigured lib manifest app' ↔
      (hasUpdates app.core.manifest manifest = true ∨
        StreamAs manifest app.twitter ∧ ListAs manifest app.twitterList) ∧
      WebsubAs lib manifest app.websub) ∧
    (AsConfigured lib app.core.manifest app →
      (AsConfigured lib manifest app' ↔
        (hasUpdates app.core.manifest manifest = true ∨
          SameStream app.core.manifest manifest ∧
            Core.listOf app.core.manifest = Core.listOf manifest) ∧
        SameWebsub lib app.core.manifest manifest)) := by
  have h := replaceManifest_ok hrun
  have hgeneral : AsConfigured lib manifest app' ↔
      (hasUpdates app.core.manifest manifest = true ∨
        StreamAs manifest app.twitter ∧ ListAs manifest app.twitterList) ∧
      WebsubAs lib manifest app.websub := by
    constructor
    · intro hc
      refine ⟨?_, h.websub_eq ▸ hc.websub⟩
      rcases h.sources with ⟨-, ht, hl⟩ | ⟨hu, -⟩
      · exact Or.inr ⟨ht ▸ hc.stream, hl ▸ hc.list⟩
      · exact Or.inl hu
    · rintro ⟨hsources, hwebsub⟩
      have hboth : StreamAs manifest app'.twitter ∧ ListAs manifest app'.twitterList := by
        rcases h.sources with ⟨hu, ht, hl⟩ | ⟨-, hs⟩
        · rcases hsources with hu' | hs
          · rw [hu] at hu'
            cases hu'
          · rw [ht, hl]
            exact hs
        · exact hs
      exact ⟨hboth.1, hboth.2, h.websub_eq ▸ hwebsub, h.router, h.tokens⟩
  refine ⟨hgeneral, ?_⟩
  intro hc
  rw [hgeneral, streamAs_iff hc.stream, listAs_iff hc.list, websubAs_iff hc.websub]

/-- The manifest gains a list, which is no update, and the `App` does not poll it. -/
theorem not_asConfigured_list :
    AsConfigured anyUri (sampleManifest none [.twitter 10]) plainApp ∧
      ∃ app', plainApp.replaceManifest (sampleManifest (some sampleList) [.twitter 10])
          (sampleEnv (.ok ())) sampleWorld =
            (.ok (sampleManifest none [.twitter 10]), app', sampleWorld) ∧
        ¬AsConfigured anyUri (sampleManifest (some sampleList) [.twitter 10]) app' := by
  refine ⟨⟨rfl, rfl, rfl, rfl, ?_⟩, _, rfl, ?_⟩
  · intro user
    simp [plainApp, sampleCore, neededUsers, sampleManifest, usersOf, Manifest.twitterOutboxes,
      Manifest.outboxes]
  · rintro ⟨-, ⟨sender, hsender, -⟩, -⟩
    have hnone : (none : Option RequestSender) = some sender := hsender
    cases hnone

/-- Where it gains a topic with the list, the `App` polls it. -/
theorem asConfigured_newTopic :
    ∃ app', plainApp.replaceManifest (sampleManifest (some sampleList) [.twitter 10, .twitter 11])
        (sampleEnv (.ok ())) sampleWorld = (.ok (sampleManifest none [.twitter 10]), app', sampleWorld) ∧
      AsConfigured anyUri (sampleManifest (some sampleList) [.twitter 10, .twitter 11]) app' := by
  refine ⟨_, rfl, (replaceManifest_agrees_iff anyUri plainApp _
    (sampleManifest (some sampleList) [.twitter 10, .twitter 11]) (sampleManifest none [.twitter 10])
    (sampleEnv (.ok ())) sampleWorld sampleWorld rfl).1.mpr ⟨Or.inl ?_, rfl⟩⟩
  decide

end Pipitor.App
