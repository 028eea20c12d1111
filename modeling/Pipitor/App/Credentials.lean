import Pipitor.App.Entries
import Pipitor.App.Lifecycle

/-!
# Credentials

`TwitterRequestExt::send`, `send_tweet_`, `init_twitter` and `init_twitter_list` unwrap the credentials that
they take from the core. The router, the manifest and the tokens change at different moments of a reload;
`credentials_available` says that the tokens are there at any time, however the reloads end.
-/

namespace Pipitor.App

open Resumption Twitter Relational
open Websub (World)

namespace Core

/-- There are credentials for every outbox that the router can yield, and for the configured user. -/
structure Available (core : Core) : Prop where
  outbox : ∀ user, core.router.Yields user →
    core.manifest.twitter.isSome = true ∧ (core.twitterTokens user).isSome = true
  user : ∀ config, core.manifest.twitter = some config → (core.twitterTokens config.user).isSome = true

/-- Connecting to Twitter does not panic, as far as the outside does not. -/
structure Connects (core : Core) : Prop where
  initTwitter : ∀ env id, core.initTwitter env id = .error .panic →
    env.ready = .error .panic ∨ env.listen = .error .panic
  initTwitterList : ∀ env id, core.initTwitterList env id = .error .panic → env.loadLastTweet = .error .panic

/-- The calls that unwrap credentials do not panic. -/
structure Unwraps (core : Core) : Prop extends Connects core where
  send : ∀ user, core.router.Yields user → core.twitterToken (some user) ≠ none
  sendTweet_ : ∀ faults tweet updateLastTweet,
    (App.sendTweet_ core faults tweet updateLastTweet).Avoids .panic
  sendEntry : ∀ faults topic entry entries, (App.sendEntry core faults topic entry entries).2 ≠ .error .panic

/-! ### What does not panic -/

section Connects

variable {core : Core}

theorem initTwitter_panic (h : ∀ config, core.manifest.twitter = some config →
    (core.twitterTokens config.user).isSome = true) {env : CoreEnv} {id : ℕ}
    (hpanic : core.initTwitter env id = .error .panic) :
    env.ready = .error .panic ∨ env.listen = .error .panic := by
  unfold initTwitter at hpanic
  cases hconfig : core.manifest.twitter with
  | none =>
    rw [hconfig] at hpanic
    cases hpanic
  | some config =>
    obtain ⟨access, haccess⟩ := Option.isSome_iff_exists.mp (h config hconfig)
    simp only [hconfig, haccess] at hpanic
    split at hpanic
    · cases hpanic
    · cases hready : env.ready with
      | error e =>
        rw [hready] at hpanic
        cases hpanic
        exact .inl rfl
      | ok u =>
        cases hlisten : env.listen with
        | error e =>
          rw [hready, hlisten] at hpanic
          cases hpanic
          exact .inr rfl
        | ok u =>
          rw [hready, hlisten] at hpanic
          cases hpanic

theorem initTwitterList_panic (h : ∀ config, core.manifest.twitter = some config →
    (core.twitterTokens config.user).isSome = true) {env : CoreEnv} {id : ℕ}
    (hpanic : core.initTwitterList env id = .error .panic) : env.loadLastTweet = .error .panic := by
  unfold initTwitterList at hpanic
  split at hpanic
  · rename_i client user stream list hconfig
    obtain ⟨access, haccess⟩ := Option.isSome_iff_exists.mp (h _ hconfig)
    dsimp only at haccess
    cases hload : env.loadLastTweet with
    | error e =>
      rw [hload] at hpanic
      cases hpanic
      rfl
    | ok u =>
      simp only [hload, haccess] at hpanic
      cases hpanic
  · cases hpanic

theorem connects (h : ∀ config, core.manifest.twitter = some config →
    (core.twitterTokens config.user).isSome = true) : core.Connects where
  initTwitter _ _ := initTwitter_panic h
  initTwitterList _ _ := initTwitterList_panic h

theorem connects_of_load {core' : Core} {env : CoreEnv} (h : core.loadTwitterTokens env = .ok core') :
    core'.Connects := by
  have hloaded := loadTwitterTokens_ok h
  refine connects fun config hconfig => ?_
  rw [hloaded.manifest] at hconfig
  exact hloaded.loaded config hconfig _ (by simp [usersOf])

end Connects

theorem avoids_check (faults : Faults) (statement : Statement) (e : AppError) :
    (check faults statement e).Avoids .panic := by
  unfold check
  split
  · exact Failure.noConfusion
  · exact Prog.avoids_done

section Available

variable {core : Core} (h : core.Available)

include h

theorem Available.twitterToken {user : Int64} (hyields : core.router.Yields user) :
    core.twitterToken (some user) ≠ none := by
  obtain ⟨hmanifest, htoken⟩ := h.outbox user hyields
  obtain ⟨config, hconfig⟩ := Option.isSome_iff_exists.mp hmanifest
  obtain ⟨access, haccess⟩ := Option.isSome_iff_exists.mp htoken
  unfold Core.twitterToken
  rw [hconfig, Option.bind_some, Option.getD_some, haccess]
  simp

theorem Available.twitterToken_none {user : Int64} (hyields : core.router.Yields user) :
    core.twitterToken none ≠ none := by
  obtain ⟨config, hconfig⟩ := Option.isSome_iff_exists.mp (h.outbox user hyields).1
  obtain ⟨access, haccess⟩ := Option.isSome_iff_exists.mp (h.user config hconfig)
  unfold Core.twitterToken
  rw [hconfig, Option.bind_some, Option.getD_none, haccess]
  simp

theorem Available.retweetOutboxes (faults : Faults) (tweet : Int64) {outboxes : List Outbox}
    (hyields : ∀ user, .twitter user ∈ outboxes → core.router.Yields user) (db : Database) :
    App.retweetOutboxes core faults tweet outboxes db ≠ .error .panic := by
  induction outboxes generalizing db with
  | nil => simp [App.retweetOutboxes]
  | cons outbox outboxes ih =>
    obtain ⟨user⟩ := outbox
    unfold App.retweetOutboxes
    split
    · simp
    split
    · simp
    rename_i db₁ _
    have hrest := ih (fun user' huser' => hyields user' (List.mem_cons_of_mem _ huser')) db₁
    split
    · rename_i hnone
      exact absurd hnone (h.twitterToken (hyields user (by simp)))
    · split
      · simp
      · rename_i e he
        rwa [he] at hrest

theorem Available.retweet (faults : Faults) (tweet : Tweet) : (App.retweet core faults tweet).Avoids .panic := by
  have houtboxes := h.retweetOutboxes faults tweet.id
    (fun user huser => Router.yields_of_routeTweet huser : ∀ user, .twitter user ∈ core.router.routeTweet tweet → _)
  have htransaction : ∀ db, retweetTransaction core faults tweet db ≠ .error .panic := by
    intro db
    have hdb := houtboxes (db.replaceTweet (.ofTweet tweet))
    unfold retweetTransaction
    split
    · simp
    split
    · split
      · simp
      · simp
    · rename_i e he
      rwa [he] at hdb
  refine Prog.Avoids.bind (avoids_check _ _ _) fun _ => Prog.avoids_attempt fun b => ?_
  have hb := htransaction b.db
  split
  · simp
  · rename_i he
    intro heq
    cases heq
    exact hb he

theorem Available.sendUnrecorded (faults : Faults) (tweet : Tweet) :
    (App.sendUnrecorded core faults tweet).Avoids .panic := by
  unfold App.sendUnrecorded
  split
  · exact Prog.avoids_done
  split
  · exact (h.retweet faults tweet).bind fun users => Prog.avoids_modify
  split
  · exact Prog.avoids_done
  rename_i hroutes
  -- a duplicate is asked for with the credentials of the configured user, and the tweet is routed
  obtain ⟨⟨user⟩, huser⟩ := List.exists_mem_of_ne_nil _ (show core.router.routeTweet tweet ≠ [] by simpa using hroutes)
  have htoken := h.twitterToken_none (Router.yields_of_routeTweet huser)
  refine Prog.Avoids.bind (avoids_check _ _ _) fun _ => Prog.Avoids.bind Prog.avoids_read fun duplicate => ?_
  refine (h.retweet faults tweet).bind fun users => ?_
  split
  · rename_i hnone
    exact absurd hnone htoken
  · exact Prog.avoids_modify

theorem Available.sendTweet_ (faults : Faults) (tweet : Tweet) (updateLastTweet : Bool) :
    (App.sendTweet_ core faults tweet updateLastTweet).Avoids .panic := by
  refine Prog.Avoids.bind Prog.avoids_modify fun _ => (avoids_check _ _ _).bind fun _ => ?_
  refine (avoids_check _ _ _).bind fun _ => Prog.Avoids.bind Prog.avoids_read fun recorded => ?_
  split
  · exact Prog.avoids_done
  refine Prog.Avoids.bind ?_ fun _ => h.sendUnrecorded faults tweet
  cases updateLastTweet with
  | false => exact Prog.avoids_done
  | true => exact (avoids_check _ _ _).bind fun _ => Prog.avoids_modify

theorem Available.postOutboxes (faults : EntryFaults) (i : ℕ) {outboxes : List Outbox}
    (hyields : ∀ user, .twitter user ∈ outboxes → core.router.Yields user) :
    (App.postOutboxes core faults i outboxes).2 ≠ .error .panic := by
  induction outboxes generalizing i with
  | nil => simp [App.postOutboxes]
  | cons outbox outboxes ih =>
    obtain ⟨user⟩ := outbox
    unfold App.postOutboxes
    split
    · simp
    split
    · rename_i hnone
      exact absurd hnone (h.twitterToken (hyields user (by simp)))
    · exact ih (i + 1) fun user' huser' => hyields user' (List.mem_cons_of_mem _ huser')

theorem Available.sendEntry (faults : EntryFaults) (topic : String) (entry : FeedEntry) (entries : Entries) :
    (App.sendEntry core faults topic entry entries).2 ≠ .error .panic := by
  unfold App.sendEntry
  split
  · simp
  split
  · simp
  split
  · simp
  split
  · simp
  · exact h.postOutboxes faults 0 fun user huser => Router.yields_of_routeEntry huser

theorem Available.unwraps : core.Unwraps where
  toConnects := connects h.user
  send _ := h.twitterToken
  sendTweet_ := h.sendTweet_
  sendEntry := h.sendEntry

end Available

/-! ### Where the credentials come from -/

section Loaded

variable {core : Core} {manifest : Manifest}

theorem available_of_needed (hvalid : manifest.validate = .ok ()) (hmanifest : core.manifest = manifest)
    (hrouter : core.router = .fromManifest manifest)
    (htokens : ∀ user ∈ neededUsers manifest, (core.twitterTokens user).isSome = true) : core.Available where
  outbox user hyields := by
    have houtbox : user ∈ manifest.twitterOutboxes := Router.yields_fromManifest (hrouter ▸ hyields)
    rw [hmanifest]
    cases hconfig : manifest.twitter with
    | none =>
      obtain ⟨-, hnone⟩ := Manifest.validate_eq_ok_iff.mp hvalid hconfig
      rw [hnone] at houtbox
      cases houtbox
    | some config =>
      refine ⟨rfl, htokens user ?_⟩
      simp [neededUsers, hconfig, usersOf, houtbox]
  user config hconfig := by
    refine htokens _ ?_
    rw [hmanifest] at hconfig
    simp [neededUsers, hconfig, usersOf]

theorem available_new {env : CoreEnv} {pool : Except Failure Pool} {db : Database}
    (h : Core.new manifest env pool = (.ok core, db)) : core.Available := by
  obtain ⟨hmanifest, hrouter, htokens⟩ := core_new_ok h
  refine available_of_needed ?_ hmanifest hrouter fun user huser => (htokens user).mpr huser
  unfold Core.new at h
  split at h
  · cases h
  · cases h
  · cases h
  · assumption

end Loaded

end Core

/-! ### The life of the `App` -/

section Calls

variable {app : App}

/-- What is done with an `App`. A reload or a reset whose future is dropped at an `await` is one of which `env`
says so. -/
inductive Method
  | replaceManifest (manifest : Manifest) (env : ReloadEnv) (w : World)
  | poll (env : PollEnv)
  | shutdown (env : ResetEnv)
  | reset (env : ResetEnv)

def Method.step (app : App) : Method → App
  | .replaceManifest manifest env w => (app.replaceManifest manifest env w).2.1
  | .poll env => (app.poll env).2
  | .shutdown env => (app.shutdown env).2
  | .reset env => (app.reset env).2

theorem core_reset (app : App) (env : ResetEnv) : (app.reset env).2.core = app.core := by
  unfold reset
  split
  · split
    · rfl
    · exact (shutdown_keeps _ env).1
  · exact (shutdown_keeps app env).1

theorem available_replaceManifest (h : app.core.Available) (manifest : Manifest) (env : ReloadEnv) (w : World) :
    (app.replaceManifest manifest env w).2.1.core.Available := by
  cases hrun : app.replaceManifest manifest env w with
  | mk r rest =>
    obtain ⟨app', w'⟩ := rest
    rcases replaceManifest_cases hrun with ⟨rfl, -⟩ | ⟨pool, applied, hvalid, -, hcases⟩
    · exact h
    rcases hcases with ⟨rfl, -, -⟩ | ⟨e, -, rfl, happly⟩
    · have hreloaded := replaceManifest_ok hrun
      exact Core.available_of_needed hvalid hreloaded.manifest_eq hreloaded.router
        fun user huser => (hreloaded.tokens user).mpr huser
    · -- the manifest of before is back, the router was not replaced, and no token is lost
      obtain ⟨happlied, -⟩ := apply_cases happly
      have hkept : ∀ user, (app.core.twitterTokens user).isSome = true →
          (applied.core.twitterTokens user).isSome = true := by
        intro user hsome
        obtain ⟨token, htoken⟩ := Option.isSome_iff_exists.mp hsome
        rw [happlied.superset user token htoken]
        rfl
      refine ⟨fun user hyields => ?_, fun config hconfig => hkept _ (h.user config hconfig)⟩
      have houtbox := h.outbox user (happlied.router ▸ hyields)
      exact ⟨houtbox.1, hkept user houtbox.2⟩

theorem available_step (h : app.core.Available) (m : Method) : (m.step app).core.Available := by
  cases m with
  | replaceManifest manifest env w => exact available_replaceManifest h manifest env w
  | poll env =>
    show (app.poll env).2.core.Available
    rwa [(poll_keeps app env).1]
  | shutdown env =>
    show (app.shutdown env).2.core.Available
    rwa [(shutdown_keeps app env).1]
  | reset env =>
    show (app.reset env).2.core.Available
    rwa [core_reset]

end Calls

/-- **Credentials are always available.** At any time after a successful `Core::new`, whatever manifests were
to replace the manifest and however the attempts ended: there are credentials for every outbox that the router
can yield and for the configured user, nothing that unwraps credentials panics, and neither does what a reload
does with the new manifest after it has loaded the tokens. -/
theorem credentials_available (manifest : Manifest) (env : CoreEnv) (pool : Except Failure Pool) (db : Database)
    (app : App) (hnew : Core.new manifest env pool = (.ok app.core, db)) (run : List Method) :
    ∀ x ∈ Runs.states Method.step app run, (x.core.Available ∧ x.core.Unwraps) ∧
      ∀ manifest (env : ReloadEnv) pool core,
        (x.begin manifest pool).core.loadTwitterTokens env.toCoreEnv = .ok core → core.Connects := by
  intro x hx
  have hx : x.core.Available := Runs.always_of_moves (I := fun x : App => x.core.Available)
    (C := fun _ _ => True) (fun x m h _ => available_step h m) (Core.available_new hnew) (fun _ _ => trivial) x hx
  exact ⟨⟨hx, hx.unwraps⟩, fun _ _ _ _ => Core.connects_of_load⟩

/-- A reset, and a reload whose synchronisation fails. -/
def calmRun : List Method :=
  [.reset calmReset, .replaceManifest (sampleManifest none [.twitter 11]) (sampleEnv (.error .pool)) sampleWorld]

theorem credentials_available_calmRun :
    ∃ app : App, app.core.manifest = sampleManifest none [.twitter 10] ∧
      ∀ x ∈ Runs.states Method.step app calmRun, (x.core.Available ∧ x.core.Unwraps) ∧
        ∀ manifest (env : ReloadEnv) pool core,
          (x.begin manifest pool).core.loadTwitterTokens env.toCoreEnv = .ok core → core.Connects :=
  ⟨{ plainApp with core := _ }, rfl, credentials_available (sampleManifest none [.twitter 10]) startEnv.toCoreEnv
    startEnv.pool sampleDatabase _ rfl calmRun⟩

end Pipitor.App
