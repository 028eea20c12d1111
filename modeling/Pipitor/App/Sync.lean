import Mathlib.Data.List.Dedup
import Pipitor.Websub.Service

/-!
# Synchronising the subscriptions with the manifest

`App::sync_websub_subscriptions`: subscribe to the new topics, fetch the feeds of the known ones,
unsubscribe from the others. The last part never happens: the query for the subscribed topics only
returns topics of the manifest.
-/

namespace Pipitor.App

open Resumption Relational Websub

/-- The errors that `sync_websub_subscriptions` returns. -/
inductive SyncError
  | pool
  | query (e : DbError)
deriving DecidableEq, Repr

/-- What the surroundings decide: whether a connection is available and the query succeeds, and the
iteration orders of the two `HashSet`s and of the rows of a query. -/
structure SyncEnv where
  conn : Except SyncError Unit
  load : Except SyncError Unit
  topics : RowOrder String
  subscribed : RowOrder String
  rows : RowOrder Subscription

/-- `service::Service::discover_and_subscribe`, spawned. Building the request is eager. -/
def discoverAndSubscribe (svc : Service) (topic : String) : Prog World Abort Unit :=
  if svc.lib.isUri topic then spawn (.discoverAndSubscribe topic) else .abort .uri

/-- `service::Service::discover`, spawned. -/
def discover (svc : Service) (topic : String) : Prog World Abort Unit :=
  if svc.lib.isUri topic then spawn (.discover topic) else .abort .uri

/-- `websub_subscriptions::topic` where it is any of `topics`, as a set. -/
def subscribedTopics (topics : List String) (db : Database) : List String :=
  ((db.subscriptions.rows.map (·.topic)).filter (· ∈ topics)).dedup

/-- `App::sync_websub_subscriptions`. A run that does not abort returns. -/
def syncWebsubSubscriptions (websub : Option Service) (manifest : Manifest) (env : SyncEnv) :
    Prog World Abort (Except SyncError Unit) :=
  match websub with
  | none => pure (.ok ())
  | some svc =>
    match env.conn with
    | .error e => pure (.error e)
    | .ok () => do
      let topics := env.topics.apply manifest.feedTopics.dedup
      let subscribed ← query (subscribedTopics topics)
      match env.load with
      | .error e => pure (.error e)
      | .ok () => do
        let subscribed := env.subscribed.apply subscribed
        (topics.filter (· ∉ subscribed)).forM (discoverAndSubscribe svc)
        (topics.filter (· ∈ subscribed)).forM (discover svc)
        (subscribed.filter (· ∉ topics)).forM fun topic =>
          Hub.unsubscribeAll svc.lib svc.callback env.rows topic spawn
        pure (.ok ())

/-! ### What a synchronisation does -/

section Loops

variable (svc : Service) {w : World}

/-- A loop that spawns one task for each topic spawns exactly these, in order, and where it panics those of
the topics before. -/
theorem sat_forM_spawn (body : String → Prog World Abort Unit) (task : String → Task)
    (hbody : ∀ topic, body topic = spawn (task topic) ∨ body topic = .abort .uri)
    (topics : List String) (w : World) :
    Prog.Sat (topics.forM body) w
      (fun _ w' => w' = { w with spawned := w.spawned ++ topics.map task })
      fun _ w' => ∃ begun, begun <+: topics ∧ w' = { w with spawned := w.spawned ++ begun.map task } := by
  refine (Prog.sat_forM (R := fun rest w' => ∃ begun, begun ++ rest = topics ∧
    w' = { w with spawned := w.spawned ++ begun.map task }) ?_ topics w ⟨[], rfl, by simp⟩).mono ?_
      fun _ _ h => h
  · rintro topic rest _ ⟨begun, rfl, rfl⟩
    rcases hbody topic with h | h
    · rw [h, sat_spawn]
      exact ⟨begun ++ [topic], by simp, by simp⟩
    · rw [h]
      exact Prog.sat_abort.mpr ⟨begun, List.prefix_append _ _, rfl⟩
  · rintro _ _ ⟨begun, rfl, rfl⟩
    simp

theorem discoverAndSubscribe_cases (topic : String) :
    discoverAndSubscribe svc topic = spawn (.discoverAndSubscribe topic) ∨
      discoverAndSubscribe svc topic = .abort .uri := by
  unfold discoverAndSubscribe
  by_cases h : svc.lib.isUri topic = true
  · exact Or.inl (if_pos h)
  · exact Or.inr (if_neg h)

theorem discover_cases (topic : String) :
    discover svc topic = spawn (.discover topic) ∨ discover svc topic = .abort .uri := by
  unfold discover
  by_cases h : svc.lib.isUri topic = true
  · exact Or.inl (if_pos h)
  · exact Or.inr (if_neg h)

end Loops

/-- A feed topic of the manifest with a subscription. -/
def IsSubscribed (db : Database) (topic : String) : Prop := ∃ s ∈ db.subscriptions, s.topic = topic

theorem mem_subscribedTopics {topics : List String} {db : Database} {topic : String} :
    topic ∈ subscribedTopics topics db ↔ IsSubscribed db topic ∧ topic ∈ topics := by
  unfold subscribedTopics IsSubscribed
  simp [Table.mem_def]

/-- The tasks of a synchronisation that returns `Ok`: `fresh` are the topics it subscribes to, `known`
those it fetches. -/
structure Spawned (manifest : Manifest) (db : Database) (tasks : List Task) : Prop where
  split : ∃ fresh known : List String, fresh.Nodup ∧ known.Nodup ∧
    (∀ topic, topic ∈ fresh ↔ topic ∈ manifest.feedTopics ∧ ¬IsSubscribed db topic) ∧
    (∀ topic, topic ∈ known ↔ topic ∈ manifest.feedTopics ∧ IsSubscribed db topic) ∧
    tasks = fresh.map .discoverAndSubscribe ++ known.map .discover

/-- The topic that a spawned future discovers in order to subscribe to it. -/
def subscribedTopic : Task → Option String
  | .discoverAndSubscribe topic => some topic
  | _ => none

/-- What a synchronisation has done, whether it has come to its end or not: it has spawned tasks, and
subscribes only to topics without a subscription, to each once. -/
structure Began (db : Database) (tasks : List Task) : Prop where
  nodup : (tasks.filterMap subscribedTopic).Nodup
  fresh : ∀ topic ∈ tasks.filterMap subscribedTopic, ¬IsSubscribed db topic

theorem began_append {db : Database} {fresh known : List String} (hnodup : fresh.Nodup)
    (hfresh : ∀ topic ∈ fresh, ¬IsSubscribed db topic) :
    Began db (fresh.map .discoverAndSubscribe ++ known.map .discover) := by
  have hfilter : (fresh.map Task.discoverAndSubscribe ++ known.map Task.discover).filterMap subscribedTopic =
      fresh := by
    rw [List.filterMap_append, List.filterMap_map, List.filterMap_map]
    have hnone : known.filterMap (subscribedTopic ∘ Task.discover) = [] := by
      rw [List.filterMap_eq_nil_iff]
      exact fun _ _ => rfl
    rw [hnone, show subscribedTopic ∘ Task.discoverAndSubscribe = some from rfl, List.filterMap_some,
      List.append_nil]
  constructor
  · rwa [hfilter]
  · rwa [hfilter]

/-- The loops of a synchronisation: `topics` are those of the manifest, and `subscribed` those of them that have
a subscription. The third loop has nothing to do, so the tables stay as they are. -/
theorem sat_syncLoops (svc : Service) (rows : RowOrder Subscription) {topics subscribed : List String}
    {w : World} (hnodup : topics.Nodup)
    (hsub : ∀ topic, topic ∈ subscribed ↔ IsSubscribed w.db topic ∧ topic ∈ topics) :
    Prog.Sat (do
      (topics.filter (· ∉ subscribed)).forM (discoverAndSubscribe svc)
      (topics.filter (· ∈ subscribed)).forM (discover svc)
      (subscribed.filter (· ∉ topics)).forM fun topic =>
        Hub.unsubscribeAll svc.lib svc.callback rows topic spawn
      pure (.ok ())) w
      (fun (_ : Except SyncError Unit) w' => w' = { w with spawned := w.spawned ++
          ((topics.filter (· ∉ subscribed)).map .discoverAndSubscribe ++
            (topics.filter (· ∈ subscribed)).map .discover) } ∧
        Began w.db ((topics.filter (· ∉ subscribed)).map .discoverAndSubscribe ++
          (topics.filter (· ∈ subscribed)).map .discover))
      fun _ w' => ∃ tasks, w' = { w with spawned := w.spawned ++ tasks } ∧ Began w.db tasks := by
  have hnone : subscribed.filter (· ∉ topics) = [] := by
    rw [List.filter_eq_nil_iff]
    intro topic ht
    simpa using ((hsub topic).mp ht).2
  have hfresh : ∀ topic ∈ topics.filter (· ∉ subscribed), ¬IsSubscribed w.db topic := by
    intro topic ht hs
    obtain ⟨ht, hnot⟩ := List.mem_filter.mp ht
    exact of_decide_eq_true hnot ((hsub topic).mpr ⟨hs, ht⟩)
  -- Of either loop only the first turns may have been taken.
  have hbegan : ∀ {begun}, begun <+: topics.filter (· ∉ subscribed) → ∀ known : List String,
      Began w.db (begun.map .discoverAndSubscribe ++ known.map .discover) := by
    intro begun hbegun known
    exact began_append ((hnodup.filter _).sublist hbegun.sublist)
      fun topic ht => hfresh topic (hbegun.subset ht)
  refine Prog.sat_bind ((sat_forM_spawn _ _ (discoverAndSubscribe_cases svc) _ w).mono
    (fun _ _ h => h) ?_) ?_
  · rintro _ _ ⟨begun, hbegun, rfl⟩
    exact ⟨_, rfl, by simpa using hbegan hbegun []⟩
  rintro _ _ rfl
  refine Prog.sat_bind ((sat_forM_spawn _ _ (discover_cases svc) _ _).mono (fun _ _ h => h) ?_) ?_
  · rintro _ _ ⟨begun, hbegun, rfl⟩
    exact ⟨_, by simp, hbegan (List.prefix_refl _) begun⟩
  rintro _ _ rfl
  rw [hnone]
  exact Prog.sat_done.mpr ⟨by simp, hbegan (List.prefix_refl _) _⟩

/-- However a synchronisation ends, it has spawned tasks and left the tables as they were. -/
theorem sat_syncWebsubSubscriptions (svc : Service) (manifest : Manifest) (env : SyncEnv) (w : World) :
    Prog.Sat (syncWebsubSubscriptions (some svc) manifest env) w
      (fun r w' => ∃ tasks, w' = { w with spawned := w.spawned ++ tasks } ∧ Began w.db tasks ∧
        (r = .ok () → Spawned manifest w.db tasks))
      fun _ w' => ∃ tasks, w' = { w with spawned := w.spawned ++ tasks } ∧ Began w.db tasks := by
  have hnothing : Began w.db [] := ⟨by simp, by simp⟩
  unfold syncWebsubSubscriptions
  cases env.conn with
  | error e => exact Prog.sat_done.mpr ⟨[], by simp, hnothing, by simp⟩
  | ok u =>
    dsimp only
    generalize htopics : env.topics.apply manifest.feedTopics.dedup = topics
    have hmem : ∀ topic, topic ∈ topics ↔ topic ∈ manifest.feedTopics := by simp [← htopics]
    have hnodup : topics.Nodup := by
      rw [← htopics]
      exact (env.topics.perm _).nodup_iff.mpr (List.nodup_dedup _)
    refine Prog.sat_bind (R := fun subscribed w' => w = w' ∧
      subscribed = subscribedTopics topics w.db) (sat_query.mpr ⟨rfl, rfl⟩) ?_
    rintro _ _ ⟨rfl, rfl⟩
    cases env.load with
    | error e => exact Prog.sat_done.mpr ⟨[], by simp, hnothing, by simp⟩
    | ok u =>
      dsimp only
      generalize hsubscribed : env.subscribed.apply (subscribedTopics topics w.db) = subscribed
      have hsub : ∀ topic, topic ∈ subscribed ↔ IsSubscribed w.db topic ∧ topic ∈ topics := by
        intro topic
        rw [← hsubscribed, RowOrder.mem_apply, mem_subscribedTopics]
      refine (sat_syncLoops svc env.rows hnodup hsub).mono ?_ fun _ _ h => h
      rintro r w' ⟨hw', hbegan⟩
      refine ⟨_, hw', hbegan, fun _ => ⟨_, _, hnodup.filter _, hnodup.filter _, ?_, ?_, rfl⟩⟩
      · intro topic
        simp only [List.mem_filter, decide_eq_true_eq, hsub, hmem]
        tauto
      · intro topic
        simp only [List.mem_filter, decide_eq_true_eq, hsub, hmem]
        tauto

/-! ### What it should do -/

/-- The hub and the topic of a request to unsubscribe. -/
def unsubscribeTarget : Task → Option (String × String)
  | .request hub (.unsubscribe _ topic) => some (hub, topic)
  | _ => none

/-- The purpose of a synchronisation that takes `before` to `after`: no subscription to a topic that is
not in the manifest is left, each is cancelled at its hub, the others stay as they are, and every topic
of the manifest is subscribed to or fetched, once. -/
structure Synced (manifest : Manifest) (before after : World) : Prop where
  no_stale : ∀ s ∈ after.db.subscriptions, s.topic ∈ manifest.feedTopics
  kept : ∀ s, s.topic ∈ manifest.feedTopics →
    (s ∈ after.db.subscriptions ↔ s ∈ before.db.subscriptions)
  spawned : ∃ tasks, after.spawned = before.spawned ++ tasks ∧
    (tasks.filterMap unsubscribeTarget).Perm
      ((before.db.subscriptions.rows.filter (·.topic ∉ manifest.feedTopics)).map
        fun s => (s.hub, s.topic)) ∧
    (∀ topic ∈ manifest.feedTopics,
      (¬IsSubscribed before.db topic → tasks.count (.discoverAndSubscribe topic) = 1) ∧
      (IsSubscribed before.db topic → tasks.count (.discover topic) = 1)) ∧
    (∀ topic, .discoverAndSubscribe topic ∈ tasks →
      topic ∈ manifest.feedTopics ∧ ¬IsSubscribed before.db topic) ∧
    ∀ topic, .discover topic ∈ tasks → topic ∈ manifest.feedTopics ∧ IsSubscribed before.db topic

theorem Spawned.filterMap_unsubscribe {manifest : Manifest} {db : Database} {tasks : List Task}
    (h : Spawned manifest db tasks) : tasks.filterMap unsubscribeTarget = [] := by
  obtain ⟨fresh, known, -, -, -, -, rfl⟩ := h.split
  rw [List.filterMap_eq_nil_iff]
  intro task ht
  rcases List.mem_append.mp ht with ht | ht
  · obtain ⟨topic, -, rfl⟩ := List.mem_map.mp ht
    rfl
  · obtain ⟨topic, -, rfl⟩ := List.mem_map.mp ht
    rfl

theorem Spawned.count_fresh {manifest : Manifest} {db : Database} {tasks : List Task}
    (h : Spawned manifest db tasks) {topic : String} (ht : topic ∈ manifest.feedTopics)
    (hs : ¬IsSubscribed db topic) : tasks.count (.discoverAndSubscribe topic) = 1 := by
  obtain ⟨fresh, known, hfresh, -, hmem, -, rfl⟩ := h.split
  have hnone : (known.map Task.discover).count (.discoverAndSubscribe topic) = 0 :=
    List.count_eq_zero.mpr (by simp)
  rw [List.count_append, hnone]
  refine List.count_eq_one_of_mem (hfresh.map ?_) (List.mem_map.mpr ⟨topic, ?_, rfl⟩)
  · intro a b hab
    exact Task.discoverAndSubscribe.inj hab
  · exact (hmem topic).mpr ⟨ht, hs⟩

theorem Spawned.count_known {manifest : Manifest} {db : Database} {tasks : List Task}
    (h : Spawned manifest db tasks) {topic : String} (ht : topic ∈ manifest.feedTopics)
    (hs : IsSubscribed db topic) : tasks.count (.discover topic) = 1 := by
  obtain ⟨fresh, known, -, hknown, -, hmem, rfl⟩ := h.split
  have hnone : (fresh.map Task.discoverAndSubscribe).count (.discover topic) = 0 :=
    List.count_eq_zero.mpr (by simp)
  rw [List.count_append, hnone, Nat.zero_add]
  refine List.count_eq_one_of_mem (hknown.map ?_) (List.mem_map.mpr ⟨topic, ?_, rfl⟩)
  · intro a b hab
    exact Task.discover.inj hab
  · exact (hmem topic).mpr ⟨ht, hs⟩

theorem Spawned.of_mem_fresh {manifest : Manifest} {db : Database} {tasks : List Task}
    (h : Spawned manifest db tasks) {topic : String} (ht : .discoverAndSubscribe topic ∈ tasks) :
    topic ∈ manifest.feedTopics ∧ ¬IsSubscribed db topic := by
  obtain ⟨fresh, known, -, -, hmem, -, rfl⟩ := h.split
  simpa [hmem] using ht

theorem Spawned.of_mem_known {manifest : Manifest} {db : Database} {tasks : List Task}
    (h : Spawned manifest db tasks) {topic : String} (ht : .discover topic ∈ tasks) :
    topic ∈ manifest.feedTopics ∧ IsSubscribed db topic := by
  obtain ⟨fresh, known, -, -, -, hmem, rfl⟩ := h.split
  simpa [hmem] using ht

/-- **A synchronisation does what it should** exactly when there was nothing to unsubscribe from: the
`App` has a subscriber, or no topic that needs one, and no row is of a topic that the manifest lacks. -/
theorem synced_iff (websub : Option Service) (manifest : Manifest) (env : SyncEnv) (w w' : World)
    (hrun : (syncWebsubSubscriptions websub manifest env).run w = (.ok (.ok ()), w')) :
    Synced manifest w w' ↔
      (websub = none → manifest.feedTopics = []) ∧
        ∀ s ∈ w.db.subscriptions, s.topic ∈ manifest.feedTopics := by
  cases websub with
  | none =>
    obtain rfl : w = w' := congrArg Prod.snd hrun
    constructor
    · intro h
      refine ⟨fun _ => ?_, h.no_stale⟩
      obtain ⟨tasks, htasks, -, hcount, -⟩ := h.spawned
      obtain rfl : tasks = [] := by simpa using htasks
      rw [List.eq_nil_iff_forall_not_mem]
      intro topic ht
      by_cases hs : IsSubscribed w.db topic
      · simpa using (hcount topic ht).2 hs
      · simpa using (hcount topic ht).1 hs
    · rintro ⟨hnil, hrows⟩
      refine ⟨hrows, fun _ _ => Iff.rfl, [], by simp, ?_, ?_, by simp, by simp⟩
      · rw [List.filter_eq_nil_iff.mpr fun s hs => by simpa using hrows s hs]
        exact List.Perm.refl _
      · rw [hnil rfl]
        simp
  | some svc =>
    have hsat := sat_syncWebsubSubscriptions svc manifest env w
    unfold Prog.Sat at hsat
    rw [hrun] at hsat
    obtain ⟨tasks, rfl, -, hsp⟩ := hsat
    replace hsp := hsp rfl
    constructor
    · intro h
      exact ⟨by simp, h.no_stale⟩
    · rintro ⟨-, hrows⟩
      refine ⟨hrows, fun _ _ => Iff.rfl, tasks, rfl, ?_, ?_, fun _ => hsp.of_mem_fresh,
        fun _ => hsp.of_mem_known⟩
      · rw [hsp.filterMap_unsubscribe,
          List.filter_eq_nil_iff.mpr fun s hs => by simpa using hrows s hs]
        exact List.Perm.refl _
      · intro topic ht
        exact ⟨hsp.count_fresh ht, hsp.count_known ht⟩

/-! ### A topic leaves the manifest -/

/-- Libraries that accept every URI. -/
def anyUri : Libraries where
  base64 := fun _ => ""
  isUri := fun _ => true
  isPathAndQuery := fun _ => true
  isUriParts := fun _ => true
  parseVerify := fun _ => none

def sampleService : Service where
  callback := ⟨some "https", some "example.com", some "/"⟩
  renewalMargin := 3600
  overflowChecks := true
  boot := 0
  lib := anyUri

/-- No failures, and every order is that of the tables. -/
def SyncEnv.calm : SyncEnv := ⟨.ok (), .ok (), .asStored, .asStored, .asStored⟩

/-- A manifest without rules. -/
def noRules : Manifest := ⟨none, [], none, none, false⟩

/-- A manifest with one feed. -/
def oneFeed (topic : String) : Manifest :=
  ⟨none, [⟨⟨none, none, []⟩, [.feed topic]⟩], none, none, false⟩

/-- One subscription, which awaits verification. -/
def pendingSubscription : Subscription :=
  ⟨1, "https://hub.example.com/", "https://example.com/feed", "secret"⟩

def oneSubscription : Database :=
  { Database.empty with
    subscriptions := ⟨[pendingSubscription], by simp⟩
    pendingSubscriptions := ⟨[⟨1⟩], by simp⟩
    active_references := by simp [Database.empty]
    pending_references := by decide
    new_references := by simp [Database.empty] }

/-- The topic of the only subscription is not in the manifest, and the subscription stays. -/
theorem not_synced_noRules :
    (syncWebsubSubscriptions (some sampleService) noRules .calm).run
        ⟨oneSubscription, .new none, []⟩ = (.ok (.ok ()), ⟨oneSubscription, .new none, []⟩) ∧
      ¬Synced noRules ⟨oneSubscription, .new none, []⟩ ⟨oneSubscription, .new none, []⟩ := by
  refine ⟨by rfl, ?_⟩
  intro h
  have hmem := h.no_stale pendingSubscription (List.mem_cons_self ..)
  simp [noRules, Manifest.topics] at hmem

/-- With the topic in the manifest, its feed is fetched and nothing else is to be done. -/
theorem synced_oneFeed :
    Synced (oneFeed "https://example.com/feed") ⟨oneSubscription, .new none, []⟩
      ⟨oneSubscription, .new none, [.discover "https://example.com/feed"]⟩ :=
  (synced_iff (some sampleService) (oneFeed "https://example.com/feed") .calm
    ⟨oneSubscription, .new none, []⟩
    ⟨oneSubscription, .new none, [.discover "https://example.com/feed"]⟩ (by rfl)).mpr
    ⟨by simp, by
      intro s hs
      obtain rfl : s = pendingSubscription := by simpa [oneSubscription, Table.mem_def] using hs
      simp [oneFeed, Manifest.topics, pendingSubscription]⟩

end Pipitor.App
