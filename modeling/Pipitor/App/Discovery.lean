import Pipitor.App.Sync
import Pipitor.Websub.Uniqueness

/-!
# Synchronisations and the discoveries they begin

Whether a topic counts as subscribed is read when `sync_websub_subscriptions` spawns the task that
discovers its hubs; the subscriptions are inserted when the task has the feed, one for each hub that the
feed lists. `Discovering` is the subscriber with these tasks, which go on in any order, between the
verifications and the renewals and across the reloads of the manifest.

`onePerFeed_iff` says at which insertions the tables get a second subscription for one hub and topic, and
`onePerFeed_of_orderly` that none is of that kind where the reloads wait for the discoveries and no feed
lists a hub twice.
-/

namespace Pipitor.App

open Resumption Relational Websub

/-- A task of `discover_and_subscribe`. `hubs` is `none` until the feed is there, and then what is left of
the hubs it lists. -/
structure Discovery where
  topic : String
  hubs : Option (List String)
deriving DecidableEq, Repr

/-- The task has not come to its end. -/
def Discovery.UnderWay (d : Discovery) : Prop := d.hubs ≠ some []

/-- There is no subscription yet at any of the hubs at which the discovery may still subscribe. -/
def Discovery.Clear (db : Database) (d : Discovery) : Prop :=
  match d.hubs with
  | none => ∀ hub, ¬HasFeed db hub d.topic
  | some hubs => hubs.Nodup ∧ ∀ hub ∈ hubs, ¬HasFeed db hub d.topic

theorem Discovery.Clear.mono {db db' : Database} {d : Discovery} (h : d.Clear db)
    (hfeeds : ∀ hub, HasFeed db' hub d.topic → HasFeed db hub d.topic) : d.Clear db' := by
  unfold Discovery.Clear at h ⊢
  split
  · rename_i hnone
    rw [hnone] at h
    exact fun hub hfeed => h hub (hfeeds hub hfeed)
  · rename_i hubs hsome
    rw [hsome] at h
    exact ⟨h.1, fun hub hmem hfeed => h.2 hub hmem (hfeeds hub hfeed)⟩

theorem Discovery.clear_of_done {d : Discovery} (h : ¬d.UnderWay) (db : Database) : d.Clear db := by
  unfold Discovery.Clear
  rw [not_not.mp h]
  simp

/-- The subscriber's state and the discoveries in the order in which they were spawned. -/
structure Discovering where
  world : World
  discoveries : List Discovery

namespace Discovering

inductive Event
  | sync (manifest : Manifest) (env : SyncEnv)
  /-- The `i`th discovery has fetched its feed. One that fails has no hubs. -/
  | discovered (i : ℕ) (hubs : List String)
  /-- The `i`th discovery subscribes at the next of its hubs. -/
  | subscribe (i : ℕ) (draw : Draw)
  | renewSubscriptions (now : UInt64) (order : RowOrder Subscription) (draws : ℕ → Draw)
  | verifyIntent (id : Int64) (queryString : String) (now : UInt64)
  /-- A new process, whose scheduler starts with `timer`. -/
  | restart (timer : Timer)

/-- The first start, with the tables right after the migrations. -/
def start (timer : Timer) : Discovering := ⟨⟨.empty, timer, []⟩, []⟩

/-- What is left of a discovery's hubs after the turn of its loop for `hub`: a panic ends the task. -/
def left (hub : String) (rest : List String) : Except Abort Unit → List String
  | .ok () => rest
  | .error .starved => hub :: rest
  | .error _ => []

/-- `App::sync_websub_subscriptions`, as far as it spawns discoveries that are to subscribe. -/
def sync (svc : Service) (s : Discovering) (manifest : Manifest) (env : SyncEnv) : Discovering :=
  let w := ((syncWebsubSubscriptions (some svc) manifest env).run s.world).2
  let topics := (w.spawned.drop s.world.spawned.length).filterMap subscribedTopic
  ⟨w, s.discoveries ++ topics.map (⟨·, none⟩)⟩

def discovered (s : Discovering) (i : ℕ) (hubs : List String) : Discovering :=
  match s.discoveries[i]? with
  | some ⟨topic, none⟩ => { s with discoveries := s.discoveries.set i ⟨topic, some hubs⟩ }
  | _ => s

/-- One turn of the loop over the hubs in `Service::discover_and_subscribe`. -/
def subscribe (svc : Service) (s : Discovering) (i : ℕ) (draw : Draw) : Discovering :=
  match s.discoveries[i]? with
  | some ⟨topic, some (hub :: rest)⟩ =>
    let (r, w) := ((Op.subscribe draw hub topic).prog svc).run s.world
    ⟨w, s.discoveries.set i ⟨topic, some (left hub rest r)⟩⟩
  | _ => s

def step (svc : Service) (s : Discovering) : Event → Discovering
  | .sync manifest env => s.sync svc manifest env
  | .discovered i hubs => s.discovered i hubs
  | .subscribe i draw => s.subscribe svc i draw
  | .renewSubscriptions now order draws =>
    { s with world := (Op.renewSubscriptions now order draws).step svc s.world }
  | .verifyIntent id queryString now =>
    { s with world := (Op.verifyIntent id queryString now).step svc s.world }
  | .restart timer =>
    ⟨{ (Op.removeDanglingSubscriptions.step svc s.world) with timer, spawned := [] }, []⟩

/-- The subscription that the step inserts, if it inserts one, is the only one of its hub and topic. -/
def Admits (s : Discovering) : Event → Prop
  | .subscribe i draw => ∀ topic hub rest, s.discoveries[i]? = some ⟨topic, some (hub :: rest)⟩ →
    draw.IsUsedUp s.world.db ∨ ¬HasFeed s.world.db hub topic
  | _ => True

/-! ### One step -/

section Step

variable (svc : Service) (s : Discovering)

theorem sync_eq (manifest : Manifest) (env : SyncEnv) :
    ∃ tasks, Began s.world.db tasks ∧ s.sync svc manifest env =
      ⟨{ s.world with spawned := s.world.spawned ++ tasks },
        s.discoveries ++ (tasks.filterMap subscribedTopic).map (⟨·, none⟩)⟩ := by
  have hrun : ∃ tasks, ((syncWebsubSubscriptions (some svc) manifest env).run s.world).2 =
      { s.world with spawned := s.world.spawned ++ tasks } ∧ Began s.world.db tasks := by
    refine Prog.Sat.run (P := fun w => ∃ tasks, w =
      { s.world with spawned := s.world.spawned ++ tasks } ∧ Began s.world.db tasks) ?_
    refine (sat_syncWebsubSubscriptions svc manifest env s.world).mono ?_ fun _ _ h => h
    rintro r w ⟨tasks, hw, hbegan, -⟩
    exact ⟨tasks, hw, hbegan⟩
  obtain ⟨tasks, hw, hbegan⟩ := hrun
  exact ⟨tasks, hbegan, by simp only [sync, hw, List.drop_left]⟩

theorem sync_db (manifest : Manifest) (env : SyncEnv) :
    (s.sync svc manifest env).world.db = s.world.db := by
  obtain ⟨tasks, -, heq⟩ := sync_eq svc s manifest env
  rw [heq]

theorem discovered_world (i : ℕ) (hubs : List String) : (s.discovered i hubs).world = s.world := by
  unfold discovered
  split <;> rfl

/-- A turn of a discovery's loop: the task is still drawing, or it has created a subscription. -/
theorem subscribe_cases {i : ℕ} {topic hub : String} {rest : List String} (draw : Draw)
    (hi : s.discoveries[i]? = some ⟨topic, some (hub :: rest)⟩) :
    (draw.IsUsedUp s.world.db ∧ s.subscribe svc i draw = s) ∨
      ¬draw.IsUsedUp s.world.db ∧ ∃ id hubs, hubs <:+ rest ∧
        Created s.world.db hub topic id draw.secret (s.subscribe svc i draw).world.db ∧
        (s.subscribe svc i draw).discoveries = s.discoveries.set i ⟨topic, some hubs⟩ := by
  have hsat : Prog.Sat ((Op.subscribe draw hub topic).prog svc) s.world
      (fun _ w' => ¬draw.IsUsedUp s.world.db ∧ ∃ id, Created s.world.db hub topic id draw.secret w'.db)
      fun e w' => (e = .starved ∧ draw.IsUsedUp s.world.db ∧ w' = s.world) ∨
        e ≠ .starved ∧ ¬draw.IsUsedUp s.world.db ∧ ∃ id, Created s.world.db hub topic id draw.secret w'.db :=
    Prog.sat_bind (sat_subscribe_created svc draw hub topic) fun _ _ h => sat_spawn.mpr h
  unfold Prog.Sat at hsat
  unfold subscribe
  rw [hi]
  dsimp only
  cases hrun : ((Op.subscribe draw hub topic).prog svc).run s.world with
  | mk r w =>
    rw [hrun] at hsat
    cases r with
    | ok u =>
      obtain ⟨hdraw, id, hcreated⟩ := hsat
      exact Or.inr ⟨hdraw, id, rest, List.suffix_refl _, hcreated, rfl⟩
    | error e =>
      rcases hsat with ⟨rfl, hdraw, rfl⟩ | ⟨he, hdraw, id, hcreated⟩
      · refine Or.inl ⟨hdraw, ?_⟩
        obtain ⟨hlt, hget⟩ := List.getElem?_eq_some_iff.mp hi
        dsimp only [left]
        rw [← hget, List.set_getElem_self]
      · refine Or.inr ⟨hdraw, id, [], List.nil_suffix, hcreated, ?_⟩
        cases e with
        | starved => exact absurd rfl he
        | database d => rfl
        | arithmetic => rfl
        | uri => rfl

theorem subscribe_eq_self {s : Discovering} {i : ℕ} {draw : Draw}
    (hi : ¬∃ topic hub rest, s.discoveries[i]? = some ⟨topic, some (hub :: rest)⟩) :
    s.subscribe svc i draw = s := by
  unfold subscribe
  split
  · rename_i topic hub rest h
    exact absurd ⟨topic, hub, rest, h⟩ hi
  · rfl

theorem step_tame {s : Discovering} (hs : Coherent s.world.db) {event : Event}
    (hevent : ∀ i draw, event ≠ .subscribe i draw) : Tame s.world.db (s.step svc event).world.db := by
  cases event with
  | sync manifest env =>
    show Tame s.world.db (s.sync svc manifest env).world.db
    rw [sync_db]
    exact Tame.refl _
  | discovered i hubs =>
    show Tame s.world.db (s.discovered i hubs).world.db
    rw [discovered_world]
    exact Tame.refl _
  | subscribe i draw => exact absurd rfl (hevent i draw)
  | renewSubscriptions now order draws => exact Op.step_tame svc hs (by simp)
  | verifyIntent id queryString now => exact Op.step_tame svc hs (by simp)
  | restart timer =>
    show Tame s.world.db (Op.removeDanglingSubscriptions.step svc s.world).db
    exact Op.step_tame svc hs (by simp)

theorem step_coherent {s : Discovering} (hs : Coherent s.world.db) (event : Event) :
    Coherent (s.step svc event).world.db := by
  cases event with
  | sync manifest env =>
    show Coherent (s.sync svc manifest env).world.db
    rw [sync_db]
    exact hs
  | discovered i hubs =>
    show Coherent (s.discovered i hubs).world.db
    rw [discovered_world]
    exact hs
  | subscribe i draw =>
    show Coherent (s.subscribe svc i draw).world.db
    unfold subscribe
    split
    · exact Op.step_coherent svc (.subscribe draw _ _) hs
    · exact hs
  | renewSubscriptions now order draws => exact Op.step_coherent svc _ hs
  | verifyIntent id queryString now => exact Op.step_coherent svc _ hs
  | restart timer => exact Op.step_coherent svc .removeDanglingSubscriptions hs

theorem step_onePerFeed_iff {s : Discovering} (hs : Coherent s.world.db) (hu : OnePerFeed s.world.db)
    (event : Event) : OnePerFeed (s.step svc event).world.db ↔ s.Admits event := by
  by_cases hevent : ∃ i draw, event = .subscribe i draw
  · obtain ⟨i, draw, rfl⟩ := hevent
    by_cases hi : ∃ topic hub rest, s.discoveries[i]? = some ⟨topic, some (hub :: rest)⟩
    · obtain ⟨topic, hub, rest, hi⟩ := hi
      have hadmits : s.Admits (.subscribe i draw) ↔ draw.IsUsedUp s.world.db ∨ ¬HasFeed s.world.db hub topic := by
        simp only [Admits, hi]
        simp
      rw [hadmits]
      show OnePerFeed (s.subscribe svc i draw).world.db ↔ _
      rcases subscribe_cases svc s draw hi with ⟨hdraw, heq⟩ | ⟨hdraw, id, hubs, -, hcreated, -⟩
      · rw [heq]
        exact ⟨fun _ => Or.inl hdraw, fun _ => hu⟩
      · rw [hcreated.onePerFeed_iff_first hs hu, or_iff_right hdraw]
    · show OnePerFeed (s.subscribe svc i draw).world.db ↔ _
      rw [subscribe_eq_self svc hi]
      exact ⟨fun _ topic hub rest h => absurd ⟨topic, hub, rest, h⟩ hi, fun _ => hu⟩
  · have hother : ∀ i draw, event ≠ .subscribe i draw := fun i draw h => hevent ⟨i, draw, h⟩
    refine iff_of_true ((step_tame svc hs hother).onePerFeed hu) ?_
    cases event with
    | subscribe i draw => exact absurd rfl (hother i draw)
    | _ => trivial

end Step

/-- **One subscription for each hub and topic** is what the tables have throughout a run exactly when every
subscription that a discovery inserts is the first of its hub and topic. -/
theorem onePerFeed_iff (svc : Service) (timer : Timer) (run : List Event) :
    (∀ s ∈ Runs.states (step svc) (start timer) run, OnePerFeed s.world.db) ↔
      ∀ m ∈ Runs.moves (step svc) (start timer) run, m.1.Admits m.2 := by
  have hempty : OnePerFeed Database.empty := fun s _ hs => absurd hs.mem (Table.not_mem_empty s)
  exact Runs.always_iff_moves (I := fun s : Discovering => Coherent s.world.db)
    (P := fun s : Discovering => OnePerFeed s.world.db) (fun s event hs _ _ => step_coherent svc hs event)
    (fun s event hs hu => step_onePerFeed_iff svc hs hu event) Coherent.empty hempty run

/-! ### A reload during a discovery -/

def sampleHub : String := "https://hub.example.com/"

/-- The manifest is reloaded before the feed of its topic is there, and the discoveries that both have begun
subscribe at the hub of the feed. -/
def reloadedTooSoon : List Event :=
  [.sync (oneFeed "https://example.com/feed") .calm, .sync (oneFeed "https://example.com/feed") .calm,
    .discovered 0 [sampleHub], .subscribe 0 ⟨"secret", [2]⟩,
    .discovered 1 [sampleHub], .subscribe 1 ⟨"secret", [4]⟩]

/-- The subscription at `sampleHub` that an id was drawn for. -/
def sampleSubscription (id : Int64) : Subscription := ⟨id, sampleHub, "https://example.com/feed", "secret"⟩

theorem not_onePerFeed_reloadedTooSoon :
    ¬∀ s ∈ Runs.states (step sampleService) (start (.new none)) reloadedTooSoon, OnePerFeed s.world.db := by
  intro h
  have hrows : (Runs.final (step sampleService) (start (.new none)) reloadedTooSoon).world.db.subscriptions.rows =
      [sampleSubscription 1, sampleSubscription 2] := by rfl
  have hfirst : Standing (Runs.final (step sampleService) (start (.new none)) reloadedTooSoon).world.db
      (sampleSubscription 1) := ⟨Table.mem_def.mpr (by rw [hrows]; simp), by rfl⟩
  have hsecond : Standing (Runs.final (step sampleService) (start (.new none)) reloadedTooSoon).world.db
      (sampleSubscription 2) := ⟨Table.mem_def.mpr (by rw [hrows]; simp), by rfl⟩
  have heq := h _ (Runs.final_mem_states _ _ _) _ _ hfirst hsecond rfl rfl
  cases heq

/-! ### A schedule under which the tables stay so -/

/-- The reload waits for the discoveries, and the feed lists no hub twice. -/
def Orderly (s : Discovering) : Event → Prop
  | .sync _ _ => ∀ d ∈ s.discoveries, ¬d.UnderWay
  | .discovered _ hubs => hubs.Nodup
  | _ => True

/-- The discoveries that are under way are of different topics, and clear. -/
structure Apart (s : Discovering) : Prop where
  clear : ∀ (k : ℕ) d, s.discoveries[k]? = some d → d.Clear s.world.db
  topics : ∀ (k k' : ℕ) d d', s.discoveries[k]? = some d → s.discoveries[k']? = some d' → k ≠ k' →
    d.UnderWay → d'.UnderWay → d.topic ≠ d'.topic

theorem getElem?_set_cases {ds : List Discovery} {i k : ℕ} {d x : Discovery}
    (h : (ds.set i d)[k]? = some x) : (k = i ∧ x = d) ∨ (k ≠ i ∧ ds[k]? = some x) := by
  by_cases hk : i = k
  · subst hk
    obtain rfl : x = d := by
      rw [List.getElem?_set_self'] at h
      cases hi : ds[i]? with
      | none => simp [hi] at h
      | some y => simpa [hi] using h.symm
    exact Or.inl ⟨rfl, rfl⟩
  · rw [List.getElem?_set_ne hk] at h
    exact Or.inr ⟨Ne.symm hk, h⟩

section Apart

variable {s : Discovering}

theorem Apart.set {w : World} {i : ℕ} {d d' : Discovery} (h : s.Apart) (hi : s.discoveries[i]? = some d)
    (htopic : d'.topic = d.topic) (hway : d'.UnderWay → d.UnderWay) (hclear : d'.Clear w.db)
    (hothers : ∀ (k : ℕ) x, s.discoveries[k]? = some x → k ≠ i → x.Clear w.db) :
    Apart ⟨w, s.discoveries.set i d'⟩ := by
  -- Each discovery of the new list has one of the same topic at its place in the old list.
  have hback : ∀ {k : ℕ} {x}, (s.discoveries.set i d')[k]? = some x →
      ∃ y, s.discoveries[k]? = some y ∧ x.topic = y.topic ∧ (x.UnderWay → y.UnderWay) := by
    intro k x hx
    rcases getElem?_set_cases hx with ⟨rfl, rfl⟩ | ⟨-, hx⟩
    · exact ⟨d, hi, htopic, hway⟩
    · exact ⟨x, hx, rfl, id⟩
  constructor
  · intro k x hx
    rcases getElem?_set_cases hx with ⟨-, rfl⟩ | ⟨hk, hx⟩
    · exact hclear
    · exact hothers k x hx hk
  · intro k k' x x' hx hx' hk hxway hxway'
    obtain ⟨y, hy, hty, hyway⟩ := hback hx
    obtain ⟨y', hy', hty', hyway'⟩ := hback hx'
    rw [hty, hty']
    exact h.topics k k' y y' hy hy' hk (hyway hxway) (hyway' hxway')

variable (svc : Service)

theorem Apart.sync (manifest : Manifest) (env : SyncEnv) (hidle : ∀ d ∈ s.discoveries, ¬d.UnderWay) :
    (s.sync svc manifest env).Apart := by
  obtain ⟨tasks, hbegan, heq⟩ := sync_eq svc s manifest env
  rw [heq]
  -- What is under way now has just been spawned.
  have hnew : ∀ {k : ℕ} {d : Discovery},
      (s.discoveries ++ (tasks.filterMap subscribedTopic).map (⟨·, none⟩))[k]? = some d →
      ¬d.UnderWay ∨ s.discoveries.length ≤ k ∧ d.hubs = none ∧
        (tasks.filterMap subscribedTopic)[k - s.discoveries.length]? = some d.topic := by
    intro k d hd
    rcases Nat.lt_or_ge k s.discoveries.length with hk | hk
    · rw [List.getElem?_append_left hk] at hd
      exact Or.inl (hidle d (List.mem_of_getElem? hd))
    · rw [List.getElem?_append_right hk, List.getElem?_map, Option.map_eq_some_iff] at hd
      obtain ⟨topic, htopic, rfl⟩ := hd
      exact Or.inr ⟨hk, rfl, htopic⟩
  constructor
  · intro k d hd
    rcases hnew hd with hdone | ⟨-, hnone, htopic⟩
    · exact Discovery.clear_of_done hdone _
    · unfold Discovery.Clear
      rw [hnone]
      rintro hub ⟨x, hx, -, hxtopic⟩
      exact hbegan.fresh d.topic (List.mem_of_getElem? htopic) ⟨x, hx, hxtopic⟩
  · intro k k' d d' hd hd' hk hway hway'
    rcases hnew hd with hdone | ⟨hle, -, htopic⟩
    · exact absurd hway hdone
    rcases hnew hd' with hdone' | ⟨hle', -, htopic'⟩
    · exact absurd hway' hdone'
    intro htopics
    obtain ⟨hlt, -⟩ := List.getElem?_eq_some_iff.mp htopic
    have hindex : k - s.discoveries.length = k' - s.discoveries.length :=
      (List.getElem?_inj hlt hbegan.nodup).mp (htopic.trans (htopics ▸ htopic'.symm))
    omega

theorem Apart.discovered (h : s.Apart) (i : ℕ) {hubs : List String} (hnodup : hubs.Nodup) :
    (s.discovered i hubs).Apart := by
  unfold Discovering.discovered
  split
  · rename_i topic hi
    refine h.set hi rfl (fun _ => by simp [Discovery.UnderWay]) ?_ fun k x hx _ => h.clear k x hx
    exact ⟨hnodup, fun hub _ => h.clear i _ hi hub⟩
  · exact h

theorem Apart.subscribe (h : s.Apart) (i : ℕ) (draw : Draw) : (s.subscribe svc i draw).Apart := by
  by_cases hi : ∃ topic hub rest, s.discoveries[i]? = some ⟨topic, some (hub :: rest)⟩
  · obtain ⟨topic, hub, rest, hi⟩ := hi
    rcases subscribe_cases svc s draw hi with ⟨-, heq⟩ | ⟨-, id, hubs, hsuffix, hcreated, hdiscoveries⟩
    · rwa [heq]
    · rw [show s.subscribe svc i draw = ⟨(s.subscribe svc i draw).world, _⟩ from
        congrArg (Discovering.mk _) hdiscoveries]
      have hway : Discovery.UnderWay ⟨topic, some (hub :: rest)⟩ := by simp [Discovery.UnderWay]
      obtain ⟨hnodup, hclear⟩ : (hub :: rest).Nodup ∧ ∀ hub' ∈ hub :: rest, ¬HasFeed s.world.db hub' topic :=
        h.clear i _ hi
      obtain ⟨hfresh, hnodup⟩ := List.nodup_cons.mp hnodup
      refine h.set hi rfl (fun _ => hway) ⟨hnodup.sublist hsuffix.sublist, ?_⟩ ?_
      · intro hub' hmem hfeed
        have hrest := hsuffix.subset hmem
        rcases hcreated.hasFeed_iff.mp hfeed with hfeed | ⟨rfl, -⟩
        · exact hclear hub' (List.mem_cons_of_mem _ hrest) hfeed
        · exact hfresh hrest
      · intro k x hx hk
        by_cases hxway : x.UnderWay
        · have hne : topic ≠ x.topic := h.topics i k _ x hi hx (Ne.symm hk) hway hxway
          refine (h.clear k x hx).mono fun hub' hfeed => ?_
          exact (hcreated.hasFeed_iff.mp hfeed).resolve_right fun heq => hne heq.2
        · exact Discovery.clear_of_done hxway _
  · rwa [subscribe_eq_self svc hi]

theorem Apart.step (h : s.Apart) (hc : Coherent s.world.db) {event : Event} (ho : s.Orderly event) :
    (s.step svc event).Apart := by
  have htame : ∀ {w : World}, Tame s.world.db w.db → Apart ⟨w, s.discoveries⟩ := fun ht =>
    ⟨fun k d hd => (h.clear k d hd).mono fun hub => ht.feeds hub d.topic, h.topics⟩
  cases event with
  | sync manifest env => exact Apart.sync svc manifest env ho
  | discovered i hubs => exact h.discovered i ho
  | subscribe i draw => exact h.subscribe svc i draw
  | renewSubscriptions now order draws => exact htame (Op.step_tame svc hc (by simp))
  | verifyIntent id queryString now => exact htame (Op.step_tame svc hc (by simp))
  | restart timer => exact ⟨by simp [Discovering.step], by simp [Discovering.step]⟩

theorem Apart.admits (h : s.Apart) (event : Event) : s.Admits event := by
  cases event with
  | subscribe i draw =>
    intro topic hub rest hi
    exact Or.inr ((h.clear i _ hi).2 hub (List.mem_cons_self ..))
  | _ => trivial

end Apart

/-- Where the reloads wait for the discoveries and no feed lists a hub twice, there is one subscription for each
hub and topic throughout. -/
theorem onePerFeed_of_orderly (svc : Service) (timer : Timer) (run : List Event)
    (hrun : ∀ m ∈ Runs.moves (step svc) (start timer) run, m.1.Orderly m.2) :
    ∀ s ∈ Runs.states (step svc) (start timer) run, OnePerFeed s.world.db := by
  have hkept : ∀ s ∈ Runs.states (step svc) (start timer) run,
      (Coherent s.world.db ∧ OnePerFeed s.world.db) ∧ s.Apart := by
    refine Runs.always_of_moves (C := fun s event => s.Orderly event) ?_ ⟨⟨Coherent.empty, ?_⟩, ?_⟩ hrun
    · rintro s event ⟨⟨hc, hu⟩, ha⟩ ho
      exact ⟨⟨step_coherent svc hc event, (step_onePerFeed_iff svc hc hu event).mpr (ha.admits event)⟩,
        ha.step svc hc ho⟩
    · exact fun s _ hs => absurd hs.mem (Table.not_mem_empty s)
    · exact ⟨by simp [start], by simp [start]⟩
  exact fun s hs => (hkept s hs).1.2

end Discovering

end Pipitor.App
