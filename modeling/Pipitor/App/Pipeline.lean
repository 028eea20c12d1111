import Pipitor.App.Lifecycle
import Pipitor.App.Posting
import Pipitor.Routing
import Pipitor.Websub.Cycle
import Pipitor.Websub.Discover

/-!
# From the hubs to the posts

The way of a feed through the program: a future that `Service::call` or `Service::discover` has spawned puts it
into the channel, `App::poll` takes it out and calls `send_entry` for its entries, and the requests that this
decides on are spawned and completed. Between any two of these steps there may be any other, and the manifest
may be replaced while no entry is being sent.

`posts_traced` follows every post back to the content that it comes from.
-/

namespace Pipitor.App

open Resumption Websub

/-- `verifying` are the futures of `Service::call` that have not ended, and `receiving` is what is left of the
feed that `App::poll` is sending. -/
structure Pipeline (lib : CallLibraries) where
  app : App
  world : World
  verifying : List (VerifySignature lib)
  channel : List (String × Feed)
  receiving : Option (String × List FeedEntry)
  posting : Posting

namespace Pipeline

variable {lib : CallLibraries}

inductive Event
  | turn (turn : Turn)
  | request (req : Request) (now : UInt64)
  /-- The `i`th future has read the body of its request. -/
  | verified (i : ℕ)
  /-- The topic is answered with the page. -/
  | fetched (topic : String) (page : Page)
  | receive
  | entry (faults : EntryFaults)
  | spawn
  | complete (u : Update) (outcome : UpdateOutcome)
  | reload (manifest : Manifest) (env : ReloadEnv)

/-- Before the first request. -/
def start (lib : CallLibraries) (app : App) (world : World) (entries : Entries) : Pipeline lib :=
  ⟨app, world, [], [], none, .fresh entries⟩

/-- A future that fetches the topic has been spawned. -/
def Fetches (s : Pipeline lib) (topic : String) : Prop :=
  .discover topic ∈ s.world.spawned ∨ .discoverAndSubscribe topic ∈ s.world.spawned

instance (s : Pipeline lib) (topic : String) : Decidable (s.Fetches topic) :=
  inferInstanceAs (Decidable (_ ∨ _))

/-- `App::poll` is not in the middle of a feed. -/
def Idle (s : Pipeline lib) : Prop := s.receiving = none ∧ s.posting.sending = []

instance (s : Pipeline lib) : Decidable s.Idle := inferInstanceAs (Decidable (_ ∧ _))

/-- `Service::call` of the subscriber. -/
def request (s : Pipeline lib) (sub : Subscriber) (req : Request) (now : UInt64) : Pipeline lib :=
  let called := (sub.service.call lib req now).run s.world
  { s with
    world := called.2
    verifying := s.verifying ++ (called.1.toOption.bind (·.2)).toList }

/-- `send_entry` of the next entry. If it fails the rest of the feed is not sent. -/
def entry (s : Pipeline lib) (c : Call) (rest : List FeedEntry) : Pipeline lib :=
  { s with
    receiving := match (c.run s.posting.entries).2 with
      | .ok () => some (c.topic, rest)
      | .error _ => none
    posting := s.posting.step (.call c) }

def step (readers : DocumentReaders) (s : Pipeline lib) : Event → Pipeline lib
  | .turn turn => match s.app.websub with
    | some sub => { s with world := turn.step sub.service s.world }
    | none => s
  | .request req now => match s.app.websub with
    | some sub => s.request sub req now
    | none => s
  | .verified i => match s.verifying[i]? with
    | some task => { s with verifying := s.verifying.eraseIdx i, channel := s.channel ++ task.run.toList }
    | none => s
  | .fetched topic page =>
    if s.Fetches topic then { s with channel := s.channel ++ page.sent lib readers topic } else s
  | .receive => match s.channel with
    | (topic, feed) :: channel =>
      if s.Idle then { s with receiving := some (topic, feed.entries), channel } else s
    | [] => s
  | .entry faults => match s.receiving with
    | some (topic, e :: rest) =>
      if s.posting.sending = [] then s.entry ⟨s.app.core, faults, topic, e⟩ rest else s
    | some (_, []) => { s with receiving := none }
    | none => s
  | .spawn => { s with posting := s.posting.step .spawn }
  | .complete u outcome => { s with posting := s.posting.step (.complete u outcome) }
  | .reload manifest env =>
    if s.Idle then
      let (_, app, world) := s.app.replaceManifest manifest env s.world
      { s with app, world }
    else s

/-! ### What a step does -/

section Effects

variable (readers : DocumentReaders) (s : Pipeline lib)

/-- There is nothing that the event could happen to. -/
def Blocked : Event → Prop
  | .verified i => s.verifying[i]? = none
  | .fetched topic _ => ¬s.Fetches topic
  | .entry _ => s.receiving = none ∨ s.posting.sending ≠ []
  | _ => True

/-- What becomes of the state by a step. -/
inductive Effect : Event → Pipeline lib → Prop
  | blocked {event : Event} (hblocked : s.Blocked event) : Effect event s
  | turned {sub : Subscriber} (hsub : s.app.websub = some sub) (turn : Turn) :
      Effect (.turn turn) { s with world := turn.step sub.service s.world }
  | requested {sub : Subscriber} (hsub : s.app.websub = some sub) (req : Request) (now : UInt64) :
      Effect (.request req now) (s.request sub req now)
  | verified {i : ℕ} {task : VerifySignature lib} (htask : s.verifying[i]? = some task) :
      Effect (.verified i) { s with verifying := s.verifying.eraseIdx i, channel := s.channel ++ task.run.toList }
  | fetched {topic : String} (hfetches : s.Fetches topic) (page : Page) :
      Effect (.fetched topic page) { s with channel := s.channel ++ page.sent lib readers topic }
  | received {topic : String} {feed : Feed} {channel : List (String × Feed)}
      (hchannel : s.channel = (topic, feed) :: channel) (hidle : s.Idle) :
      Effect .receive { s with receiving := some (topic, feed.entries), channel }
  | called {topic : String} {e : FeedEntry} {rest : List FeedEntry} (faults : EntryFaults)
      (hreceiving : s.receiving = some (topic, e :: rest)) (hsending : s.posting.sending = []) :
      Effect (.entry faults) (s.entry ⟨s.app.core, faults, topic, e⟩ rest)
  | ended {topic : String} (faults : EntryFaults) (hreceiving : s.receiving = some (topic, [])) :
      Effect (.entry faults) { s with receiving := none }
  | spawned : Effect .spawn { s with posting := s.posting.step .spawn }
  | completed (u : Update) (outcome : UpdateOutcome) :
      Effect (.complete u outcome) { s with posting := s.posting.step (.complete u outcome) }
  | reloaded (manifest : Manifest) (env : ReloadEnv) :
      Effect (.reload manifest env) { s with
        app := (s.app.replaceManifest manifest env s.world).2.1
        world := (s.app.replaceManifest manifest env s.world).2.2 }

theorem step_effect (event : Event) : Effect readers s event (s.step readers event) := by
  cases event with
  | turn turn =>
    dsimp only [step]
    split
    · rename_i sub hsub
      exact .turned hsub turn
    · exact .blocked trivial
  | request req now =>
    dsimp only [step]
    split
    · rename_i sub hsub
      exact .requested hsub req now
    · exact .blocked trivial
  | verified i =>
    dsimp only [step]
    split
    · rename_i task htask
      exact .verified htask
    · rename_i hnone
      exact .blocked hnone
  | fetched topic page =>
    dsimp only [step]
    split
    · rename_i hfetches
      exact .fetched hfetches page
    · rename_i hfetches
      exact .blocked hfetches
  | receive =>
    dsimp only [step]
    split
    · rename_i topic feed channel hchannel
      split
      · rename_i hidle
        exact .received hchannel hidle
      · exact .blocked trivial
    · exact .blocked trivial
  | entry faults =>
    dsimp only [step]
    split
    · rename_i topic e rest hreceiving
      split
      · rename_i hsending
        exact .called faults hreceiving hsending
      · rename_i hsending
        exact .blocked (.inr hsending)
    · rename_i topic hreceiving
      exact .ended faults hreceiving
    · rename_i hreceiving
      exact .blocked (.inl hreceiving)
  | spawn => exact .spawned
  | complete u outcome => exact .completed u outcome
  | reload manifest env =>
    dsimp only [step]
    split
    · exact .reloaded manifest env
    · exact .blocked trivial

end Effects

/-! ### Where a post comes from -/

section Origin

variable (hmac : List UInt8 → List UInt8 → List UInt8) (readers : DocumentReaders)

/-- The step has brought the item: as an update that is signed with the secret of a subscription that the
tables had, or as the page of its topic. -/
inductive Brings (item : String × Feed) : Pipeline lib × Event → Prop
  | signed {s : Pipeline lib} {sub : Subscriber} {req : Request} {now : UInt64} {subscription : Subscription}
      (websub : s.app.websub = some sub)
      (update : IsUpdate sub.service lib hmac s.world.db req subscription item) : Brings item (s, .request req now)
  | fetched {s : Pipeline lib} {page : Page} (fetches : s.Fetches item.1)
      (sent : item ∈ page.sent lib readers item.1) : Brings item (s, .fetched item.1 page)

/-- The step has decided on the request: its entry was not in the table, and a rule of the manifest leads from it
to the user, who has a token. -/
inductive Decides (u : Update) : Pipeline lib × Event → Prop
  | entry {s : Pipeline lib} {faults : EntryFaults} {rest : List FeedEntry} {rule : Rule}
      (receiving : s.receiving = some (u.topic, u.entry :: rest))
      (fresh : s.posting.entries.alreadyProcessed u.topic u.entry.id u.link = false)
      (mem : rule ∈ s.app.core.manifest.rule) (topic : .feed u.topic ∈ rule.topics)
      (accepts : rule.route.Accepts (·.matchesEntry u.entry.toEntry)) (outbox : .twitter u.user ∈ rule.route.outbox)
      (token : (s.app.core.twitterToken (some u.user)).isSome) (text : u.text = entryText u.entry.title u.link) :
      Decides u (s, .entry faults)

/-- The request was decided on in one of the steps, and its entry is one of a feed that was brought before. -/
def Traced (ms : List (Pipeline lib × Event)) (u : Update) : Prop :=
  ∃ m m' feed, [m, m'].Sublist ms ∧ Brings hmac readers (u.topic, feed) m ∧ u.entry ∈ feed.entries ∧ Decides u m'

/-- Everything on its way comes from somewhere. -/
structure Kept (s : Pipeline lib) (ms : List (Pipeline lib × Event)) : Prop where
  router : s.app.core.router = .fromManifest s.app.core.manifest
  verifying : ∀ task ∈ s.verifying, ∀ item, task.run = some item → ∃ m ∈ ms, Brings hmac readers item m
  channel : ∀ item ∈ s.channel, ∃ m ∈ ms, Brings hmac readers item m
  receiving : ∀ topic entries, s.receiving = some (topic, entries) →
    ∃ feed, (∃ m ∈ ms, Brings hmac readers (topic, feed) m) ∧ ∀ e ∈ entries, e ∈ feed.entries
  posting : ∀ u ∈ s.posting.sending ++ s.posting.inFlight ++ s.posting.succeeded, Traced hmac readers ms u

end Origin

section Steps

variable {hmac : List UInt8 → List UInt8 → List UInt8} {readers : DocumentReaders}
  {s : Pipeline lib} {ms : List (Pipeline lib × Event)} {u : Update} {item : String × Feed}

theorem Traced.append (h : Traced hmac readers ms u) (m : Pipeline lib × Event) :
    Traced hmac readers (ms ++ [m]) u := by
  obtain ⟨m₁, m₂, feed, hsub, hrest⟩ := h
  exact ⟨m₁, m₂, feed, hsub.trans (List.sublist_append_left _ _), hrest⟩

theorem exists_append {P : Pipeline lib × Event → Prop} (h : ∃ m ∈ ms, P m) (m : Pipeline lib × Event) :
    ∃ m' ∈ ms ++ [m], P m' := by
  obtain ⟨m', hm', hp⟩ := h
  exact ⟨m', List.mem_append_left _ hm', hp⟩

theorem Kept.append (h : Kept hmac readers s ms) (m : Pipeline lib × Event) : Kept hmac readers s (ms ++ [m]) where
  router := h.router
  verifying task htask item hitem := exists_append (h.verifying task htask item hitem) m
  channel item hitem := exists_append (h.channel item hitem) m
  receiving topic entries hreceiving := by
    obtain ⟨feed, hfeed, hentries⟩ := h.receiving topic entries hreceiving
    exact ⟨feed, exists_append hfeed m, hentries⟩
  posting u hu := (h.posting u hu).append m

theorem query_eq_none_of_call {svc : Service} {req : Request} {now : UInt64} {w : World} {response : Response}
    {task : VerifySignature lib} (h : ((svc.call lib req now).run w).1 = .ok (response, some task)) :
    req.uri.query = none := by
  cases hquery : req.uri.query with
  | none => rfl
  | some query =>
    have hsat : Prog.Sat (svc.call lib req now) w (fun r _ => r.2 = none) fun _ _ => True := by
      unfold Service.call
      split
      · rfl
      split
      · trivial
      · rfl
      split
      · rfl
      · rw [hquery]
        exact Prog.sat_bind (R := fun _ _ => True) Prog.sat_trivial fun _ _ _ => rfl
    have hnone := hsat.of_ok h
    cases hnone

/-- The future that a request spawns brings a signed update. -/
theorem brings_of_call (hmac_inc : Incremental lib.hmac hmac) (hhex : HexSlice lib.hexDecode) {sub : Subscriber}
    (hsub : s.app.websub = some sub) {req : Request} {now : UInt64} {task : VerifySignature lib}
    (htask : ((sub.service.call lib req now).run s.world).1.toOption.bind (·.2) = some task)
    (hitem : task.run = some item) : Brings hmac readers item (s, .request req now) := by
  have hcall : ∃ response, ((sub.service.call lib req now).run s.world).1 = .ok (response, some task) := by
    cases hrun : ((sub.service.call lib req now).run s.world).1 with
    | error e =>
      rw [hrun] at htask
      cases htask
    | ok r =>
      rw [hrun] at htask
      obtain ⟨response, spawned⟩ := r
      exact ⟨response, congrArg Except.ok (Prod.ext rfl htask)⟩
  obtain ⟨response, hcall⟩ := hcall
  have hmem : item ∈ sub.service.delivered lib req now s.world := by
    unfold Service.delivered
    rw [hcall]
    exact Option.mem_toList.mpr hitem
  obtain ⟨subscription, hupdate⟩ := (isUpdate_iff hmac_inc hhex).mpr ((mem_delivered (query_eq_none_of_call hcall)).mp hmem)
  exact .signed hsub hupdate

theorem mem_of_mem_settled {p : Posting} {a : Posting.Act} (ha : a.Settles)
    (hu : u ∈ (p.step a).sending ++ (p.step a).inFlight ++ (p.step a).succeeded) :
    u ∈ p.sending ++ p.inFlight ++ p.succeeded := by
  cases a with
  | call c => exact ha.elim
  | spawn =>
    cases hsending : p.sending with
    | nil => rwa [Posting.step_spawn_nil p hsending, hsending] at hu
    | cons u' sending =>
      rw [Posting.step_spawn p hsending] at hu
      simp only [List.mem_append, List.mem_cons, List.not_mem_nil, or_false] at hu ⊢
      tauto
  | complete u' outcome =>
    by_cases hmem : u' ∈ p.inFlight
    · have herase : ∀ x ∈ p.inFlight.erase u', x ∈ p.inFlight := fun x hx => List.mem_of_mem_erase hx
      cases outcome with
      | ok =>
        rw [Posting.step_ok p hmem] at hu
        simp only [List.mem_append, List.mem_singleton] at hu ⊢
        rcases hu with (hu | hu) | hu | rfl
        · exact .inl (.inl hu)
        · exact .inl (.inr (herase u hu))
        · exact .inr hu
        · exact .inl (.inr hmem)
      | failed =>
        rw [Posting.step_failed p hmem] at hu
        simp only [List.mem_append] at hu ⊢
        rcases hu with (hu | hu) | hu
        · exact .inl (.inl hu)
        · exact .inl (.inr (herase u hu))
        · exact .inr hu
      | unsaved =>
        rw [Posting.step_unsaved p hmem] at hu
        simp only [List.mem_append, List.mem_singleton] at hu ⊢
        rcases hu with (hu | hu) | hu | rfl
        · exact .inl (.inl hu)
        · exact .inl (.inr (herase u hu))
        · exact .inr hu
        · exact .inl (.inr hmem)
    · rwa [Posting.step_complete_of_notMem p outcome hmem] at hu

/-- The loop over the outboxes spawns requests for users with a token. -/
theorem isSome_token_of_mem {core : Core} {faults : EntryFaults} {i : ℕ} {outboxes : List Outbox} {user : Int64}
    (h : user ∈ (postOutboxes core faults i outboxes).1) : (core.twitterToken (some user)).isSome := by
  fun_induction postOutboxes core faults i outboxes with
  | case1 => cases h
  | case2 => cases h
  | case3 => cases h
  | case4 i user' outboxes _ token htoken users result heq ih =>
    rcases List.mem_cons.mp h with rfl | h
    · rw [htoken]
      rfl
    · rw [heq] at ih
      exact ih h

theorem decides_of_mem {faults : EntryFaults} {topic : String} {e : FeedEntry} {rest : List FeedEntry}
    (hrouter : s.app.core.router = .fromManifest s.app.core.manifest)
    (hreceiving : s.receiving = some (topic, e :: rest))
    (hu : u ∈ (Call.run ⟨s.app.core, faults, topic, e⟩ s.posting.entries).1) :
    u.topic = topic ∧ u.entry = e ∧ Decides u (s, .entry faults) := by
  rcases Posting.run_cases ⟨s.app.core, faults, topic, e⟩ s.posting.entries with ⟨-, hnil⟩ | ⟨link, hasks, hnew, hmap⟩
  · rw [hnil] at hu
    cases hu
  · rw [hmap] at hu
    obtain ⟨user, huser, rfl⟩ := List.mem_map.mp hu
    have hroute : .twitter user ∈ s.app.core.router.routeEntry topic e.toEntry :=
      (Posting.postOutboxes_initial s.app.core faults 0 _).subset (List.mem_map_of_mem huser)
    rw [hrouter, Router.routeEntry_fromManifest] at hroute
    obtain ⟨rule, hrule, houtbox⟩ := List.mem_flatMap.mp hroute
    obtain ⟨htopic, haccepts, houtbox⟩ := Rule.mem_scan.mp houtbox
    exact ⟨rfl, rfl, .entry hreceiving hnew hrule htopic haccepts houtbox (isSome_token_of_mem huser) rfl⟩

/-- `replace_manifest` leaves a router that is made from the manifest. -/
theorem router_replaceManifest {app : App} (h : app.core.router = .fromManifest app.core.manifest)
    (manifest : Manifest) (env : ReloadEnv) (w : World) :
    (app.replaceManifest manifest env w).2.1.core.router =
      .fromManifest (app.replaceManifest manifest env w).2.1.core.manifest := by
  cases hrun : app.replaceManifest manifest env w with
  | mk r rest =>
    obtain ⟨app', w'⟩ := rest
    rcases replaceManifest_cases hrun with ⟨rfl, -⟩ | ⟨pool, applied, -, -, ⟨-, rfl, -⟩ | ⟨e, -, rfl, happly⟩⟩
    · exact h
    · show Router.fromManifest applied.core.manifest = .fromManifest applied.core.gcTwitterTokens.manifest
      rw [manifest_gc]
    · show applied.core.router = .fromManifest app.core.manifest
      rw [(apply_cases happly).1.router, h]

theorem Kept.entry (h : Kept hmac readers s ms) (faults : EntryFaults) {topic : String} {e : FeedEntry}
    {rest : List FeedEntry} (hreceiving : s.receiving = some (topic, e :: rest)) (hsending : s.posting.sending = []) :
    Kept hmac readers (s.entry ⟨s.app.core, faults, topic, e⟩ rest) (ms ++ [(s, .entry faults)]) := by
  obtain ⟨feed, ⟨m, hm, hbrings⟩, hentries⟩ := h.receiving topic (e :: rest) hreceiving
  have hkept := h.append (s, .entry faults)
  refine ⟨hkept.router, hkept.verifying, hkept.channel, ?_, ?_⟩
  · intro topic' entries hreceiving'
    refine ⟨feed, ?_⟩
    unfold Pipeline.entry at hreceiving'
    dsimp only at hreceiving'
    split at hreceiving'
    · cases hreceiving'
      exact ⟨⟨m, List.mem_append_left _ hm, hbrings⟩, fun e' he' => hentries e' (List.mem_cons_of_mem _ he')⟩
    · cases hreceiving'
  · intro u hu
    unfold Pipeline.entry at hu
    rw [Posting.step_call _ _ hsending] at hu
    dsimp only at hu
    rw [List.append_assoc, List.mem_append] at hu
    rcases hu with hu | hu
    · obtain ⟨rfl, rfl, hdecides⟩ := decides_of_mem h.router hreceiving hu
      refine ⟨m, _, feed, ?_, hbrings, hentries _ List.mem_cons_self, hdecides⟩
      exact (List.singleton_sublist.mpr hm).append (List.Sublist.refl [(s, Event.entry faults)])
    · refine hkept.posting u ?_
      rw [List.append_assoc]
      exact List.mem_append_right _ hu

theorem Kept.step (hmac_inc : Incremental lib.hmac hmac) (hhex : HexSlice lib.hexDecode)
    (h : Kept hmac readers s ms) {event : Event} {s' : Pipeline lib} (heffect : Effect readers s event s') :
    Kept hmac readers s' (ms ++ [(s, event)]) := by
  have hkept := h.append (s, event)
  have hlast : (s, event) ∈ ms ++ [(s, event)] := List.mem_append_right _ (List.mem_singleton_self _)
  cases heffect with
  | blocked => exact hkept
  | turned => exact ⟨hkept.router, hkept.verifying, hkept.channel, hkept.receiving, hkept.posting⟩
  | requested hsub req now =>
    refine ⟨hkept.router, ?_, hkept.channel, hkept.receiving, hkept.posting⟩
    intro task htask item hitem
    rcases List.mem_append.mp htask with htask | htask
    · exact hkept.verifying task htask item hitem
    · exact ⟨_, hlast, brings_of_call hmac_inc hhex hsub (Option.mem_toList.mp htask) hitem⟩
  | @verified i task htask =>
    refine ⟨hkept.router, ?_, ?_, hkept.receiving, hkept.posting⟩
    · exact fun task' htask' => hkept.verifying task' (List.mem_of_mem_eraseIdx htask')
    · intro item hitem
      rcases List.mem_append.mp hitem with hitem | hitem
      · exact hkept.channel item hitem
      · exact hkept.verifying task (List.mem_of_getElem? htask) item (Option.mem_toList.mp hitem)
  | fetched hfetches page =>
    refine ⟨hkept.router, hkept.verifying, ?_, hkept.receiving, hkept.posting⟩
    intro item hitem
    rcases List.mem_append.mp hitem with hitem | hitem
    · exact hkept.channel item hitem
    · obtain ⟨d, hd, rfl⟩ := Page.mem_sent.mp hitem
      exact ⟨_, hlast, .fetched hfetches hitem⟩
  | @received topic feed channel hchannel =>
    refine ⟨hkept.router, hkept.verifying, ?_, ?_, hkept.posting⟩
    · exact fun item hitem => hkept.channel item (hchannel ▸ List.mem_cons_of_mem _ hitem)
    · rintro _ _ ⟨⟩
      exact ⟨feed, hkept.channel (topic, feed) (hchannel ▸ List.mem_cons_self), fun _ => id⟩
  | called faults hreceiving hsending => exact h.entry faults hreceiving hsending
  | ended =>
    refine ⟨hkept.router, hkept.verifying, hkept.channel, ?_, hkept.posting⟩
    exact fun _ _ h => (nomatch h)
  | spawned =>
    refine ⟨hkept.router, hkept.verifying, hkept.channel, hkept.receiving, ?_⟩
    exact fun u hu => hkept.posting u (mem_of_mem_settled (a := .spawn) trivial hu)
  | completed u' outcome =>
    refine ⟨hkept.router, hkept.verifying, hkept.channel, hkept.receiving, ?_⟩
    exact fun u hu => hkept.posting u (mem_of_mem_settled (a := .complete u' outcome) trivial hu)
  | reloaded manifest env =>
    exact ⟨router_replaceManifest h.router manifest env s.world, hkept.verifying, hkept.channel,
      hkept.receiving, hkept.posting⟩

end Steps

/-- **Every post comes from a hub or from its topic.** In every run, with requests from anyone at any time, each
post that is made or being made is of an entry of a feed whose content was signed with the secret of a
subscription, or was fetched from the topic. When it was decided on, its entry was not in the table and a rule of
the manifest led from it to the user. -/
theorem posts_traced {hmac : List UInt8 → List UInt8 → List UInt8} (readers : DocumentReaders)
    (hmac_inc : Incremental lib.hmac hmac) (hhex : HexSlice lib.hexDecode) {manifest : Manifest} {env : AppEnv}
    {w world : World} {app : App} (hnew : App.withHttpClient manifest env w = (.ok app, world)) (entries : Entries)
    (run : List Event) :
    ∀ u ∈ (Runs.final (step readers) (start lib app world entries) run).posting.inFlight ++
        (Runs.final (step readers) (start lib app world entries) run).posting.succeeded,
      Traced hmac readers (Runs.moves (step readers) (start lib app world entries) run) u := by
  obtain ⟨hconf, hmanifest⟩ := withHttpClient_asConfigured hnew
  have hstart : Kept hmac readers (start lib app world entries) [] := by
    refine ⟨?_, fun _ h => (nomatch h), fun _ h => (nomatch h), fun _ _ h => (nomatch h), fun _ h => (nomatch h)⟩
    show app.core.router = .fromManifest app.core.manifest
    rw [hmanifest, hconf.router]
  have hkept := Runs.final_moves_induction (P := fun s ms => Kept hmac readers s ms)
    (fun s _ event h => h.step hmac_inc hhex (step_effect readers s event)) hstart run
  intro u hu
  refine hkept.posting u ?_
  rw [List.append_assoc]
  exact List.mem_append_right _ hu

/-! ### A topic that is fetched -/

/-- The entries of a topic are posted by user 1. -/
def feedManifest : Manifest where
  databaseUrl := none
  rule := [⟨⟨none, none, [.twitter 1]⟩, [.feed "https://example.com/topic"]⟩]
  websub := some ⟨⟨some "https", some "example.com", some "/callback/"⟩, some "127.0.0.1:8080", 3600000000000⟩
  twitter := some ⟨⟨"key", "secret"⟩, 1, false, none⟩
  skipDuplicate := false

def describedRun : List Event :=
  [.fetched "https://example.com/topic" describedPage, .receive, .entry fun _ => false, .spawn]

def describedUpdate : Update :=
  ⟨"https://example.com/topic", describedItem.toEntry [], 1, "https://example.com/1", "https://example.com/1", rfl⟩

theorem posts_traced_described : ∃ app world,
    App.withHttpClient feedManifest startEnv sampleWorld = (.ok app, world) ∧
      Traced describedHmac describedReaders
        (Runs.moves (step describedReaders) (start describedLibraries app world .empty) describedRun)
        describedUpdate := by
  have hhex : HexSlice describedLibraries.hexDecode := hexSlice_sampleCallLibraries
  refine ⟨_, _, by with_unfolding_all rfl, @posts_traced describedLibraries describedHmac describedReaders
    incremental_described hhex feedManifest startEnv sampleWorld _ _ (by with_unfolding_all rfl) .empty
    describedRun describedUpdate ?_⟩
  decide +kernel

end Pipeline

end Pipitor.App
