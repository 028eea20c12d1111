import Pipitor.App.Pipeline

/-!
# What becomes of the entries

The other direction of `posts_traced`: nothing that has come into the channel is lost on the way. Each entry is given
to `send_entry` once, in the order in which they have come, unless an earlier entry of its feed has failed;
and of what a rule of the manifest sends to a user a request is made, if the entry is not in the table.
-/

namespace Pipitor.App.Pipeline

open Resumption Websub

variable {lib : CallLibraries}

def entriesOf (item : String × Feed) : List (String × FeedEntry) := item.2.entries.map fun e => (item.1, e)

/-- What the step puts into the channel. -/
def brought (readers : DocumentReaders) : Pipeline lib × Event → List (String × FeedEntry)
  | (s, .verified i) => (s.verifying[i]?.bind (·.run)).toList.flatMap entriesOf
  | (s, .fetched topic page) => if s.Fetches topic then (page.sent lib readers topic).flatMap entriesOf else []
  | _ => []

/-- The call of `send_entry` that the step makes, and the entries after it. -/
def calling : Pipeline lib × Event → Option (Call × List FeedEntry)
  | (s, .entry faults) => match s.receiving with
    | some (topic, e :: rest) =>
      if s.posting.sending = [] then some (⟨s.app.core, faults, topic, e⟩, rest) else none
    | _ => none
  | _ => none

/-- The entry that the call is for. If it fails they are all done with. -/
def treated (m : Pipeline lib × Event) : List (String × FeedEntry) :=
  match calling m with
  | some (c, rest) => match (c.run m.1.posting.entries).2 with
    | .ok () => [(c.topic, c.entry)]
    | .error _ => (c.topic, c.entry) :: rest.map fun e => (c.topic, e)
  | none => []

def waiting (s : Pipeline lib) : List (String × FeedEntry) :=
  (s.receiving.elim [] fun x => x.2.map fun e => (x.1, e)) ++ s.channel.flatMap entriesOf

/-- What the step decides on. -/
def decided (m : Pipeline lib × Event) : List Update :=
  match calling m with
  | some (c, _) => (c.run m.1.posting.entries).1
  | none => []

/-- The request has ended. -/
def Settled (ms : List (Pipeline lib × Event)) (u : Update) : Prop :=
  ∃ m ∈ ms, ∃ outcome, m.2 = .complete u outcome ∧ u ∈ m.1.posting.inFlight

/-! ### The order -/

section Order

variable (readers : DocumentReaders) {s : Pipeline lib}

theorem calling_entry {faults : EntryFaults} {topic : String} {e : FeedEntry} {rest : List FeedEntry}
    (hreceiving : s.receiving = some (topic, e :: rest)) (hsending : s.posting.sending = []) :
    calling (s, .entry faults) = some (⟨s.app.core, faults, topic, e⟩, rest) := by
  unfold calling
  dsimp only
  rw [hreceiving]
  exact if_pos hsending

theorem waiting_entry {c : Call} {e : FeedEntry} {rest : List FeedEntry} (hcall : c.entry = e)
    (hreceiving : s.receiving = some (c.topic, e :: rest)) :
    s.waiting = (match (c.run s.posting.entries).2 with
      | .ok () => [(c.topic, c.entry)]
      | .error _ => (c.topic, c.entry) :: rest.map fun e => (c.topic, e)) ++ (s.entry c rest).waiting := by
  unfold waiting entry
  rw [hreceiving, hcall]
  dsimp only
  cases (c.run s.posting.entries).2 with
  | ok u =>
    cases u
    rfl
  | error e => simp

theorem waiting_eq {s' : Pipeline lib} (hreceiving : s'.receiving = s.receiving) (hchannel : s'.channel = s.channel) :
    s.waiting ++ [] = [] ++ s'.waiting := by
  unfold waiting
  rw [hreceiving, hchannel, List.append_nil, List.nil_append]

theorem waiting_append (items : List (String × Feed)) {s' : Pipeline lib} (hreceiving : s'.receiving = s.receiving)
    (hchannel : s'.channel = s.channel ++ items) :
    s.waiting ++ items.flatMap entriesOf = [] ++ s'.waiting := by
  unfold waiting
  rw [hreceiving, hchannel, List.flatMap_append, List.nil_append, List.append_assoc]

theorem calling_of_blocked {faults : EntryFaults} (hblocked : s.Blocked (.entry faults)) :
    calling (s, .entry faults) = none := by
  unfold calling
  dsimp only
  split
  · rename_i topic e rest hreceiving
    refine if_neg fun hsending => ?_
    rcases hblocked with hnone | hsending'
    · cases hreceiving.symm.trans hnone
    · exact hsending' hsending
  · rfl

theorem calling_ended {faults : EntryFaults} {topic : String} (hreceiving : s.receiving = some (topic, [])) :
    calling (s, .entry faults) = none := by
  unfold calling
  dsimp only
  rw [hreceiving]

theorem waiting_blocked {event : Event} (hblocked : s.Blocked event) :
    s.waiting ++ brought readers (s, event) = treated (s, event) ++ s.waiting := by
  cases event with
  | verified i =>
    have hnone : s.verifying[i]? = none := hblocked
    dsimp only [brought]
    rw [hnone]
    exact waiting_eq rfl rfl
  | fetched topic page =>
    dsimp only [brought]
    rw [if_neg hblocked]
    exact waiting_eq rfl rfl
  | entry faults =>
    unfold treated
    rw [calling_of_blocked hblocked]
    exact waiting_eq rfl rfl
  | _ => exact waiting_eq rfl rfl

/-- What waits after a step is what waited before and what it has brought, without what it treats. -/
theorem waiting_step {event : Event} {s' : Pipeline lib} (heffect : Effect readers s event s') :
    s.waiting ++ brought readers (s, event) = treated (s, event) ++ s'.waiting := by
  cases heffect with
  | blocked hblocked => exact waiting_blocked readers hblocked
  | turned => exact waiting_eq rfl rfl
  | requested => exact waiting_eq rfl rfl
  | @verified i task htask =>
    dsimp only [brought]
    rw [htask]
    exact waiting_append task.run.toList rfl rfl
  | @fetched topic hfetches page =>
    dsimp only [brought]
    rw [if_pos hfetches]
    exact waiting_append (page.sent lib readers topic) rfl rfl
  | received hchannel hidle =>
    show s.waiting ++ [] = [] ++ _
    unfold waiting
    rw [hidle.1, hchannel, List.append_nil, List.nil_append]
    rfl
  | called faults hreceiving hsending =>
    show s.waiting ++ [] = _
    unfold treated
    rw [List.append_nil, calling_entry hreceiving hsending]
    exact waiting_entry rfl hreceiving
  | ended faults hreceiving =>
    show s.waiting ++ [] = _
    unfold treated waiting
    rw [calling_ended hreceiving, hreceiving, List.append_nil]
    rfl
  | spawned => exact waiting_eq rfl rfl
  | completed => exact waiting_eq rfl rfl
  | reloaded => exact waiting_eq rfl rfl

end Order

/-! ### The requests -/

section Requests

variable {s : Pipeline lib} {ms : List (Pipeline lib × Event)} {u : Update}

theorem postOutboxes_ok {core : Core} {faults : EntryFaults} {i : ℕ} {outboxes : List Outbox}
    (h : (postOutboxes core faults i outboxes).2 = .ok ()) :
    (postOutboxes core faults i outboxes).1.map .twitter = outboxes := by
  fun_induction postOutboxes core faults i outboxes with
  | case1 => rfl
  | case2 => cases h
  | case3 => cases h
  | case4 i user outboxes _ token htoken users result heq ih =>
    rw [heq] at ih
    rw [List.map_cons, ih h]

theorem asks_of_ok {c : Call} {entries : Entries} (hok : (c.run entries).2 = .ok ()) {link : String}
    (hlink : c.entry.link = some link) (hnew : entries.alreadyProcessed c.topic c.entry.id link = false) :
    c.Asks link ∧ c.users.map .twitter = c.route := by
  unfold Call.run sendEntry at hok
  split at hok
  · rename_i hnone
    rw [hnone] at hlink
    cases hlink
  · rename_i link' hlink'
    obtain rfl := Option.some.inj (hlink'.symm.trans hlink)
    split at hok
    · cases hok
    · split at hok
      · cases hok
      · rename_i hconnect hprocessed
        rw [if_neg (by simp [hnew])] at hok
        refine ⟨⟨hlink, by simpa using hconnect, by simpa using hprocessed⟩, ?_⟩
        exact postOutboxes_ok hok

theorem exists_decided {c : Call} {entries : Entries} {manifest : Manifest}
    (hrouter : c.core.router = .fromManifest manifest) (hok : (c.run entries).2 = .ok ()) {link : String}
    (hlink : c.entry.link = some link) (hnew : entries.alreadyProcessed c.topic c.entry.id link = false) {rule : Rule}
    (hrule : rule ∈ manifest.rule) (htopic : .feed c.topic ∈ rule.topics)
    (haccepts : rule.route.Accepts (·.matchesEntry c.entry.toEntry)) {user : Int64}
    (houtbox : .twitter user ∈ rule.route.outbox) :
    ∃ u ∈ (c.run entries).1, u.topic = c.topic ∧ u.entry = c.entry ∧ u.user = user := by
  obtain ⟨hasks, husers⟩ := asks_of_ok hok hlink hnew
  have hroute : .twitter user ∈ c.users.map Outbox.twitter := by
    rw [husers]
    unfold Call.route
    rw [hrouter, Router.routeEntry_fromManifest]
    exact List.mem_flatMap.mpr ⟨rule, hrule, Rule.mem_scan.mpr ⟨htopic, haccepts, houtbox⟩⟩
  obtain ⟨user', huser, heq⟩ := List.mem_map.mp hroute
  obtain rfl := Outbox.twitter.inj heq
  rw [Posting.run_eq_map hasks hnew]
  exact ⟨_, List.mem_map_of_mem huser, rfl, rfl, rfl⟩

theorem mem_or_complete {p : Posting} {a : Posting.Act} (ha : a.Settles) (hu : u ∈ p.sending ++ p.inFlight) :
    u ∈ (p.step a).sending ++ (p.step a).inFlight ∨ ∃ outcome, a = .complete u outcome ∧ u ∈ p.inFlight := by
  cases a with
  | call c => exact ha.elim
  | spawn =>
    left
    cases hsending : p.sending with
    | nil => rwa [Posting.step_spawn_nil p hsending]
    | cons u' sending =>
      rw [Posting.step_spawn p hsending]
      rw [hsending] at hu
      simp only [List.mem_append, List.mem_cons, List.not_mem_nil, or_false] at hu ⊢
      tauto
  | complete u' outcome =>
    by_cases hmem : u' ∈ p.inFlight
    · by_cases heq : u = u'
      · subst heq
        exact .inr ⟨outcome, rfl, hmem⟩
      · left
        have hkept : u ∈ p.sending ++ p.inFlight.erase u' := by
          rcases List.mem_append.mp hu with hu | hu
          · exact List.mem_append_left _ hu
          · exact List.mem_append_right _ ((List.mem_erase_of_ne heq).mpr hu)
        cases outcome with
        | ok => rwa [Posting.step_ok p hmem]
        | failed => rwa [Posting.step_failed p hmem]
        | unsaved => rwa [Posting.step_unsaved p hmem]
    · left
      rwa [Posting.step_complete_of_notMem p outcome hmem]

/-- It is on its way or has ended. -/
def Accounted (s : Pipeline lib) (ms : List (Pipeline lib × Event)) (u : Update) : Prop :=
  u ∈ s.posting.sending ++ s.posting.inFlight ∨ Settled ms u

theorem Accounted.of_posting (h : Accounted s ms u) {s' : Pipeline lib} (hposting : s'.posting = s.posting)
    (m : Pipeline lib × Event) : Accounted s' (ms ++ [m]) u := by
  unfold Accounted
  rw [hposting]
  refine h.imp_right ?_
  rintro ⟨m', hm', hcomplete⟩
  exact ⟨m', List.mem_append_left _ hm', hcomplete⟩

theorem Accounted.of_settles (h : Accounted s ms u) {s' : Pipeline lib} {a : Posting.Act} (ha : a.Settles)
    (hposting : s'.posting = s.posting.step a) {event : Event}
    (hevent : ∀ u outcome, a = .complete u outcome → event = .complete u outcome) :
    Accounted s' (ms ++ [(s, event)]) u := by
  rcases h with h | ⟨m, hm, hcomplete⟩
  · rcases mem_or_complete ha h with hmem | ⟨outcome, hcomplete, hmem⟩
    · left
      rwa [hposting]
    · exact .inr ⟨_, List.mem_append_right _ (List.mem_singleton_self _), outcome, hevent u outcome hcomplete, hmem⟩
  · exact .inr ⟨m, List.mem_append_left _ hm, hcomplete⟩

theorem Accounted.step {readers : DocumentReaders} (h : Accounted s ms u) {event : Event} {s' : Pipeline lib}
    (heffect : Effect readers s event s') : Accounted s' (ms ++ [(s, event)]) u := by
  cases heffect with
  | called faults hreceiving hsending =>
    rcases h with h | ⟨m, hm, hcomplete⟩
    · left
      rw [hsending, List.nil_append] at h
      show u ∈ (s.posting.step (.call _)).sending ++ (s.posting.step (.call _)).inFlight
      rw [Posting.step_call _ _ hsending]
      exact List.mem_append_right _ h
    · exact .inr ⟨m, List.mem_append_left _ hm, hcomplete⟩
  | spawned => exact h.of_settles (a := .spawn) trivial rfl fun _ _ h => by cases h
  | completed u' outcome =>
    refine h.of_settles (a := .complete u' outcome) trivial rfl fun _ _ h => ?_
    cases h
    rfl
  -- The other steps leave the requests alone.
  | _ => exact h.of_posting rfl _

theorem calling_eq_some {m : Pipeline lib × Event} {c : Call} {rest : List FeedEntry}
    (h : calling m = some (c, rest)) : m.2 = .entry c.faults ∧ c.core = m.1.app.core ∧
      m.1.receiving = some (c.topic, c.entry :: rest) ∧ m.1.posting.sending = [] := by
  obtain ⟨s, event⟩ := m
  cases event with
  | entry faults =>
    unfold calling at h
    dsimp only at h
    split at h
    · rename_i topic e rest' hreceiving
      split at h
      · rename_i hsending
        cases h
        exact ⟨rfl, rfl, hreceiving, hsending⟩
      · cases h
    · cases h
  | _ => cases h

theorem accounted_decided (readers : DocumentReaders) {event : Event} (hu : u ∈ decided (s, event)) :
    Accounted (s.step readers event) (ms ++ [(s, event)]) u := by
  unfold decided at hu
  split at hu
  · rename_i c rest hcalling
    obtain ⟨hevent, hcore, hreceiving, hsending⟩ := calling_eq_some hcalling
    dsimp only at hevent hcore hreceiving hsending hu
    subst hevent
    left
    have hstep : (s.step readers (.entry c.faults)).posting = s.posting.step (.call c) := by
      dsimp only [Pipeline.step]
      rw [hreceiving]
      dsimp only
      rw [if_pos hsending, ← hcore]
      rfl
    rw [hstep, Posting.step_call _ _ hsending]
    exact List.mem_append_left _ hu
  · cases hu

end Requests

/-! ### Over a run -/

section Run

variable {readers : DocumentReaders}

theorem waiting_run (readers : DocumentReaders) (app : App) (world : World) (entries : Entries) (run : List Event) :
    (Runs.moves (step readers) (start lib app world entries) run).flatMap (brought readers) =
      (Runs.moves (step readers) (start lib app world entries) run).flatMap treated ++
        (Runs.final (step readers) (start lib app world entries) run).waiting := by
  refine Runs.final_moves_induction
    (P := fun s ms => ms.flatMap (brought readers) = ms.flatMap treated ++ s.waiting) ?_ rfl run
  intro s ms event h
  simp only [List.flatMap_append, List.flatMap_cons, List.flatMap_nil, List.append_nil]
  rw [h, List.append_assoc, waiting_step readers (step_effect readers s event), List.append_assoc]

theorem accounted_run (readers : DocumentReaders) (app : App) (world : World) (entries : Entries) (run : List Event) :
    ∀ m ∈ Runs.moves (step readers) (start lib app world entries) run, ∀ u ∈ decided m,
      Accounted (Runs.final (step readers) (start lib app world entries) run)
        (Runs.moves (step readers) (start lib app world entries) run) u := by
  refine Runs.final_moves_induction (P := fun s ms => ∀ m ∈ ms, ∀ u ∈ decided m, Accounted s ms u) ?_
    (fun _ h => by cases h) run
  intro s ms event h m hm u hu
  rcases List.mem_append.mp hm with hm | hm
  · exact (h m hm u hu).step (step_effect readers s event)
  · rw [List.mem_singleton.mp hm] at hu
    exact accounted_decided readers hu

theorem router_step {s s' : Pipeline lib} (h : s.app.core.router = .fromManifest s.app.core.manifest) {event : Event}
    (heffect : Effect readers s event s') : s'.app.core.router = .fromManifest s'.app.core.manifest := by
  cases heffect with
  | reloaded manifest env => exact router_replaceManifest h manifest env s.world
  | _ => exact h

/-- **Nothing is lost on the way.** In every run each entry that has come into the channel is given to `send_entry`
once, in the order in which they have come, waits for it, or was behind one that has failed in its feed. When a call has
not failed, whatever a rule of the manifest sends to a user was in the table, or is on its way to the user or has been
sent. -/
theorem entries_forwarded (readers : DocumentReaders) {manifest : Manifest} {env : AppEnv} {w world : World} {app : App}
    (hnew : App.withHttpClient manifest env w = (.ok app, world)) (entries : Entries) (run : List Event) :
    (Runs.moves (step readers) (start lib app world entries) run).flatMap (brought readers) =
        (Runs.moves (step readers) (start lib app world entries) run).flatMap treated ++
          (Runs.final (step readers) (start lib app world entries) run).waiting ∧
      ∀ m ∈ Runs.moves (step readers) (start lib app world entries) run, ∀ c rest, calling m = some (c, rest) →
        (c.run m.1.posting.entries).2 = .ok () → ∀ link, c.entry.link = some link →
          m.1.posting.entries.alreadyProcessed c.topic c.entry.id link = true ∨
          ∀ rule ∈ m.1.app.core.manifest.rule, .feed c.topic ∈ rule.topics →
            rule.route.Accepts (·.matchesEntry c.entry.toEntry) → ∀ user, .twitter user ∈ rule.route.outbox →
              ∃ u, u.topic = c.topic ∧ u.entry = c.entry ∧ u.user = user ∧
                Accounted (Runs.final (step readers) (start lib app world entries) run)
                  (Runs.moves (step readers) (start lib app world entries) run) u := by
  refine ⟨waiting_run readers app world entries run, fun m hm c rest hcalling hok link hlink => ?_⟩
  obtain ⟨hconf, hmanifest⟩ := withHttpClient_asConfigured hnew
  have hrouter : m.1.app.core.router = .fromManifest m.1.app.core.manifest := by
    obtain ⟨run', -, hfinal⟩ := Runs.mem_moves_iff.mp hm
    rw [← hfinal]
    refine Runs.final_induction (I := fun s : Pipeline lib => s.app.core.router = .fromManifest s.app.core.manifest)
      (fun s event h => router_step h (step_effect readers s event)) ?_ run'
    show app.core.router = .fromManifest app.core.manifest
    rw [hmanifest, hconf.router]
  cases hprocessed : m.1.posting.entries.alreadyProcessed c.topic c.entry.id link with
  | true => exact .inl rfl
  | false =>
    right
    intro rule hrule htopic haccepts user houtbox
    rw [← (calling_eq_some hcalling).2.1] at hrouter hrule
    obtain ⟨u, hu, htopic', hentry, huser⟩ :=
      exists_decided hrouter hok hlink hprocessed hrule htopic haccepts houtbox
    refine ⟨u, htopic', hentry, huser, accounted_run readers app world entries run m hm u ?_⟩
    unfold decided
    rw [hcalling]
    exact hu

/-- The one entry has been given to `send_entry`. -/
theorem entries_forwarded_described : ∃ app world,
    App.withHttpClient feedManifest startEnv sampleWorld = (.ok app, world) ∧
      (Runs.moves (step describedReaders) (start describedLibraries app world .empty) describedRun).flatMap treated =
        [("https://example.com/topic", describedItem.toEntry [])] := by
  obtain ⟨app, world, hnew, hbrought, hwaiting⟩ : ∃ app world,
      App.withHttpClient feedManifest startEnv sampleWorld = (.ok app, world) ∧
      (Runs.moves (step describedReaders) (start describedLibraries app world .empty) describedRun).flatMap
        (brought describedReaders) = [("https://example.com/topic", describedItem.toEntry [])] ∧
      (Runs.final (step describedReaders) (start describedLibraries app world .empty) describedRun).waiting = [] :=
    ⟨_, _, by with_unfolding_all rfl, by decide +kernel, by decide +kernel⟩
  have horder := (@entries_forwarded describedLibraries describedReaders _ _ _ _ _ hnew .empty describedRun).1
  rw [hbrought, hwaiting, List.append_nil] at horder
  exact ⟨app, world, hnew, horder.symm⟩

end Run

end Pipitor.App.Pipeline
