import Mathlib.Data.List.Nodup
import Pipitor.App.Entries
import Pipitor.Foundation.Runs

/-!
# Posting the entries of feeds

Calls of `send_entry` come one after another, whichever topic and feed their entries are from. A call reads
the table once; the requests that it has decided on are then spawned one by one, and between any two steps
any request under way may be completed. The configuration may be another for each call.

`posted_once_iff` is about requests that are made twice, `nothing_lost_iff` about entries that are skipped.
-/

namespace Pipitor.App

/-- A call of `send_entry`, with the statements of it that fail. -/
structure Call where
  core : Core
  faults : EntryFaults
  topic : String
  entry : FeedEntry

namespace Call

variable (c : Call)

def run (entries : Entries) : List Update × Except Failure Unit :=
  sendEntry c.core c.faults c.topic c.entry entries

def route : List Outbox := c.core.router.routeEntry c.topic c.entry.toEntry

/-- The call asks the table for its entry, whose link is `link`. -/
def Asks (link : String) : Prop :=
  c.entry.link = some link ∧ c.faults .connect = false ∧ c.faults .processed = false

/-- The users for whom the call spawns a request if the table does not have its entry. -/
def users : List Int64 := (postOutboxes c.core c.faults 0 c.route).1

end Call

/-- What a request is for: a link and a user. -/
def Update.key (u : Update) : String × Int64 := (u.link, u.user)

/-- The end of an `Update` request: it has failed, it has succeeded and the row has been stored, or it has
succeeded and the row could not be stored. -/
inductive UpdateOutcome
  | ok
  | failed
  | unsaved
deriving DecidableEq, Repr

/-- `sending` are the requests that the present call has still to spawn, and `succeeded` is the history. -/
structure Posting where
  entries : Entries
  sending : List Update
  inFlight : List Update
  succeeded : List Update

namespace Posting

inductive Act
  | call (c : Call)
  | spawn
  | complete (u : Update) (outcome : UpdateOutcome)

/-- Before the first call. -/
def fresh (entries : Entries) : Posting := ⟨entries, [], [], []⟩

def step (s : Posting) : Act → Posting
  | .call c =>
    match s.sending with
    | [] => { s with sending := (c.run s.entries).1 }
    | _ :: _ => s
  | .spawn =>
    match s.sending with
    | [] => s
    | u :: sending => { s with sending, inFlight := s.inFlight ++ [u] }
  | .complete u outcome =>
    if u ∈ s.inFlight then match outcome with
      | .ok => { s with
          entries := s.entries.replaceInto u.row
          inFlight := s.inFlight.erase u
          succeeded := s.succeeded ++ [u] }
      | .failed => { s with inFlight := s.inFlight.erase u }
      | .unsaved => { s with inFlight := s.inFlight.erase u, succeeded := s.succeeded ++ [u] }
    else s

/-! ### What a call decides -/

theorem run_eq_nil {c : Call} {entries : Entries} (h : ∀ link, c.Asks link →
    entries.alreadyProcessed c.topic c.entry.id link = true) : (c.run entries).1 = [] := by
  unfold Call.run sendEntry
  split
  · rfl
  · rename_i link hlink
    split
    · rfl
    split
    · rfl
    rename_i hconnect hprocessed
    rw [if_pos (h link ⟨hlink, by simpa using hconnect, by simpa using hprocessed⟩)]

theorem run_eq_map {c : Call} {entries : Entries} {link : String} (hasks : c.Asks link)
    (hnew : entries.alreadyProcessed c.topic c.entry.id link = false) :
    (c.run entries).1 = c.users.map fun user =>
      ⟨c.topic, c.entry, user, entryText c.entry.title link, link, hasks.1⟩ := by
  obtain ⟨hlink, hconnect, hprocessed⟩ := hasks
  unfold Call.run sendEntry
  split
  · rename_i hnone
    rw [hnone] at hlink
    cases hlink
  · rename_i link' hlink'
    obtain rfl := Option.some.inj (hlink'.symm.trans hlink)
    rw [if_neg (by simp [hconnect]), if_neg (by simp [hprocessed]), if_neg (by simp [hnew])]
    rfl

theorem run_cases (c : Call) (entries : Entries) :
    ((∀ link, c.Asks link → entries.alreadyProcessed c.topic c.entry.id link = true) ∧
        (c.run entries).1 = []) ∨
      ∃ link, ∃ hasks : c.Asks link, entries.alreadyProcessed c.topic c.entry.id link = false ∧
        (c.run entries).1 = c.users.map fun user =>
          ⟨c.topic, c.entry, user, entryText c.entry.title link, link, hasks.1⟩ := by
  by_cases hall : ∀ link, c.Asks link → entries.alreadyProcessed c.topic c.entry.id link = true
  · exact Or.inl ⟨hall, run_eq_nil hall⟩
  · push Not at hall
    obtain ⟨link, hasks, hnew⟩ := hall
    rw [ne_eq, Bool.not_eq_true] at hnew
    exact Or.inr ⟨link, hasks, hnew, run_eq_map hasks hnew⟩

/-- The loop stops at the first outbox that fails. -/
theorem postOutboxes_initial (core : Core) (faults : EntryFaults) (i : ℕ) (outboxes : List Outbox) :
    (postOutboxes core faults i outboxes).1.map .twitter <+: outboxes := by
  fun_induction postOutboxes core faults i outboxes with
  | case1 => exact List.nil_prefix
  | case2 => exact List.nil_prefix
  | case3 => exact List.nil_prefix
  | case4 i user outboxes _ _ _ users result heq ih =>
    rw [heq] at ih
    exact List.cons_prefix_cons.mpr ⟨rfl, ih⟩

theorem users_nodup {c : Call} (h : c.route.Nodup) : c.users.Nodup :=
  .of_map _ (h.sublist (postOutboxes_initial c.core c.faults 0 c.route).sublist)

/-! ### What each act does -/

variable (s : Posting)

theorem step_call_of_ne (c : Call) (h : s.sending ≠ []) : s.step (.call c) = s := by
  unfold step
  cases hs : s.sending with
  | nil => exact (h hs).elim
  | cons u sending => rfl

theorem step_call (c : Call) (h : s.sending = []) :
    s.step (.call c) = { s with sending := (c.run s.entries).1 } := by
  unfold step
  rw [h]

theorem step_spawn_nil (h : s.sending = []) : s.step .spawn = s := by
  unfold step
  rw [h]

theorem step_spawn {u : Update} {sending : List Update} (h : s.sending = u :: sending) :
    s.step .spawn = { s with sending, inFlight := s.inFlight ++ [u] } := by
  unfold step
  rw [h]

theorem step_complete_of_notMem {u : Update} (outcome : UpdateOutcome) (h : u ∉ s.inFlight) :
    s.step (.complete u outcome) = s := if_neg h

theorem step_ok {u : Update} (h : u ∈ s.inFlight) : s.step (.complete u .ok) =
    { s with
      entries := s.entries.replaceInto u.row
      inFlight := s.inFlight.erase u
      succeeded := s.succeeded ++ [u] } := if_pos h

theorem step_failed {u : Update} (h : u ∈ s.inFlight) :
    s.step (.complete u .failed) = { s with inFlight := s.inFlight.erase u } := if_pos h

theorem step_unsaved {u : Update} (h : u ∈ s.inFlight) : s.step (.complete u .unsaved) =
    { s with inFlight := s.inFlight.erase u, succeeded := s.succeeded ++ [u] } := if_pos h

/-! ### One success for a link and a user -/

/-- At most one request for a link and a user has succeeded. -/
def OncePosted : Prop := (s.succeeded.map Update.key).Nodup

/-- The act goes on with what has been decided already. -/
def Act.Settles : Act → Prop
  | .call _ => False
  | .spawn => True
  | .complete _ _ => True

/-- However the requests that have been decided on end. -/
def OnceSettled : Prop :=
  ∀ rest : List Act, (∀ a ∈ rest, a.Settles) → (Runs.final step s rest).OncePosted

/-- No two of the requests that have succeeded, or still may, are for the same. -/
def Distinct : Prop := ((s.sending ++ (s.inFlight ++ s.succeeded)).map Update.key).Nodup

/-- A call that does not find its entry in the table finds no request for the link and one of its users under
way or successful. -/
def Clear : Act → Prop
  | .call c => s.sending = [] → ∀ link, c.Asks link →
      s.entries.alreadyProcessed c.topic c.entry.id link = false →
        ∀ user ∈ c.users, ∀ u ∈ s.inFlight ++ s.succeeded, ¬ (u.link = link ∧ u.user = user)
  | .spawn => True
  | .complete _ _ => True

variable {s}

theorem Distinct.oncePosted (h : s.Distinct) : s.OncePosted := by
  unfold Distinct at h
  rw [List.map_append, List.map_append] at h
  exact h.of_append_right.of_append_right

theorem distinct_call {c : Call} (hroute : c.route.Nodup) (h : s.Distinct) :
    (s.step (.call c)).Distinct ↔ s.Clear (.call c) := by
  by_cases hsending : s.sending = []
  · rw [step_call s c hsending]
    unfold Distinct at h ⊢
    rw [hsending, List.nil_append] at h
    rcases run_cases c s.entries with ⟨hall, hnil⟩ | ⟨link, hasks, hnew, hmap⟩
    · simp only [hnil, List.nil_append, h, true_iff]
      intro _ link hasks hnew
      rw [hall link hasks] at hnew
      cases hnew
    · dsimp only
      rw [List.map_append, List.nodup_append, hmap, List.map_map]
      constructor
      · rintro ⟨-, -, hdisjoint⟩ _ link' hasks' _ user huser u hu heq
        obtain rfl := Option.some.inj (hasks.1.symm.trans hasks'.1)
        exact hdisjoint _ (List.mem_map_of_mem huser) _ (List.mem_map_of_mem hu)
          (Prod.ext heq.1.symm heq.2.symm)
      · intro hclear
        refine ⟨(users_nodup hroute).map fun user user' heq => (Prod.mk.inj heq).2, h, ?_⟩
        intro k hk k' hk' heq
        obtain ⟨user, huser, rfl⟩ := List.mem_map.mp hk
        obtain ⟨u, hu, rfl⟩ := List.mem_map.mp hk'
        obtain ⟨hlink, huser'⟩ := Prod.mk.inj heq
        exact hclear hsending link hasks hnew user huser u hu ⟨hlink.symm, huser'.symm⟩
  · rw [step_call_of_ne s c hsending]
    exact ⟨fun _ hnil => (hsending hnil).elim, fun _ => h⟩

/-- What has been decided on keeps apart, however it goes on. -/
theorem Distinct.settles (h : s.Distinct) {a : Act} (ha : a.Settles) : (s.step a).Distinct := by
  cases a with
  | call c => exact ha.elim
  | spawn =>
    cases hsending : s.sending with
    | nil => rwa [step_spawn_nil s hsending]
    | cons u sending =>
      rw [step_spawn s hsending]
      unfold Distinct at h ⊢
      rw [hsending] at h
      refine (List.Perm.map _ ?_).nodup_iff.mp h
      simp only [List.cons_append, List.append_assoc, List.nil_append]
      rw [← List.append_assoc, ← List.append_assoc]
      exact List.perm_middle.symm
  | complete u outcome =>
    by_cases hu : u ∈ s.inFlight
    · have herase : (u :: s.inFlight.erase u).Perm s.inFlight := (List.perm_cons_erase hu).symm
      have hmoved : (s.sending ++ (s.inFlight.erase u ++ (s.succeeded ++ [u]))).Perm
          (s.sending ++ (s.inFlight ++ s.succeeded)) := by
        refine List.Perm.append_left _ ?_
        rw [← List.append_assoc]
        exact List.perm_append_comm.trans (herase.append_right s.succeeded)
      cases outcome with
      | ok =>
        rw [step_ok s hu]
        exact (hmoved.map _).nodup_iff.mpr h
      | failed =>
        rw [step_failed s hu]
        refine List.Nodup.sublist (List.Sublist.map _ ?_) h
        exact (List.Sublist.refl _).append (List.erase_sublist.append_right s.succeeded)
      | unsaved =>
        rw [step_unsaved s hu]
        exact (hmoved.map _).nodup_iff.mpr h
    · rwa [step_complete_of_notMem s outcome hu]

theorem final_spawns (s : Posting) : Runs.final step s (s.sending.map fun _ => .spawn) =
    { s with sending := [], inFlight := s.inFlight ++ s.sending } := by
  obtain ⟨entries, sending, inFlight, succeeded⟩ := s
  induction sending generalizing inFlight with
  | nil => simp
  | cons u sending ih =>
    rw [List.map_cons, Runs.final_cons, step_spawn _ rfl]
    simpa using ih (inFlight ++ [u])

theorem final_completes (s : Posting) :
    Runs.final step s (s.inFlight.map fun u => .complete u .unsaved) =
      { s with inFlight := [], succeeded := s.succeeded ++ s.inFlight } := by
  obtain ⟨entries, sending, inFlight, succeeded⟩ := s
  induction inFlight generalizing succeeded with
  | nil => simp
  | cons u inFlight ih =>
    rw [List.map_cons, Runs.final_cons, step_unsaved _ List.mem_cons_self]
    simpa using ih (succeeded ++ [u])

/-- All the requests that have been decided on may succeed. -/
theorem onceSettled_iff : s.OnceSettled ↔ s.Distinct := by
  constructor
  · intro h
    have honce := h (s.sending.map (fun _ => .spawn) ++
      (s.inFlight ++ s.sending).map fun u => .complete u .unsaved) (by simp [or_imp, forall_and, Act.Settles])
    rw [Runs.final_append, final_spawns] at honce
    have hfinal := final_completes { s with sending := [], inFlight := s.inFlight ++ s.sending }
    dsimp only at hfinal
    rw [hfinal] at honce
    refine (List.Perm.map _ ?_).nodup_iff.mp honce
    dsimp only
    rw [← List.append_assoc s.sending]
    exact List.perm_append_comm.trans (List.perm_append_comm.append_right s.succeeded)
  · intro h rest
    induction rest generalizing s with
    | nil => exact fun _ => h.oncePosted
    | cons a rest ih =>
      intro hrest
      obtain ⟨ha, hrest⟩ := List.forall_mem_cons.mp hrest
      exact ih (h.settles ha) hrest

theorem mem_run_of_mem_moves {s : Posting} {run : List Act} {m : Posting × Act}
    (h : m ∈ Runs.moves step s run) : m.2 ∈ run := by
  obtain ⟨run', hrun', -⟩ := Runs.mem_moves_iff.mp h
  exact hrun'.subset (by simp)

/-- However the requests that are decided on in a run end, no two succeed for the same link and user, exactly
when every call is clear of the requests made before it. -/
theorem posted_once_iff (entries : Entries) (run : List Act)
    (hroute : ∀ c, .call c ∈ run → c.route.Nodup) :
    ((∀ m ∈ Runs.moves step (fresh entries) run, m.1.Clear m.2) →
        ∀ s ∈ Runs.states step (fresh entries) run, s.OncePosted) ∧
      ((∀ s ∈ Runs.states step (fresh entries) run, s.OnceSettled) ↔
        ∀ m ∈ Runs.moves step (fresh entries) run, m.1.Clear m.2) := by
  have hdistinct : (∀ s ∈ Runs.states step (fresh entries) run, s.Distinct) ↔
      ∀ m ∈ Runs.moves step (fresh entries) run, m.1.Clear m.2 := by
    have hfresh : (fresh entries).Distinct := List.nodup_nil
    refine Runs.always_iff_moves_amid (I := fun _ => True) (A := fun _ a => ∀ c, a = Act.call c → c.route.Nodup)
      (fun _ _ _ _ _ _ => trivial) ?_ trivial hfresh ?_
    · intro s a _ h hroute
      cases a with
      | call c => exact distinct_call (hroute c rfl) h
      | spawn => exact iff_of_true (h.settles trivial) trivial
      | complete u outcome => exact iff_of_true (h.settles trivial) trivial
    · intro m hm c hc
      exact hroute c (hc ▸ mem_run_of_mem_moves hm)
  refine ⟨fun h s hs => (hdistinct.mpr h s hs).oncePosted, ?_⟩
  rw [← hdistinct]
  exact forall₂_congr fun s _ => onceSettled_iff

/-! An entry of a feed that is posted for the users of `outbox`. -/

def sampleEntry : FeedEntry :=
  ⟨⟨some "News", none, none⟩, some "1", some "https://example.com/1", none⟩

def sampleCall (outbox : List Outbox) : Call where
  core :=
    { sampleCore (sampleManifest none [.feed "https://example.com/feed"]) with
      router := Router.new.append (.feed "https://example.com/feed") ⟨none, none, outbox⟩
      twitterTokens := fun _ => some ⟨"token", "secret"⟩ }
  faults := fun _ => false
  topic := "https://example.com/feed"
  entry := sampleEntry

def sampleUpdate (user : Int64) : Update :=
  ⟨"https://example.com/feed", sampleEntry, user, "News\nhttps://example.com/1", "https://example.com/1", rfl⟩

/-- The entry comes again after its request has succeeded. -/
def postedBefore : List Act :=
  [.call (sampleCall [.twitter 1]), .spawn, .complete (sampleUpdate 1) .ok, .call (sampleCall [.twitter 1])]

/-- The entry comes again before its request has succeeded. -/
def postedTwice : List Act :=
  [.call (sampleCall [.twitter 1]), .spawn, .call (sampleCall [.twitter 1]), .spawn,
    .complete (sampleUpdate 1) .ok, .complete (sampleUpdate 1) .ok]

theorem posted_once_postedBefore :
    (Runs.final step (fresh .empty) postedBefore).succeeded = [sampleUpdate 1] ∧
      ∀ s ∈ Runs.states step (fresh .empty) postedBefore, s.OncePosted := by
  have hroute : ∀ c, .call c ∈ postedBefore → c.route.Nodup := by
    intro c hc
    obtain rfl : c = sampleCall [.twitter 1] := by simpa [postedBefore] using hc
    decide
  refine ⟨by decide, (posted_once_iff .empty postedBefore hroute).1 ?_⟩
  rw [postedBefore, Runs.moves, Runs.moves, Runs.moves, Runs.moves, Runs.moves, List.forall_mem_cons,
    List.forall_mem_cons, List.forall_mem_cons, List.forall_mem_singleton]
  refine ⟨?_, trivial, trivial, ?_⟩
  · intro _ link _ _ user _ u hu
    cases hu
  · have hdone : (Runs.final step (fresh .empty) postedBefore.dropLast).entries.alreadyProcessed
        "https://example.com/feed" (some "1") "https://example.com/1" = true := by decide
    intro _ link hasks hnew
    have hlink : "https://example.com/1" = link := Option.some.inj hasks.1
    rw [← hlink] at hnew
    exact absurd (hnew.symm.trans hdone) Bool.false_ne_true

/-- The table does not have the entry until a request for it has succeeded. -/
theorem not_posted_once_postedTwice :
    (∀ c, .call c ∈ postedTwice → c.route.Nodup) ∧
      ¬ ∀ s ∈ Runs.states step (fresh .empty) postedTwice, s.OncePosted := by
  constructor
  · intro c hc
    obtain rfl : c = sampleCall [.twitter 1] := by simpa [postedTwice] using hc
    decide
  · intro h
    have hfinal : ¬ ((Runs.final step (fresh .empty) postedTwice).succeeded.map Update.key).Nodup := by decide
    exact hfinal (h _ (Runs.final_mem_states step _ postedTwice))

/-! ### Nothing is lost -/

def Act.call? : Act → Option Call
  | .call c => some c
  | .spawn => none
  | .complete _ _ => none

/-- The calls of a run. -/
def calls (run : List Act) : List Call := run.filterMap Act.call?

@[simp] theorem calls_append (run run' : List Act) : calls (run ++ run') = calls run ++ calls run' :=
  List.filterMap_append

/-- The call finds its entry in the table. -/
def Skips (s : Posting) (c : Call) : Prop :=
  s.sending = [] ∧ ∃ link, c.Asks link ∧ s.entries.alreadyProcessed c.topic c.entry.id link = true

/-- In a run from the empty table, for every outbox to which an entry that is skipped is routed, a request has
succeeded for the entry: one with its topic and id or one with its link. -/
def NothingLost (run : List Act) : Prop :=
  ∀ m ∈ Runs.moves step (fresh .empty) run, ∀ c, m.2 = .call c → m.1.Skips c →
    ∀ user, .twitter user ∈ c.route → ∃ u ∈ m.1.succeeded, u.user = user ∧
      ∀ link, c.entry.link = some link → u.row.isOf c.topic c.entry.id link = true

/-- The entry of `d` is taken for that of `c`, once the latter is in the table. -/
def Matches (c d : Call) : Prop :=
  ∃ link link' row, c.Asks link ∧ d.Asks link' ∧ NewEntry.new c.topic c.entry = some row ∧
    row.isOf d.topic d.entry.id link' = true

/-- The users for whom `c` spawns requests, and those to whom `d` is routed, are one. -/
def SameUser (c d : Call) : Prop :=
  ∀ user ∈ c.users, ∀ user', .twitter user' ∈ d.route → user = user'

/-- One of the calls has made the request. -/
def MadeBy (cs : List Call) (u : Update) : Prop :=
  ∃ c ∈ cs, c.Asks u.link ∧ u.topic = c.topic ∧ u.entry = c.entry ∧ u.user ∈ c.users

theorem MadeBy.append {cs : List Call} {u : Update} (h : MadeBy cs u) (cs' : List Call) :
    MadeBy (cs ++ cs') u :=
  h.imp fun _ hc => ⟨List.mem_append_left _ hc.1, hc.2⟩

theorem madeBy_of_mem_run {cs : List Call} {c : Call} {entries : Entries} {u : Update}
    (h : u ∈ (c.run entries).1) : MadeBy (cs ++ [c]) u := by
  rcases run_cases c entries with ⟨-, hnil⟩ | ⟨link, hasks, -, hmap⟩
  · rw [hnil] at h
    cases h
  · rw [hmap] at h
    obtain ⟨user, huser, rfl⟩ := List.mem_map.mp h
    exact ⟨c, by simp, hasks, rfl, rfl, huser⟩

/-- Where the requests and the rows come from, after the calls `cs`. -/
structure Origin (cs : List Call) (s : Posting) : Prop where
  sending : ∀ u ∈ s.sending, MadeBy cs u
  inFlight : ∀ u ∈ s.inFlight, MadeBy cs u
  succeeded : ∀ u ∈ s.succeeded, MadeBy cs u
  stored : ∀ r ∈ s.entries.rows, ∃ u ∈ s.succeeded, u.row = r

theorem Origin.append {cs : List Call} (h : Origin cs s) (cs' : List Call) : Origin (cs ++ cs') s where
  sending u hu := (h.sending u hu).append cs'
  inFlight u hu := (h.inFlight u hu).append cs'
  succeeded u hu := (h.succeeded u hu).append cs'
  stored := h.stored

theorem Origin.step {cs : List Call} (h : Origin cs s) (a : Act) : Origin (cs ++ calls [a]) (s.step a) := by
  have happend := h.append (calls [a])
  cases a with
  | call c =>
    by_cases hnil : s.sending = []
    · rw [step_call s c hnil]
      exact { happend with sending := fun u hu => madeBy_of_mem_run hu }
    · rwa [step_call_of_ne s c hnil]
  | spawn =>
    cases hsending : s.sending with
    | nil => rwa [step_spawn_nil s hsending]
    | cons u sending =>
      rw [step_spawn s hsending]
      have hall := happend.sending
      rw [hsending] at hall
      obtain ⟨hu, hrest⟩ := List.forall_mem_cons.mp hall
      refine { happend with sending := hrest, inFlight := fun v hv => ?_ }
      rcases List.mem_append.mp hv with hv | hv
      · exact happend.inFlight v hv
      · exact List.mem_singleton.mp hv ▸ hu
  | complete u outcome =>
    by_cases hu : u ∈ s.inFlight
    · have hinFlight : ∀ v ∈ s.inFlight.erase u, MadeBy (cs ++ calls [.complete u outcome]) v :=
        fun v hv => happend.inFlight v (List.mem_of_mem_erase hv)
      have hsucceeded : ∀ v ∈ s.succeeded ++ [u], MadeBy (cs ++ calls [.complete u outcome]) v := by
        intro v hv
        rcases List.mem_append.mp hv with hv | hv
        · exact happend.succeeded v hv
        · exact List.mem_singleton.mp hv ▸ happend.inFlight u hu
      have hstored : ∀ r ∈ s.entries.rows, ∃ v ∈ s.succeeded ++ [u], v.row = r :=
        fun r hr => (h.stored r hr).imp fun v hv => ⟨List.mem_append_left _ hv.1, hv.2⟩
      cases outcome with
      | ok =>
        rw [step_ok s hu]
        refine ⟨happend.sending, hinFlight, hsucceeded, fun r hr => ?_⟩
        rcases Entries.mem_replaceInto.mp hr with ⟨hr, -⟩ | rfl
        · exact hstored r hr
        · exact ⟨u, by simp, rfl⟩
      | failed =>
        rw [step_failed s hu]
        exact { happend with inFlight := hinFlight }
      | unsaved =>
        rw [step_unsaved s hu]
        exact ⟨happend.sending, hinFlight, hsucceeded, hstored⟩
    · rwa [step_complete_of_notMem s outcome hu]

theorem origin_final (run : List Act) : Origin (calls run) (Runs.final step (fresh .empty) run) := by
  induction run using List.reverseRecOn with
  | nil => exact ⟨by simp [fresh], by simp [fresh], by simp [fresh], by simp [fresh, Entries.empty]⟩
  | append_singleton run a ih =>
    rw [Runs.final_append, calls_append]
    exact ih.step a

/-- If no two calls of different users match, the row by which an entry is skipped is that of a request for
the only user to whom the entry is routed. -/
theorem nothingLost_of_pairwise {run : List Act}
    (h : (calls run).Pairwise fun c d => Matches c d → SameUser c d) : NothingLost run := by
  intro m hm d hd ⟨hnil, link, hasks, hprocessed⟩ user huser
  obtain ⟨run', hrun', hfinal⟩ := Runs.mem_moves_iff.mp hm
  have horigin := origin_final run'
  rw [hfinal] at horigin
  obtain ⟨r, hr, hof⟩ := Entries.alreadyProcessed_iff.mp hprocessed
  obtain ⟨u, hu, rfl⟩ := horigin.stored r hr
  obtain ⟨c, hc, hasks', htopic, hentry, huser'⟩ := horigin.succeeded u hu
  have hpair : Matches c d → SameUser c d := by
    have hsub := (List.IsPrefix.filterMap Act.call? hrun').sublist
    rw [hd] at hsub
    have hcd := h.sublist hsub
    rw [List.filterMap_append, List.pairwise_append] at hcd
    exact hcd.2.2 c hc d (by simp [Act.call?])
  have hrow : NewEntry.new c.topic c.entry = some u.row := by
    rw [← htopic, ← hentry]
    exact (Option.some_get _).symm
  refine ⟨u, hu, hpair ⟨u.link, link, u.row, hasks', hasks, hrow, hof⟩ _ huser' _ huser, ?_⟩
  intro link' hlink'
  obtain rfl := Option.some.inj (hasks.1.symm.trans hlink')
  exact hof

theorem calls_spawns (updates : List Update) : calls (updates.map fun _ => .spawn) = [] := by
  simp [calls, Act.call?]

/-- The acts of a call and of the requests that it decides on. -/
def callActs (c : Call) (entries : Entries) : List Act := .call c :: (c.run entries).1.map fun _ => .spawn

theorem calls_callActs (c : Call) (entries : Entries) : calls (callActs c entries) = [c] := by
  rw [callActs, ← List.singleton_append, calls_append, calls_spawns]
  rfl

theorem final_callActs (c : Call) (hnil : s.sending = []) : Runs.final step s (callActs c s.entries) =
    { s with inFlight := s.inFlight ++ (c.run s.entries).1 } := by
  have hspawns := final_spawns { s with sending := (c.run s.entries).1 }
  rw [callActs, Runs.final_cons, step_call s c hnil, hnil]
  exact hspawns

/-- The calls of `send_feed`. -/
def feedCalls (core : Core) (faults : ℕ → EntryFaults) (topic : String) : ℕ → List FeedEntry → List Call
  | _, [] => []
  | i, entry :: entries => ⟨core, faults i, topic, entry⟩ :: feedCalls core faults topic (i + 1) entries

/-- `send_feed` is a run of the calls of its entries, up to the first one that fails. -/
theorem exists_sendFeed (core : Core) (faults : ℕ → EntryFaults) (topic : String) (i : ℕ)
    (entries : List FeedEntry) (hnil : s.sending = []) :
    ∃ run, calls run <+: feedCalls core faults topic i entries ∧ Runs.final step s run =
      { s with inFlight := s.inFlight ++ (sendFeed core faults topic (fun _ => s.entries) i entries).1 } := by
  induction entries generalizing i s with
  | nil => exact ⟨[], List.nil_prefix, by simp [sendFeed]⟩
  | cons entry entries ih =>
    have hfinal := final_callActs ⟨core, faults i, topic, entry⟩ hnil
    unfold Call.run at hfinal
    unfold sendFeed
    cases hsend : sendEntry core (faults i) topic entry s.entries with
    | mk updates result =>
      rw [hsend] at hfinal
      cases result with
      | error e =>
        refine ⟨callActs ⟨core, faults i, topic, entry⟩ s.entries, ?_, hfinal⟩
        rw [calls_callActs]
        exact List.cons_prefix_cons.mpr ⟨rfl, List.nil_prefix⟩
      | ok _ =>
        obtain ⟨run, hcalls, hrun⟩ := ih (s := { s with inFlight := s.inFlight ++ updates }) (i + 1) hnil
        refine ⟨callActs ⟨core, faults i, topic, entry⟩ s.entries ++ run, ?_, ?_⟩
        · rw [calls_append, calls_callActs]
          exact List.cons_prefix_cons.mpr ⟨rfl, hcalls⟩
        · rw [Runs.final_append, hfinal, hrun]
          simp

theorem exists_quiet (cs : List Call) (hnil : s.sending = []) :
    ∃ run inFlight, calls run = cs ∧ Runs.final step s run = { s with inFlight } := by
  induction cs generalizing s with
  | nil => exact ⟨[], s.inFlight, rfl, rfl⟩
  | cons c cs ih =>
    obtain ⟨run, inFlight, hcalls, hfinal⟩ :=
      ih (s := { s with inFlight := s.inFlight ++ (c.run s.entries).1 }) hnil
    refine ⟨callActs c s.entries ++ run, inFlight, ?_, ?_⟩
    · rw [calls_append, hcalls, calls_callActs]
      rfl
    · rw [Runs.final_append, final_callActs c hnil, hfinal]

theorem exists_recorded (before : List Call) {c : Call} {link : String} {row : NewEntry} {user : Int64}
    (hasks : c.Asks link) (hrow : NewEntry.new c.topic c.entry = some row) (huser : user ∈ c.users) :
    ∃ run s, calls run = before ++ [c] ∧ Runs.final step (fresh .empty) run = s ∧
      s.sending = [] ∧ row ∈ s.entries.rows ∧ ∀ u ∈ s.succeeded, u.user = user := by
  obtain ⟨run, inFlight, hcalls, hfinal⟩ := exists_quiet (s := fresh .empty) before rfl
  have hmap : (c.run .empty).1 = _ := run_eq_map hasks rfl
  obtain ⟨u, hu, huser', hurow⟩ : ∃ u ∈ (c.run .empty).1, u.user = user ∧ u.row = row := by
    rw [hmap]
    exact ⟨_, List.mem_map_of_mem huser, rfl, Option.some.inj ((Option.some_get _).trans hrow)⟩
  have hmem : u ∈ inFlight ++ (c.run .empty).1 := List.mem_append_right _ hu
  refine ⟨run ++ callActs c .empty ++ [.complete u .ok], _, ?_, rfl, ?_⟩
  · rw [calls_append, calls_append, calls_callActs, hcalls]
    exact List.append_nil _
  · rw [Runs.final_append, Runs.final_append, hfinal]
    have hcall := final_callActs (s := { fresh .empty with inFlight }) c rfl
    dsimp only [fresh] at hcall ⊢
    rw [hcall, Runs.final_cons, step_ok _ hmem]
    refine ⟨rfl, Entries.mem_replaceInto.mpr (Or.inr hurow.symm), ?_⟩
    simpa using huser'

/-- If the later of two calls that match is routed to another user than the earlier one, a request of the
earlier one may succeed alone. -/
theorem sameUser_of_nothingLost {before between after : List Call} {c d : Call}
    (h : ∀ run, calls run = before ++ c :: (between ++ d :: after) → NothingLost run) (hmatches : Matches c d) :
    SameUser c d := by
  intro user huser user' huser'
  obtain ⟨link, link', row, hasks, hasks', hrow, hof⟩ := hmatches
  obtain ⟨run₁, s₁, hcalls₁, hfinal₁, hnil₁, hrow₁, huser₁⟩ := exists_recorded before hasks hrow huser
  obtain ⟨run₂, inFlight, hcalls₂, hfinal₂⟩ := exists_quiet between hnil₁
  have hskips : Skips { s₁ with inFlight } d :=
    ⟨hnil₁, link', hasks', Entries.alreadyProcessed_iff.mpr ⟨row, hrow₁, hof⟩⟩
  have hcalls : calls (run₁ ++ run₂ ++ .call d :: after.map .call) =
      before ++ c :: (between ++ d :: after) := by
    have hafter : calls (after.map .call) = after := by
      simp [calls, List.filterMap_map, Function.comp_def, Act.call?]
    rw [← List.singleton_append (l := after.map _), calls_append, calls_append, calls_append, hcalls₁, hcalls₂,
      hafter]
    simp [calls, Act.call?]
  have hmove : ({ s₁ with inFlight }, .call d) ∈
      Runs.moves step (fresh .empty) (run₁ ++ run₂ ++ .call d :: after.map .call) := by
    refine Runs.mem_moves_iff.mpr ⟨run₁ ++ run₂, ?_, ?_⟩
    · rw [← List.singleton_append (l := after.map _), ← List.append_assoc]
      exact List.prefix_append _ _
    · rw [Runs.final_append, hfinal₁, hfinal₂]
  obtain ⟨u, hu, heq, -⟩ := h _ hcalls _ hmove d rfl hskips user' huser'
  rw [← huser₁ u hu, heq]

/-- Whatever the requests of a list of calls end in, and in whatever order, nothing is lost exactly when any
call whose entry may be taken for that of an earlier one is about the same single user. -/
theorem nothing_lost_iff (cs : List Call) :
    (∀ run, calls run = cs → NothingLost run) ↔ cs.Pairwise fun c d => Matches c d → SameUser c d := by
  constructor
  · intro h
    rw [List.pairwise_iff_forall_sublist]
    intro c d hsub hmatches
    obtain ⟨front, back, rfl, hc, hd⟩ := List.cons_sublist_iff.mp hsub
    obtain ⟨before, between, rfl⟩ := List.append_of_mem hc
    obtain ⟨between', after, rfl⟩ := List.append_of_mem (List.singleton_sublist.mp hd)
    have hcalls : ∀ run, calls run = before ++ c :: ((between ++ between') ++ d :: after) →
        NothingLost run := by simpa using h
    exact sameUser_of_nothingLost hcalls hmatches
  · rintro h run rfl
    exact nothingLost_of_pairwise h

/-- The entry comes again after its request for user 1 has succeeded and the one for user 2 has failed. -/
def halfFailed : List Act :=
  [.call (sampleCall [.twitter 1, .twitter 2]), .spawn, .spawn, .complete (sampleUpdate 1) .ok,
    .complete (sampleUpdate 2) .failed, .call (sampleCall [.twitter 1, .twitter 2])]

theorem not_nothingLost_halfFailed : ¬ NothingLost halfFailed := by
  intro h
  have hmove : (Runs.final step (fresh .empty) halfFailed.dropLast,
      .call (sampleCall [.twitter 1, .twitter 2])) ∈ Runs.moves step (fresh .empty) halfFailed :=
    Runs.mem_moves_iff.mpr ⟨halfFailed.dropLast, by simp [halfFailed], rfl⟩
  have hskips : Skips (Runs.final step (fresh .empty) halfFailed.dropLast)
      (sampleCall [.twitter 1, .twitter 2]) :=
    ⟨by decide, "https://example.com/1", ⟨rfl, rfl, rfl⟩, by decide⟩
  obtain ⟨u, hu, huser, -⟩ := h _ hmove _ rfl hskips 2 (by decide)
  have hone : (Runs.final step (fresh .empty) halfFailed.dropLast).succeeded = [sampleUpdate 1] := by decide
  rw [hone, List.mem_singleton] at hu
  rw [hu] at huser
  cases huser

end Posting

end Pipitor.App
