import Pipitor.Websub.SwitchOver

/-!
# Checks and the statements they guard

Three statements of the subscriber are `unwrap`ped because an earlier one has found the rows they need: the
look-up of the hub and the last transaction of `verify_intent`, and the transaction of `renew`. Every other
statement cannot fail, whatever the tables hold. `Guarded` says so of a program; `noPanic_iff` says that a
run meets no database error exactly when the rows are still there each time one of the three is made.
-/

namespace Pipitor.Websub

open Resumption Relational

/-- A statement whose result is `unwrap`ped. -/
inductive Statement
  | selectHub (id : Int64)
  | activate (id expiresAt : Int64)
  | renew (draw : Draw) (old : Int64) (hub topic : String)

namespace Statement

def Result : Statement → Type
  | selectHub _ => String
  | activate _ _ => Unit
  | renew _ _ _ _ => Int64 × String

def run : (st : Statement) → Database → Except Abort (st.Result × Database)
  | selectHub id, db => match db.subscriptions.find? id with
    | some s => .ok (s.hub, db)
    | none => .error (.database .notFound)
  | activate id expiresAt, db => db.activate id expiresAt
  | renew draw old hub topic, db => renewTransaction draw old hub topic db

/-- The rows that the statement needs. -/
def Ready (db : Database) : Statement → Prop
  | selectHub id => db.subscriptions.hasKey id = true
  | activate id _ =>
    db.subscriptions.hasKey id = true ∧ db.activeSubscriptions.hasKey id = false
  | renew draw old _ _ =>
    draw.IsUsedUp db ∨ db.activeSubscriptions.hasKey old = true ∧ db.isRenewing old = false

end Statement

/-! ### When the statements fail -/

section Failures

variable {db : Database}

theorem activate_ok_iff {id : Int64} (expiresAt : Int64) :
    (∃ db', db.activate id expiresAt = .ok ((), db')) ↔
      db.subscriptions.hasKey id = true ∧ db.activeSubscriptions.hasKey id = false := by
  constructor
  · rintro ⟨db', hrun⟩
    have hactivated := activate_ok hrun
    have hmem : ⟨id, expiresAt⟩ ∈ db'.activeSubscriptions :=
      (Table.mem_of_insert hactivated.active).mpr (Or.inr rfl)
    refine ⟨?_, Table.not_hasKey_of_insert hactivated.active⟩
    rw [← hactivated.subscriptions]
    exact db'.active_references _ hmem
  · rintro ⟨hid, hna⟩
    exact exists_activate expiresAt hid hna

theorem activate_error {id expiresAt : Int64} {e : Abort} (h : db.activate id expiresAt = .error e) :
    ∃ d, e = .database d := by
  unfold Database.activate at h
  cases hins : (db.deletePending (· = id)).insertActive ⟨id, expiresAt⟩ with
  | error d =>
    rw [hins] at h
    cases h
    exact ⟨d, rfl⟩
  | ok db' =>
    rw [hins] at h
    cases h

theorem insertRenewing_ok_iff {r : RenewingSubscription}
    (hfree : db.renewingSubscriptions.hasKey r.new = false)
    (hpending : db.pendingSubscriptions.hasKey r.new = true) :
    (∃ db', db.insertRenewing r = .ok db') ↔
      db.activeSubscriptions.hasKey r.old = true ∧ db.isRenewing r.old = false := by
  constructor
  · rintro ⟨db', hins⟩
    obtain ⟨hrenewing, -, hactive, -⟩ := Database.insertRenewing_ok hins
    have hmem : r ∈ db'.renewingSubscriptions := (Table.mem_of_insert hrenewing).mpr (Or.inr rfl)
    refine ⟨hactive ▸ db'.old_references r hmem, Database.isRenewing_eq_false_iff.mpr fun r' hr' hold => ?_⟩
    have heq := db'.old_unique r' ((Table.mem_of_insert hrenewing).mpr (Or.inl hr')) r hmem hold
    rw [← heq, Table.hasKey_of_mem hr'] at hfree
    cases hfree
  · rintro ⟨hactive, hidle⟩
    exact Database.exists_insertRenewing db r hfree hidle hactive hpending

/-- The transaction of `renew` fails where the old subscription is not active or has been renewed. -/
theorem renewTransaction_database_iff {draw : Draw} {old : Int64} {hub topic : String} :
    (∃ d, renewTransaction draw old hub topic db = .error (.database d)) ↔
      ¬ (draw.IsUsedUp db ∨ db.activeSubscriptions.hasKey old = true ∧ db.isRenewing old = false) := by
  rw [← createSubscription_starved_iff hub topic]
  unfold renewTransaction
  rcases createSubscription_cases draw hub topic db with ⟨new, db₁, hrun, hcreated⟩ | hrun
  · have hfree : db₁.renewingSubscriptions.hasKey new = false := by
      rw [hcreated.renewing]
      exact not_new_of_fresh hcreated.fresh
    have hidle : db₁.isRenewing old = db.isRenewing old := by
      simp only [Database.isRenewing, hcreated.renewing]
    have hiff := insertRenewing_ok_iff (r := ⟨old, new⟩) hfree
      (by rw [Table.hasKey_of_insert hcreated.pending]; simp)
    rw [hcreated.active, hidle] at hiff
    rw [hrun, or_iff_right (by simp), ← hiff]
    cases hins : db₁.insertRenewing ⟨old, new⟩ with
    | error d => simp [hins]
    | ok db' => simp [hins]
  · simp [hrun]

end Failures

theorem Statement.database_iff (st : Statement) (db : Database) :
    (∃ d, st.run db = .error (.database d)) ↔ ¬ st.Ready db := by
  cases st with
  | selectHub id =>
    unfold run Ready
    dsimp only
    cases hfind : db.subscriptions.find? id with
    | none => simp [Table.find?_eq_none_iff.mp hfind]
    | some s =>
      have hid : db.subscriptions.hasKey id = true :=
        Table.hasKey_iff.mpr ⟨s, Table.find?_eq_some_iff.mp hfind⟩
      simp [hid]
  | activate id expiresAt =>
    unfold Ready
    dsimp only
    rw [← activate_ok_iff expiresAt]
    constructor
    · rintro ⟨d, hrun⟩ ⟨db', hok⟩
      cases hrun.symm.trans hok
    · intro h
      cases hrun : db.activate id expiresAt with
      | ok r => exact absurd ⟨r.2, hrun⟩ h
      | error e =>
        obtain ⟨d, rfl⟩ := activate_error hrun
        exact ⟨d, hrun⟩
  | renew draw old hub topic => exact renewTransaction_database_iff

/-! ### Programs -/

/-- Apart from the three statements, nothing the program does can meet a database error. -/
inductive Guarded {α : Type} : Prog World Abort α → Prop
  | done (a : α) : Guarded (.done a)
  | abort {e : Abort} (h : ∀ d, e ≠ .database d) : Guarded (.abort e)
  | step {update : World → World} {next : World → Prog World Abort α} (h : ∀ w, Guarded (next w)) :
      Guarded (.step update next)
  | statement {p : Prog World Abort α} (st : Statement) (k : st.Result → Prog World Abort α)
      (hp : p = transaction st.run >>= k) (h : ∀ a, Guarded (k a)) : Guarded p

/-- The program's next action is the statement. -/
def Awaits {α : Type} (p : Prog World Abort α) (st : Statement) : Prop :=
  ∃ k, p = transaction st.run >>= k

/-- The program has met a database error. -/
def Panicked {α : Type} (p : Prog World Abort α) : Prop := ∃ d, p = .abort (.database d)

theorem act_transaction {α β : Type} (f : Database → Except Abort (α × Database))
    (k : α → Prog World Abort β) (w : World) :
    ((transaction f >>= k).act w).1 = match f w.db with
      | .ok (a, _) => k a
      | .error e => .abort e := by
  unfold transaction Prog.attempt
  rw [Prog.step_bind, Prog.act]
  dsimp only
  cases f w.db with
  | ok r => rfl
  | error e => rfl

/-- Where the rows of the statement it is about to make are missing, the program panics. -/
theorem Awaits.panicked {α : Type} {p : Prog World Abort α} {st : Statement} (h : Awaits p st) {w : World}
    (hrows : ¬ st.Ready w.db) : Panicked (p.act w).1 := by
  obtain ⟨k, rfl⟩ := h
  obtain ⟨d, hrun⟩ := (st.database_iff w.db).mpr hrows
  rw [act_transaction, hrun]
  exact ⟨d, rfl⟩

namespace Guarded

variable {α β : Type} {p : Prog World Abort α} {f : α → Prog World Abort β}

theorem not_panicked (h : Guarded p) : ¬ Panicked p := by
  rintro ⟨d, rfl⟩
  cases h with
  | abort hne => exact hne d rfl
  | statement st k hp h => cases hp

theorem bind (hp : Guarded p) (hf : ∀ a, Guarded (f a)) : Guarded (p >>= f) := by
  induction hp with
  | done a => exact hf a
  | abort hne => exact .abort hne
  | step h ih => exact .step ih
  | statement st k hp h ih =>
    subst hp
    exact .statement st (fun a => k a >>= f) (Prog.bind_assoc _ _ _) ih

theorem query (f : Database → α) : Guarded (query f) := .step fun _ => .done _

theorem execute (f : Database → Database) : Guarded (execute f) := .step fun _ => .done ()

theorem spawn (task : Task) : Guarded (spawn task) := .step fun _ => .done ()

theorem onTimer (f : Timer → Timer) : Guarded (onTimer f) := .step fun _ => .done ()

theorem tryTimer {f : Timer → Except Abort Timer} (h : ∀ t d, f t ≠ .error (.database d)) :
    Guarded (tryTimer f) := by
  refine .step fun w => ?_
  dsimp only
  cases hf : f w.timer with
  | ok timer => exact .done ()
  | error e => exact .abort fun d hd => h w.timer d (by rw [hf, hd])

theorem ofExcept {x : Except Abort α} (h : ∀ d, x ≠ .error (.database d)) :
    Guarded (Prog.ofExcept x) := by
  cases x with
  | ok a => exact .done a
  | error e => exact .abort fun d hd => h d (by rw [hd])

theorem transaction {f : Database → Except Abort (α × Database)}
    (h : ∀ db d, f db ≠ .error (.database d)) : Guarded (transaction f) := by
  refine .step fun w => ?_
  dsimp only
  cases hf : f w.db with
  | ok r => exact .done r.1
  | error e => exact .abort fun d hd => h w.db d (by rw [hf, hd])

theorem ofStatement (st : Statement) : Guarded (Websub.transaction st.run) :=
  .statement st .done (Prog.bind_done _).symm .done

theorem forM {γ : Type} {body : γ → Prog World Abort Unit} (h : ∀ x, Guarded (body x)) (xs : List γ) :
    Guarded (xs.forM body) := by
  induction xs with
  | nil => exact .done ()
  | cons x xs ih => exact (h x).bind fun _ => ih

/-- Where the rows of the statement it is about to make are there, the program goes on. -/
theorem act (h : Guarded p) (w : World) (hready : ∀ st, Awaits p st → st.Ready w.db) :
    Guarded (p.act w).1 := by
  cases h with
  | done a => exact .done a
  | abort hne => exact .abort hne
  | step h => exact h w
  | statement st k hp h =>
    have hrows := hready st ⟨k, hp⟩
    rw [hp, act_transaction]
    cases hrun : st.run w.db with
    | ok r => exact h r.1
    | error e =>
      refine .abort fun d hd => (st.database_iff w.db).mp ⟨d, ?_⟩ hrows
      rw [hrun, hd]

end Guarded

/-! ### The subscriber's programs -/

section Programs

variable (svc : Service)

theorem createSubscription_ne_database (draw : Draw) (hub topic : String) (db : Database) (d : DbError) :
    createSubscription draw hub topic db ≠ .error (.database d) := by
  rcases createSubscription_cases draw hub topic db with ⟨id, db', hrun, -⟩ | hrun <;> simp [hrun]

theorem refreshTime_error {svc : Service} {expiresAt : UInt64} {e : Abort}
    (h : svc.refreshTime expiresAt = .error e) : e = .arithmetic := by
  unfold Service.refreshTime Service.subU64 at h
  split at h
  · cases h; rfl
  · cases h

theorem tickOf?_error {svc : Service} {expiresAt : Option Int64} {e : Abort}
    (h : svc.tickOf? expiresAt = .error e) : e = .arithmetic := by
  cases expiresAt with
  | none => cases h
  | some expiresAt =>
    unfold Service.tickOf? at h
    dsimp only at h
    cases htick : svc.tickOf expiresAt with
    | ok tick =>
      rw [htick] at h
      cases h
    | error e' =>
      rw [htick] at h
      cases h
      unfold Service.tickOf at htick
      split at htick
      · exact refreshTime_error htick
      · cases htick

theorem guarded_request (lib : Libraries) (callback : Uri) (id : Int64) (hub : String)
    (form : Uri → Form) :
    Guarded (do
      let callback ← Prog.ofExcept (makeCallback lib callback id)
      Prog.ofExcept (sendRequest lib hub (form callback))) := by
  refine (Guarded.ofExcept fun d h => ?_).bind fun callback => Guarded.ofExcept fun d h => ?_
  · cases makeCallback_error h
  · cases sendRequest_error h

theorem guarded_subscribe (draw : Draw) (hub topic : String) :
    Guarded (svc.subscribe draw hub topic) :=
  (Guarded.transaction (createSubscription_ne_database draw hub topic)).bind fun r =>
    guarded_request svc.lib svc.callback r.1 hub (.subscribe · topic r.2)

theorem guarded_renew (draw : Draw) (s : Subscription) :
    Guarded (Hub.renew svc.lib svc.callback draw s.id s.hub s.topic) :=
  (Guarded.ofStatement (.renew draw s.id s.hub s.topic)).bind fun r =>
    guarded_request svc.lib svc.callback r.1 s.hub (.subscribe · s.topic r.2)

theorem guarded_unsubscribe (id : Int64) (hub topic : String) :
    Guarded (Hub.unsubscribe svc.lib svc.callback id hub topic) :=
  (Guarded.execute _).bind fun _ => guarded_request svc.lib svc.callback id hub (.unsubscribe · topic)

theorem guarded_unsubscribeAll (order : RowOrder Subscription) (topic : String) :
    Guarded (Hub.unsubscribeAll svc.lib svc.callback order topic spawn) := by
  refine (Guarded.query _).bind fun subscriptions => (Guarded.execute _).bind fun _ => ?_
  refine Guarded.forM (fun s => ?_) subscriptions
  have h := (guarded_request svc.lib svc.callback s.id s.hub (.unsubscribe · topic)).bind
    fun task => Guarded.spawn task
  rwa [Prog.bind_assoc] at h

theorem guarded_renewSubscriptions (now : UInt64) (order : RowOrder Subscription) (draws : ℕ → Draw) :
    Guarded (svc.renewSubscriptions now order draws) := by
  refine (Guarded.ofExcept fun d h => ?_).bind fun threshold => (Guarded.query _).bind fun expiring => ?_
  · cases threshold_error h
  · exact Guarded.forM (fun s => (guarded_renew svc _ s.1).bind Guarded.spawn) expiring.zipIdx

theorem guarded_activate (id expiresAt : Int64) (challenge : String) :
    Guarded (Service.activate id expiresAt challenge) :=
  (Guarded.ofStatement (.activate id expiresAt)).bind fun _ => .done _

theorem guarded_switchOver (id expiresAt : Int64) (topic challenge : String) :
    Guarded (svc.switchOver id expiresAt topic challenge) := by
  refine (Guarded.query _).bind fun renewing => ?_
  cases renewing with
  | none => exact guarded_activate id expiresAt challenge
  | some r =>
    refine (Guarded.ofStatement (.selectHub id)).bind fun hub => ?_
    refine (guarded_unsubscribe svc r.old hub topic).bind fun task => ?_
    exact (Guarded.spawn task).bind fun _ => guarded_activate id expiresAt challenge

theorem guarded_verifyIntent (id : Int64) (queryString : String) (now : UInt64) :
    Guarded (svc.verifyIntent id queryString now) := by
  unfold Service.verifyIntent
  split
  · rename_i topic challenge leaseSeconds _
    refine (Guarded.query _).bind fun unverified => ?_
    split
    · refine (Guarded.ofExcept fun d h => ?_).bind fun tick => (Guarded.onTimer _).bind fun _ => ?_
      · cases refreshTime_error h
      · exact guarded_switchOver svc id _ topic challenge
    · exact .done _
  · refine (Guarded.query _).bind fun subscribed => ?_
    split
    · exact .done _
    · exact .done _
  · exact .done _

theorem guarded_poll (now : UInt64) (order : RowOrder Subscription) (draws : ℕ → Draw) :
    Guarded (Scheduler.poll svc.boot (svc.getNextTick now order draws) now) := by
  refine (Guarded.onTimer _).bind fun _ => (Guarded.tryTimer fun t d h => ?_).bind fun _ => ?_
  · cases Timer.arm_eq_error h
  refine (Guarded.step fun w => .done w.timer.delay).bind fun deadline => ?_
  cases deadline with
  | none => exact .done ()
  | some deadline =>
    dsimp only
    split
    · refine Guarded.bind ?_ fun nextTick => ?_
      · refine (guarded_renewSubscriptions svc now order draws).bind fun _ => ?_
        refine (Guarded.query _).bind fun expiry => Guarded.ofExcept fun d h => ?_
        cases tickOf?_error h
      · cases nextTick with
        | none => exact (Guarded.onTimer _).bind fun _ => Guarded.onTimer _
        | some tick =>
          refine (Guarded.onTimer _).bind fun _ => Guarded.tryTimer fun t d h => ?_
          cases Timer.reset_eq_error h
    · exact .done ()

theorem guarded_prog (op : Op) : Guarded (op.prog svc) := by
  cases op with
  | subscribe draw hub topic => exact (guarded_subscribe svc draw hub topic).bind Guarded.spawn
  | renewSubscriptions now order draws => exact guarded_renewSubscriptions svc now order draws
  | verifyIntent id queryString now =>
    exact (guarded_verifyIntent svc id queryString now).bind fun _ => .done ()
  | unsubscribe id hub topic => exact (guarded_unsubscribe svc id hub topic).bind Guarded.spawn
  | unsubscribeAll order topic => exact guarded_unsubscribeAll svc order topic
  | removeDanglingSubscriptions => exact Guarded.execute _

end Programs

/-! ### Threads -/

namespace Thread

/-- The thread's next action is the statement. -/
def Awaits (st : Statement) : Thread → Prop
  | verifyIntent p => Websub.Awaits p st
  | poll p => Websub.Awaits p st
  | operation p => Websub.Awaits p st

/-- An `unwrap` of the thread has met a database error. -/
def Panicked : Thread → Prop
  | verifyIntent p => Websub.Panicked p
  | poll p => Websub.Panicked p
  | operation p => Websub.Panicked p

def Guarded : Thread → Prop
  | verifyIntent p => Websub.Guarded p
  | poll p => Websub.Guarded p
  | operation p => Websub.Guarded p

theorem Guarded.not_panicked {t : Thread} (h : t.Guarded) : ¬ t.Panicked := by
  cases t <;> exact Websub.Guarded.not_panicked h

theorem Guarded.act {t : Thread} (h : t.Guarded) (w : World)
    (hready : ∀ st, t.Awaits st → st.Ready w.db) : (t.act w).1.Guarded := by
  cases t <;> exact Websub.Guarded.act h w hready

theorem Awaits.panicked {t : Thread} {st : Statement} (h : t.Awaits st) {w : World}
    (hrows : ¬ st.Ready w.db) : (t.act w).1.Panicked := by
  cases t <;> exact Websub.Awaits.panicked h hrows

theorem guarded_ofOp (svc : Service) (op : Op) : (ofOp svc op).Guarded := by
  cases op with
  | verifyIntent id queryString now => exact guarded_verifyIntent svc id queryString now
  | subscribe draw hub topic => exact guarded_prog svc (.subscribe draw hub topic)
  | renewSubscriptions now order draws => exact guarded_prog svc (.renewSubscriptions now order draws)
  | unsubscribe id hub topic => exact guarded_prog svc (.unsubscribe id hub topic)
  | unsubscribeAll order topic => exact guarded_prog svc (.unsubscribeAll order topic)
  | removeDanglingSubscriptions => exact guarded_prog svc .removeDanglingSubscriptions

end Thread

namespace Concurrent

/-- No request handler and no task has panicked on a database result. -/
def NoPanic (s : Concurrent) : Prop := ∀ t ∈ s.threads, ¬ t.Panicked

/-- Where the event is an action that makes one of the three statements, its rows are there. -/
def Ready (s : Concurrent) : Event → Prop
  | .act i => ∀ t st, s.threads[i]? = some t → t.Awaits st → st.Ready s.world.db
  | _ => True

variable {svc : Service} {s : Concurrent}

theorem guarded_step (hs : ∀ t ∈ s.threads, t.Guarded) (event : Event) (hready : s.Ready event) :
    ∀ t ∈ (s.step svc event).threads, t.Guarded := by
  have hspawn : ∀ t' : Thread, t'.Guarded → ∀ t ∈ s.threads ++ [t'], t.Guarded := by
    intro t' ht' t ht
    rcases List.mem_append.mp ht with hold | hnew
    · exact hs t hold
    · rwa [List.mem_singleton.mp hnew]
  cases event with
  | start op => exact hspawn _ (Thread.guarded_ofOp svc op)
  | unsubscribeCommand ids => exact hspawn _ (Guarded.execute _)
  | poll now order draws =>
    unfold step
    dsimp only
    split
    · exact hs
    · exact hspawn _ (guarded_poll svc now order draws)
  | act i =>
    unfold step
    dsimp only
    split
    · rename_i t hi
      intro t' ht'
      rcases List.mem_or_eq_of_mem_set ht' with hold | rfl
      · exact hs t' hold
      · exact (hs t (List.mem_of_getElem? hi)).act s.world fun st => hready t st hi
    · exact hs

/-- A step panics exactly where it makes one of the three statements and its rows are missing. -/
theorem noPanic_step (hs : ∀ t ∈ s.threads, t.Guarded) (event : Event) :
    (s.step svc event).NoPanic ↔ s.Ready event := by
  constructor
  · intro h
    cases event with
    | act i =>
      intro t st hi hawaits
      by_contra hrows
      have hstep : s.step svc (.act i) = ⟨(t.act s.world).2, s.threads.set i (t.act s.world).1⟩ := by
        unfold step
        dsimp only
        rw [hi]
      refine h (t.act s.world).1 ?_ (hawaits.panicked hrows)
      rw [hstep]
      exact List.mem_set (List.getElem?_eq_some_iff.mp hi).1 _
    | start op => trivial
    | unsubscribeCommand ids => trivial
    | poll now order draws => trivial
  · intro hready t ht
    exact (guarded_step hs event hready t ht).not_panicked

/-- **The guards do not hold by themselves.** Throughout a run of concurrent operations, each making one
statement or transaction at a time, no `unwrap` of a database result panics exactly when the rows are there
each time a guarded statement is made: the subscription whose hub is looked up exists; the one that is
activated exists and is not active; the one that is renewed is active and not being renewed. -/
theorem noPanic_iff (svc : Service) (db : Database) (timer : Timer) (run : List Event) :
    (∀ s ∈ Runs.states (step svc) (start db timer) run, s.NoPanic) ↔
      ∀ m ∈ Runs.moves (step svc) (start db timer) run, m.1.Ready m.2 :=
  Runs.always_iff_moves (I := fun s : Concurrent => ∀ t ∈ s.threads, t.Guarded)
    (fun _ event hs _ hready => guarded_step hs event hready) (fun _ event hs _ => noPanic_step hs event)
    (fun _ ht => absurd ht List.not_mem_nil) (fun _ ht => absurd ht List.not_mem_nil) run

/-- The hub sends its request for verification a second time before the first has been answered. -/
def verifiedTwice : List Event :=
  [.start (.verifyIntent 2 "" 6400), .start (.verifyIntent 2 "" 6400), .act 0, .act 1] ++
    List.replicate 3 (.act 0) ++ List.replicate 3 (.act 1)

/-- A subscription is removed after the scheduler has selected it for renewal. -/
def removedMeanwhile : List Event :=
  .poll 6400 .asStored (fun _ => ⟨"", [6]⟩) :: List.replicate 4 (.act 0) ++
    [.start (.unsubscribe 1 "hub" "topic"), .act 1, .act 0]

/-- In the first run the second answer panics, in the second the scheduler does. -/
theorem not_noPanic_verifiedTwice :
    (¬ ∀ s ∈ Runs.states (step sampleSubscriber) (start unverified (.new (some 6400))) verifiedTwice,
      s.NoPanic) ∧
    ¬ ∀ s ∈ Runs.states (step sampleSubscriber) (start unverified (.new (some 6400))) removedMeanwhile,
      s.NoPanic := by
  constructor
  · intro h
    exact h _ (Runs.final_mem_states _ _ _) (.verifyIntent (.abort (.database .uniqueViolation)))
      (List.mem_of_getElem? (i := 1) rfl) ⟨_, rfl⟩
  · intro h
    exact h _ (Runs.final_mem_states _ _ _) (.poll (.abort (.database .foreignKeyViolation)))
      (List.mem_of_getElem? (i := 0) rfl) ⟨_, rfl⟩

end Concurrent

end Pipitor.Websub
