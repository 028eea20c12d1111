import Pipitor.Websub.Operations

/-!
# Interleavings

The operations on the tables and the polls of the scheduler take turns, one statement or access of the
timer at a time. What the single actions of each may do to the active subscriptions and to the next tick
is stated here once, for all interleavings.
-/

namespace Pipitor.Websub

open Resumption Relational

/-! ### The steps -/

/-- What is left of a poll of the scheduler at the time `now` once its callback has begun the renewals. -/
def Service.storeNextTick (svc : Service) (now : UInt64) : Prog World Abort Unit := do
  let expiry ← query (·.nextExpiry)
  let nextTick ← .ofExcept (svc.tickOf? expiry)
  Scheduler.rearm svc.boot now nextTick

/-- The program is such a rest. -/
def Service.Stores (svc : Service) (p : Prog World Abort Unit) : Prop := ∃ now, p = svc.storeNextTick now

/-- What is under way: an answer to a verification, a poll of the scheduler, or another operation. -/
inductive Thread
  | verifyIntent (p : Prog World Abort Response)
  | poll (p : Prog World Abort Unit)
  | operation (p : Prog World Abort Unit)

namespace Thread

def ofOp (svc : Service) : Op → Thread
  | .verifyIntent id queryString now => .verifyIntent (svc.verifyIntent id queryString now)
  | op => .operation (op.prog svc)

/-- The thread's next action. -/
def act : Thread → World → Thread × World
  | verifyIntent p, w => (verifyIntent (p.act w).1, (p.act w).2)
  | poll p, w => (poll (p.act w).1, (p.act w).2)
  | operation p, w => (operation (p.act w).1, (p.act w).2)

/-- An answer to a verification or a poll of the scheduler that is half-way. -/
def IsHalfWay : Thread → Prop
  | verifyIntent p => p.UnderWay
  | poll p => p.UnderWay
  | operation _ => False

instance : DecidablePred IsHalfWay
  | verifyIntent p => inferInstanceAs (Decidable p.UnderWay)
  | poll p => inferInstanceAs (Decidable p.UnderWay)
  | operation _ => inferInstanceAs (Decidable False)

def isPoll : Thread → Bool
  | poll _ => true
  | _ => false

/-- The thread has hastened the scheduler for a subscription that is to expire at `expiresAt`, and has
not come to its end. -/
def HasHastened (svc : Service) (expiresAt : Int64) : Thread → Prop
  | verifyIntent p => p.UnderWay ∧ ∃ id topic challenge,
      Prog.Residual (svc.switchOver id expiresAt topic challenge) p
  | _ => False

end Thread

/-- The transaction of `pipitor websub unsubscribe`: the subscriptions with the given ids, or all. -/
def unsubscribeCommand (ids : Option (List Int64)) : Prog World Abort Unit :=
  execute (·.deleteSubscriptions fun s => ids.all (·.contains s.id))

structure Concurrent where
  world : World
  threads : List Thread

inductive Event
  | start (op : Op)
  | unsubscribeCommand (ids : Option (List Int64))
  | poll (now : UInt64) (order : RowOrder Subscription) (draws : ℕ → Draw)
  | act (i : ℕ)

namespace Concurrent

/-- The start of the subscriber. -/
def start (db : Database) (timer : Timer) : Concurrent := ⟨⟨db, timer, []⟩, []⟩

def step (svc : Service) (s : Concurrent) : Event → Concurrent
  | .start op => { s with threads := s.threads ++ [.ofOp svc op] }
  | .unsubscribeCommand ids =>
    { s with threads := s.threads ++ [.operation (Websub.unsubscribeCommand ids)] }
  | .poll now order draws =>
    -- The scheduler is one task: it is not polled again before the last poll has ended.
    if ∃ t ∈ s.threads, t.isPoll = true ∧ t.IsHalfWay then s
    else { s with
      threads := s.threads ++ [.poll (Scheduler.poll svc.boot (svc.getNextTick now order draws) now)] }
  | .act i =>
    match s.threads[i]? with
    | some t => ⟨(t.act s.world).2, s.threads.set i (t.act s.world).1⟩
    | none => s

/-- Neither a verification nor a poll is half-way. -/
def Quiescent (s : Concurrent) : Prop := ∀ t ∈ s.threads, ¬ t.IsHalfWay

end Concurrent

/-! ### What the threads do to the active subscriptions and the next tick -/

/-- No active subscription is added, and the next tick stays. -/
structure Quiet (w w' : World) : Prop where
  nextTick : w'.timer.nextTick = w.timer.nextTick
  active : ∀ a ∈ w'.db.activeSubscriptions, a ∈ w.db.activeSubscriptions

/-- The timer is left alone, and the active subscriptions that are added expire at `expiresAt`. -/
structure Inserts (expiresAt : Int64) (w w' : World) : Prop where
  timer : w'.timer = w.timer
  active : ∀ a ∈ w'.db.activeSubscriptions,
    a ∈ w.db.activeSubscriptions ∨ a.expiresAt = expiresAt

theorem Quiet.refl (w : World) : Quiet w w := ⟨rfl, fun _ => id⟩

theorem Inserts.refl (expiresAt : Int64) (w : World) : Inserts expiresAt w w := ⟨rfl, fun _ => Or.inl⟩

theorem quiet_delete (p : Subscription → Bool) (w : World) :
    Quiet w { w with db := w.db.deleteSubscriptions p } :=
  ⟨rfl, fun _ ha => (Database.mem_active_delete.mp ha).1⟩

theorem always_transaction {α : Type} {guar : World → World → Prop}
    {f : Database → Except Abort (α × Database)} (hrefl : ∀ w, guar w w)
    (h : ∀ (w : World) a db, f w.db = .ok (a, db) → guar w { w with db }) :
    Prog.Always guar (transaction f) := by
  refine Prog.always_attempt ?_ hrefl
  intro w a w' hrun
  split at hrun
  · rename_i a' db hf
    cases hrun
    exact h w _ _ hf
  · cases hrun

/-- Along `guar` go the statements of the operations that only remove subscriptions: to spawn a future, and to
delete some. -/
structure Removes (guar : World → World → Prop) : Prop where
  refl : ∀ w, guar w w
  spawned : ∀ (w : World) spawned, guar w { w with spawned }
  deleted : ∀ (w : World) p, guar w { w with db := w.db.deleteSubscriptions p }

namespace Removes

variable {guar : World → World → Prop} (h : Removes guar)

include h

theorem always_query {α : Type} (f : Database → α) : Prog.Always guar (query f) :=
  Prog.always_read h.refl

theorem always_spawn (task : Task) : Prog.Always guar (spawn task) :=
  Prog.always_modify fun w => h.spawned w _

theorem always_delete (p : Subscription → Bool) :
    Prog.Always guar (execute (·.deleteSubscriptions p)) :=
  Prog.always_modify fun w => h.deleted w p

theorem always_unsubscribe (svc : Service) (id : Int64) (hub topic : String) :
    Prog.Always guar (Hub.unsubscribe svc.lib svc.callback id hub topic) :=
  (h.always_delete _).bind fun _ => Prog.always_ofExcept.bind fun _ => Prog.always_ofExcept

theorem always_unsubscribeAll (svc : Service) (order : RowOrder Subscription) (topic : String) :
    Prog.Always guar (Hub.unsubscribeAll svc.lib svc.callback order topic spawn) := by
  refine (h.always_query _).bind fun subscriptions => (h.always_delete _).bind fun _ => ?_
  refine Prog.always_forM (fun s => ?_) subscriptions
  exact Prog.always_ofExcept.bind fun _ => Prog.always_ofExcept.bind fun task => h.always_spawn task

end Removes

/-- Along `guar` go the statements of which the operations consist, apart from those of a renewal and of a
verification: to spawn a future, to create a subscription and to delete some. -/
structure Permits (guar : World → World → Prop) : Prop where
  refl : ∀ w, guar w w
  spawned : ∀ (w : World) spawned, guar w { w with spawned }
  created : ∀ (w : World) draw hub topic a db,
    createSubscription draw hub topic w.db = .ok (a, db) → guar w { w with db }
  deleted : ∀ (w : World) p, guar w { w with db := w.db.deleteSubscriptions p }

theorem Permits.removes {guar : World → World → Prop} (h : Permits guar) : Removes guar :=
  ⟨h.refl, h.spawned, h.deleted⟩

theorem Permits.always_subscribe {guar : World → World → Prop} (h : Permits guar) (svc : Service) (draw : Draw)
    (hub topic : String) : Prog.Always guar (svc.subscribe draw hub topic) := by
  refine (always_transaction h.refl fun w a db hcreate => ?_).bind fun _ => ?_
  · exact h.created w draw hub topic a db hcreate
  · exact Prog.always_ofExcept.bind fun _ => Prog.always_ofExcept

theorem Quiet.permits : Permits Quiet where
  refl := .refl
  spawned _ _ := ⟨rfl, fun _ => id⟩
  created _ _ _ _ _ _ h := ⟨rfl, fun _ ha => (createSubscription_ok h).active ▸ ha⟩
  deleted w p := quiet_delete p w

theorem always_onTimer {f : Timer → Timer} (hf : ∀ t, (f t).nextTick = t.nextTick) :
    Prog.Always Quiet (onTimer f) :=
  Prog.always_modify fun w => ⟨hf w.timer, fun _ => id⟩

theorem always_tryTimer {f : Timer → Except Abort Timer}
    (hf : ∀ t t', f t = .ok t' → t'.nextTick = t.nextTick) : Prog.Always Quiet (tryTimer f) := by
  refine Prog.always_attempt ?_ Quiet.refl
  intro w u w' h
  split at h
  · rename_i timer htimer
    cases h
    exact ⟨hf w.timer timer htimer, fun _ => id⟩
  · cases h

section Programs

variable (svc : Service)

theorem always_renewSubscriptions (now : UInt64) (order : RowOrder Subscription) (draws : ℕ → Draw) :
    Prog.Always Quiet (svc.renewSubscriptions now order draws) := by
  refine Prog.always_ofExcept.bind fun threshold => (Quiet.permits.removes.always_query _).bind fun expiring => ?_
  refine Prog.always_forM (fun s => ?_) expiring.zipIdx
  refine Prog.Always.bind ?_ fun task => Quiet.permits.removes.always_spawn task
  refine (always_transaction Quiet.refl fun w r db h => ⟨rfl, fun a ha => ?_⟩).bind fun _ => ?_
  · obtain ⟨db₁, hcreated, hinsert⟩ := renewTransaction_ok h
    obtain ⟨-, -, hactive, -⟩ := Database.insertRenewing_ok hinsert
    rw [← hcreated.active, ← hactive]
    exact ha
  · exact Prog.always_ofExcept.bind fun _ => Prog.always_ofExcept

/-- Up to the query for the next expiry a poll does not raise the next tick. -/
theorem until_poll (now : UInt64) (order : RowOrder Subscription) (draws : ℕ → Draw) :
    Prog.Until Quiet svc.Stores (Scheduler.poll svc.boot (svc.getNextTick now order draws) now) := by
  refine .bind (always_onTimer fun _ => rfl) fun _ => ?_
  refine .bind (always_tryTimer fun t t' h => ?_) fun _ => ?_
  · rw [(Timer.arm_eq_ok h).2, Timer.nextTick_armed]
  refine .bind (Prog.always_read Quiet.refl) fun deadline => ?_
  cases deadline with
  | none => exact .done ()
  | some deadline =>
    dsimp only
    split
    · unfold Service.getNextTick
      rw [Prog.bind_assoc]
      exact .bind (always_renewSubscriptions svc now order draws) fun _ => .reached ⟨now, rfl⟩
    · exact .done ()

/-- After the `hasten` a verification inserts its own subscription and nothing else. -/
theorem always_switchOver (id expiresAt : Int64) (topic challenge : String) :
    Prog.Always (Inserts expiresAt) (svc.switchOver id expiresAt topic challenge) := by
  have hactivate : Prog.Always (Inserts expiresAt) (Service.activate id expiresAt challenge) := by
    refine (always_transaction (Inserts.refl expiresAt) ?_).bind fun _ => Prog.always_done
    intro w u db h
    refine ⟨rfl, fun a ha => ?_⟩
    rcases (Table.mem_of_insert (activate_ok h).active).mp ha with hold | rfl
    · exact Or.inl hold
    · exact Or.inr rfl
  refine (Prog.always_read (Inserts.refl expiresAt)).bind fun renewing => ?_
  cases renewing with
  | none => exact hactivate
  | some r =>
    refine (always_transaction (Inserts.refl expiresAt) ?_).bind fun hub => ?_
    · intro w a db h
      split at h
      · cases h
        exact Inserts.refl expiresAt w
      · cases h
    refine Prog.Always.bind ?_ fun task => ?_
    · refine (Prog.always_modify fun w => ?_).bind fun _ =>
        Prog.always_ofExcept.bind fun _ => Prog.always_ofExcept
      exact ⟨rfl, fun a ha => Or.inl ((quiet_delete _ w).active a ha)⟩
    · exact (Prog.always_modify fun w => ⟨rfl, fun _ => Or.inl⟩).bind fun _ => hactivate

end Programs

end Pipitor.Websub
