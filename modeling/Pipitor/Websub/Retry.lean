import Pipitor.Websub.SwitchOver

/-!
# Renewals whose request fails

`renew` commits its rows before the request is sent, and what becomes of the request is only logged, by
the closure in `send_request` and by `log_and_discard_error`. `selects_iff` says when the next
`renew_subscriptions` selects a subscription again after the request to renew it has failed.
-/

namespace Pipitor.Websub

open Resumption Relational

/-- How a request ends: with a response, of which the status code, its reason phrase and the `Location`
are read, or with an error of the client, given by its `Debug` output. -/
inductive Outcome
  | response (status : ℕ) (reason : String) (location : Option String)
  | error (e : String)
deriving DecidableEq, Repr

def Outcome.isSuccess : Outcome → Bool
  | response status _ _ => 200 ≤ status && status < 300
  | error _ => false

def Form.topic : Form → String
  | subscribe _ topic _ => topic
  | unsubscribe _ topic => topic

/-- What the closure of `send_request` and `log_and_discard_error` log. -/
def Outcome.log (hub topic : String) (outcome : Outcome) : List String :=
  match outcome with
  | response status reason location =>
    if outcome.isSuccess then []
    else
      (if 300 ≤ status && status < 400 then
        location.toList.map fun location => s!"Topic {topic} at hub {hub} redirects to {location}"
      else []) ++
        [s!"Topic {topic} at hub {hub} returned HTTP status code {status} {reason}"]
  | error e => [s!"An HTTP request failed: {e}"]

/-- The subscriber and its log. -/
structure Logged where
  world : World
  log : List String

namespace Logged

/-- What happens to the tables, and the end of the `i`-th request. -/
inductive Event
  | perform (op : Op)
  | unsubscribeCommand (ids : Option (List Int64))
  | answer (i : ℕ) (outcome : Outcome)

def start (timer : Timer) : Logged := ⟨⟨.empty, timer, []⟩, []⟩

def step (svc : Service) (s : Logged) : Event → Logged
  | .perform op => { s with world := op.step svc s.world }
  | .unsubscribeCommand ids => { s with world := ((Websub.unsubscribeCommand ids).run s.world).2 }
  | .answer i outcome =>
    match s.world.spawned[i]? with
    | some (.request hub form) => { s with log := s.log ++ outcome.log hub form.topic }
    | _ => s

/-- The request for the new subscription of the renewal `r` has failed. -/
structure Fails (svc : Service) (s : Logged) (r : RenewingSubscription) (i : ℕ) (outcome : Outcome) :
    Prop where
  renewing : r ∈ s.world.db.renewingSubscriptions
  request : ∃ hub callback topic secret, makeCallback svc.lib svc.callback r.new = .ok callback ∧
    s.world.spawned[i]? = some (.request hub (.subscribe callback topic secret))
  failed : outcome.isSuccess = false

end Logged

/-- `renew_subscriptions` selects the subscription at the time `now`. -/
def Service.Selects (svc : Service) (db : Database) (now : UInt64) (id : Int64) : Prop :=
  ∃ threshold, svc.threshold now = .ok threshold ∧
    ∃ s ∈ db.subscriptions.rows.filter (db.isExpiring threshold), s.id = id

namespace Op

/-- The operation begins renewals. -/
def Renews : Op → Prop
  | renewSubscriptions _ _ _ => True
  | _ => False

/-- The operation removes the subscription where it is not active, whatever else there is of its topic. -/
def Drops (id : Int64) : Op → Prop
  | removeDanglingSubscriptions => True
  | unsubscribe id' _ _ => id' = id
  | _ => False

end Op

namespace Logged

def Event.Renews : Event → Prop
  | .perform op => op.Renews
  | _ => False

def Event.Drops (id : Int64) : Event → Prop
  | .perform op => op.Drops id
  | .unsubscribeCommand ids => ids.all (·.contains id) = true
  | .answer _ _ => False

end Logged

/-! ### The renewals that begin -/

/-- No renewal is begun. -/
def Fades (w w' : World) : Prop := ∀ r ∈ w'.db.renewingSubscriptions, r ∈ w.db.renewingSubscriptions

namespace Fades

theorem refl (w : World) : Fades w w := fun _ => id

theorem trans {w w' w'' : World} (h : Fades w w') (h' : Fades w' w'') : Fades w w'' :=
  fun r hr => h r (h' r hr)

theorem permits : Permits Fades where
  refl := refl
  spawned w _ := refl w
  created _ _ _ _ _ _ h := fun _ hr => (createSubscription_ok h).renewing ▸ hr
  deleted _ _ := fun _ hr => (Database.mem_renewing_delete.mp hr).1

variable (svc : Service)

theorem always_activate (id expiresAt : Int64) (challenge : String) :
    Prog.Always Fades (Service.activate id expiresAt challenge) := by
  refine (always_transaction refl fun w u db h r hr => ?_).bind fun _ => Prog.always_done
  rw [(activate_ok h).renewing] at hr
  exact (Table.mem_filter.mp hr).1

theorem always_replaceOld (id old expiresAt : Int64) (topic challenge : String) :
    Prog.Always Fades (svc.replaceOld id old expiresAt topic challenge) := by
  refine (always_transaction refl fun w hub db h => ?_).bind fun hub => ?_
  · split at h
    · cases h
      exact refl w
    · cases h
  · exact (permits.removes.always_unsubscribe svc old hub topic).bind fun task =>
      (permits.removes.always_spawn task).bind fun _ => always_activate id expiresAt challenge

theorem always_verifyIntent (id : Int64) (queryString : String) (now : UInt64) :
    Prog.Always Fades (svc.verifyIntent id queryString now) := by
  unfold Service.verifyIntent
  split
  · refine (permits.removes.always_query _).bind fun unverified => ?_
    split
    · refine Prog.always_ofExcept.bind fun tick => Prog.Always.bind (Prog.always_modify ?_) fun _ => ?_
      · exact fun _ _ hr => hr
      refine (permits.removes.always_query _).bind fun renewing => ?_
      cases renewing with
      | none => exact always_activate _ _ _
      | some r => exact always_replaceOld svc _ _ _ _ _
    · exact Prog.always_done
  · refine (permits.removes.always_query _).bind fun subscribed => ?_
    split
    · exact Prog.always_done
    · exact Prog.always_done
  · exact Prog.always_done

theorem always_prog {op : Op} (h : ¬ op.Renews) : Prog.Always Fades (op.prog svc) := by
  cases op with
  | subscribe draw hub topic =>
    exact (permits.always_subscribe svc draw hub topic).bind fun task => permits.removes.always_spawn task
  | renewSubscriptions now order draws => exact absurd trivial h
  | verifyIntent id queryString now =>
    exact (always_verifyIntent svc id queryString now).bind fun _ => Prog.always_done
  | unsubscribe id hub topic =>
    exact (permits.removes.always_unsubscribe svc id hub topic).bind fun task => permits.removes.always_spawn task
  | unsubscribeAll order topic => exact permits.removes.always_unsubscribeAll svc order topic
  | removeDanglingSubscriptions => exact Prog.always_modify fun w => permits.deleted w _

end Fades

/-- No renewal is ended. -/
def Retains (w w' : World) : Prop := ∀ r ∈ w.db.renewingSubscriptions, r ∈ w'.db.renewingSubscriptions

namespace Retains

theorem refl (w : World) : Retains w w := fun _ => id

theorem trans {w w' w'' : World} (h : Retains w w') (h' : Retains w' w'') : Retains w w'' :=
  fun r hr => h' r (h r hr)

theorem always_renewSubscriptions (svc : Service) (now : UInt64) (order : RowOrder Subscription)
    (draws : ℕ → Draw) : Prog.Always Retains (svc.renewSubscriptions now order draws) := by
  refine Prog.always_ofExcept.bind fun threshold => (Prog.always_read refl).bind fun expiring => ?_
  refine Prog.always_forM (fun s => ?_) expiring.zipIdx
  refine Prog.Always.bind ?_ fun task => Prog.always_modify fun w => refl w
  refine (always_transaction refl fun w a db h r hr => ?_).bind fun _ => ?_
  · obtain ⟨db₁, hcreated, hinsert⟩ := renewTransaction_ok h
    refine (Table.mem_of_insert (Database.insertRenewing_ok hinsert).1).mpr (Or.inl ?_)
    rw [hcreated.renewing]
    exact hr
  · exact Prog.always_ofExcept.bind fun _ => Prog.always_ofExcept

end Retains

/-! ### A renewal ends with the old subscription -/

/-- The renewal has not ended, or the old subscription is not active any more. -/
def Stands (r : RenewingSubscription) (w : World) : Prop :=
  r ∈ w.db.renewingSubscriptions ∨ w.db.activeSubscriptions.hasKey r.old = false

namespace Stands

variable {w : World} {r : RenewingSubscription}

theorem delete {p : Subscription → Bool} (hr : r ∈ w.db.renewingSubscriptions)
    (h : w.db.deletedIds p r.old = true ∨ w.db.deletedIds p r.new = false) :
    Stands r { w with db := w.db.deleteSubscriptions p } := by
  cases hold : w.db.deletedIds p r.old with
  | true =>
    refine Or.inr (Table.hasKey_eq_false_iff.mpr fun a ha hid => ?_)
    have hkept := (Database.mem_active_delete.mp ha).2
    rw [hid, hold] at hkept
    cases hkept
  | false =>
    have hnew : w.db.deletedIds p r.new = false := h.resolve_left (by simp [hold])
    exact Or.inl (Database.mem_renewing_delete.mpr ⟨hr, hold, hnew⟩)

theorem sat_ofExcept {α : Type} (hw : Stands r w) (x : Except Abort α) :
    Prog.Sat (Prog.ofExcept x) w (fun _ w' => Stands r w') fun _ w' => Stands r w' :=
  Prog.sat_ofExcept (fun _ _ => hw) fun _ _ => hw

theorem sat_spawnRequest (hw : Stands r w) (x : Except Abort Uri) (f : Uri → Except Abort Task) :
    Prog.Sat (do
      let callback ← Prog.ofExcept x
      let task ← Prog.ofExcept (f callback)
      spawn task) w (fun _ w' => Stands r w') fun _ w' => Stands r w' :=
  Prog.sat_bind (hw.sat_ofExcept x) fun callback _ hw₁ =>
    Prog.sat_bind (hw₁.sat_ofExcept (f callback)) fun _ _ hw₂ => sat_spawn.mpr hw₂

/-- The old subscription that a verification removes is the one of this renewal or takes no part in it. -/
theorem of_verified {id : Int64} {w' : World} (hc : Coherent w.db) (hr : r ∈ w.db.renewingSubscriptions)
    (h : Verified w.db id w'.db) : Stands r w' := by
  have hother : ∀ {x : RenewingSubscription}, x ∈ w.db.renewingSubscriptions → x ≠ r →
      r ∈ (w.db.deleteSubscriptions (·.id = x.old)).renewingSubscriptions := by
    intro x hx hne
    have hkept : ∀ {id : Int64}, id ≠ x.old → w.db.deletedIds (·.id = x.old) id = false := by
      intro id hid
      rw [Bool.eq_false_iff, ne_eq, Database.deletedIds_iff]
      rintro ⟨s, -, hp, rfl⟩
      exact hid (of_decide_eq_true hp)
    refine Database.mem_renewing_delete.mpr ⟨hr, hkept fun heq => hne ?_, hkept (hc.old_ne_new hx hr).symm⟩
    exact w.db.old_unique x hx r hr heq.symm
  cases h with
  | unchanged h =>
    rw [Stands, h]
    exact Or.inl hr
  | activated expiresAt hnone h =>
    refine Or.inl ?_
    rw [h.renewing]
    exact Table.mem_filter.mpr ⟨hr, by simpa using Table.hasKey_eq_false_iff.mp hnone r hr⟩
  | removed x hx hnew h =>
    rw [Stands, h]
    by_cases heq : x = r
    · subst heq
      exact Or.inr (Database.not_active_delete x.old)
    · exact Or.inl (hother hx heq)
  | replaced x hx hnew expiresAt h =>
    subst hnew
    by_cases heq : x = r
    · subst heq
      refine Or.inr ?_
      rw [Table.hasKey_of_insert h.active, Database.not_active_delete]
      simpa using (hc.old_ne_new hr hr).symm
    · refine Or.inl ?_
      rw [h.renewing]
      refine Table.mem_filter.mpr ⟨hother hx heq, ?_⟩
      have hne : r.new ≠ x.new := fun hid => heq (Table.eq_of_key_eq hx hr hid.symm)
      simpa using hne

variable (svc : Service)

theorem sat_unsubscribeAll (hc : Coherent w.db) (hr : r ∈ w.db.renewingSubscriptions)
    (order : RowOrder Subscription) (topic : String) :
    Prog.Sat (Hub.unsubscribeAll svc.lib svc.callback order topic spawn) w (fun _ w' => Stands r w')
      fun _ w' => Stands r w' := by
  refine Prog.sat_bind (R := fun _ w' => w = w') (sat_query.mpr rfl) ?_
  rintro subscriptions _ rfl
  refine Prog.sat_bind (R := fun _ w' => Stands r w') (sat_execute.mpr (delete hr ?_)) ?_
  · -- Both subscriptions are to one topic.
    obtain ⟨old, hold, new, hnew, ho, hn, -, htopic⟩ := hc.same_feed r hr
    rw [← ho, ← hn, Database.deletedIds_of_mem hold, Database.deletedIds_of_mem hnew, htopic]
    exact Bool.eq_false_or_eq_true _
  · intro _ w₁ hw₁
    exact Prog.sat_forM (R := fun _ w' => Stands r w')
      (fun s _ w₂ hw₂ => hw₂.sat_spawnRequest _ _) subscriptions w₁ hw₁

/-- An operation that begins no renewal and does not drop the new subscription ends the renewal at most
together with the old subscription. -/
theorem sat_prog (hc : Coherent w.db) (hr : r ∈ w.db.renewingSubscriptions) {op : Op}
    (hrenews : ¬ op.Renews) (hdrops : ¬ op.Drops r.new) :
    Prog.Sat (op.prog svc) w (fun _ w' => Stands r w') fun _ w' => Stands r w' := by
  have hw : Stands r w := Or.inl hr
  cases op with
  | subscribe draw hub topic =>
    refine Prog.sat_bind (R := fun _ w' => Stands r w') ?_ fun _ _ hw' => sat_spawn.mpr hw'
    refine Prog.sat_bind (R := fun _ w' => Stands r w') (sat_transaction ?_ fun _ _ => hw) ?_
    · exact fun a db h => Or.inl ((createSubscription_ok h).renewing ▸ hr)
    · exact fun a w₁ hw₁ => Prog.sat_bind (hw₁.sat_ofExcept _) fun _ _ hw₂ => hw₂.sat_ofExcept _
  | renewSubscriptions now order draws => exact absurd trivial hrenews
  | verifyIntent id queryString now =>
    refine Prog.sat_bind (R := fun _ w' => Stands r w') ?_ fun _ _ hw' => Prog.sat_done.mpr hw'
    exact (sat_verifyIntent_verified svc id queryString now).mono (fun _ _ h => of_verified hc hr h)
      fun _ _ h => of_verified hc hr h
  | unsubscribe id hub topic =>
    refine Prog.sat_bind (R := fun _ w' => Stands r w') ?_ fun _ _ hw' => sat_spawn.mpr hw'
    refine Prog.sat_bind (R := fun _ w' => Stands r w') (sat_execute.mpr (delete hr (Or.inr ?_))) ?_
    · rw [Bool.eq_false_iff, ne_eq, Database.deletedIds_iff]
      rintro ⟨s, -, hp, hid⟩
      exact hdrops ((of_decide_eq_true hp).symm.trans hid)
    · exact fun _ w₁ hw₁ => Prog.sat_bind (hw₁.sat_ofExcept _) fun _ _ hw₂ => hw₂.sat_ofExcept _
  | unsubscribeAll order topic => exact sat_unsubscribeAll svc hc hr order topic
  | removeDanglingSubscriptions => exact absurd trivial hdrops

end Stands

/-! ### What comes of a failed renewal -/

namespace Database

variable {db : Database} {r : RenewingSubscription}

theorem not_renewing_delete {p : Subscription → Bool}
    (h : ∀ s ∈ db.subscriptions, s.id = r.new → p s = true) :
    r ∉ (db.deleteSubscriptions p).renewingSubscriptions := by
  intro hr
  obtain ⟨hr, -, hkept⟩ := mem_renewing_delete.mp hr
  obtain ⟨q, hq, hqid⟩ := Table.hasKey_iff.mp (db.new_references r hr)
  obtain ⟨s, hs, hid⟩ := Table.hasKey_iff.mp (db.pending_references q hq)
  rw [← hqid, ← hid, deletedIds_of_mem hs, h s hs (hid.trans hqid)] at hkept
  cases hkept

/-- Once a renewal has ended, nothing else renews its old subscription. -/
theorem isRenewing_of_ended {db' : Database} (hr : r ∈ db.renewingSubscriptions)
    (hends : r ∉ db'.renewingSubscriptions)
    (hfades : ∀ x ∈ db'.renewingSubscriptions, x ∈ db.renewingSubscriptions) :
    db'.isRenewing r.old = false := by
  rw [isRenewing_eq_false_iff]
  intro x hx heq
  obtain rfl := db.old_unique x (hfades x hx) r hr heq
  exact hends hx

end Database

namespace Service

variable (svc : Service)

/-- The subscription is to be renewed at the time `now`. -/
def IsDue (db : Database) (now : UInt64) (id : Int64) : Prop :=
  ∃ threshold, svc.threshold now = .ok threshold ∧
    ∃ a ∈ db.activeSubscriptions, a.id = id ∧ a.expiresAt ≤ threshold

theorem selects_iff_idle {db : Database} {now : UInt64} {id : Int64} (h : svc.IsDue db now id) :
    svc.Selects db now id ↔ db.isRenewing id = false := by
  obtain ⟨threshold, hthreshold, a, ha, rfl, hdue⟩ := h
  constructor
  · rintro ⟨threshold', -, s, hs, hid⟩
    obtain ⟨a', -, -, -, hidle⟩ := isExpiring_iff.mp (List.mem_filter.mp hs).2
    rwa [← hid]
  · intro hidle
    obtain ⟨s, hs, hid⟩ := Table.hasKey_iff.mp (db.active_references a ha)
    refine ⟨threshold, hthreshold, s, List.mem_filter.mpr ⟨hs, ?_⟩, hid⟩
    exact isExpiring_iff.mpr ⟨a, ha, hid.symm, hdue, by rwa [hid]⟩

end Service

namespace Logged

variable {svc : Service} {s : Logged} {r : RenewingSubscription}

theorem step_coherent (hc : Coherent s.world.db) (e : Event) : Coherent (s.step svc e).world.db := by
  cases e with
  | perform op => exact op.step_coherent svc hc
  | unsubscribeCommand ids => exact hc.deleteSubscriptions _
  | answer i outcome =>
    unfold step
    dsimp only
    split
    · exact hc
    · exact hc

theorem step_answer (i : ℕ) (outcome : Outcome) : (s.step svc (.answer i outcome)).world = s.world := by
  unfold step
  dsimp only
  split
  · rfl
  · rfl

theorem step_fades {e : Event} (h : ¬ e.Renews) : Fades s.world (s.step svc e).world := by
  cases e with
  | perform op => exact (Fades.always_prog svc h).run Fades.refl (fun _ _ _ => Fades.trans) s.world
  | unsubscribeCommand ids => exact Fades.permits.deleted s.world _
  | answer i outcome =>
    rw [step_answer]
    exact Fades.refl s.world

theorem step_stands (hc : Coherent s.world.db) (hr : r ∈ s.world.db.renewingSubscriptions) {e : Event}
    (hdrops : ¬ e.Drops r.new) : Stands r (s.step svc e).world := by
  cases e with
  | perform op =>
    by_cases hrenews : op.Renews
    · cases op with
      | renewSubscriptions now order draws =>
        have hretains := (Retains.always_renewSubscriptions svc now order draws).run Retains.refl
          (fun _ _ _ => Retains.trans) s.world
        exact Or.inl (hretains r hr)
      | _ => exact hrenews.elim
    · exact (Stands.sat_prog svc hc hr hrenews hdrops).run
  | unsubscribeCommand ids =>
    refine Stands.delete hr (Or.inr ?_)
    rw [Bool.eq_false_iff, ne_eq, Database.deletedIds_iff]
    rintro ⟨s, -, hp, hid⟩
    exact hdrops (hid ▸ hp)
  | answer i outcome =>
    rw [step_answer]
    exact Or.inl hr

theorem step_drops (hc : Coherent s.world.db) {e : Event} (h : e.Drops r.new) :
    r ∉ (s.step svc e).world.db.renewingSubscriptions := by
  cases e with
  | perform op =>
    cases op with
    | unsubscribe id hub topic =>
      obtain rfl : id = r.new := h
      refine Prog.Sat.run (p := (Op.unsubscribe r.new hub topic).prog svc) (s := s.world)
        (P := fun w : World => r ∉ w.db.renewingSubscriptions) ?_
      refine Prog.sat_bind (R := fun _ w' => r ∉ w'.db.renewingSubscriptions) ?_
        fun _ _ hw' => sat_spawn.mpr hw'
      refine Prog.sat_bind (R := fun _ w' => r ∉ w'.db.renewingSubscriptions) (sat_execute.mpr ?_) ?_
      · exact Database.not_renewing_delete fun s _ hid => decide_eq_true hid
      · exact fun _ w₁ hw₁ => Prog.sat_bind (Prog.sat_ofExcept (fun _ _ => hw₁) fun _ _ => hw₁)
          fun _ w₂ hw₂ => Prog.sat_ofExcept (fun _ _ => hw₂) fun _ _ => hw₂
    | removeDanglingSubscriptions =>
      intro hr
      have hpending := s.world.db.new_references r (Fades.permits.deleted s.world _ r hr)
      refine Database.not_renewing_delete (fun t ht hid => ?_) hr
      rw [hc.exclusive t ht, hid, hpending]
      rfl
    | _ => exact h.elim
  | unsubscribeCommand ids =>
    exact Database.not_renewing_delete fun s _ hid => by rw [hid]; exact h
  | answer i outcome => exact h.elim

theorem final_idle {id : Int64} (h : s.world.db.isRenewing id = false) {run : List Event}
    (hrun : ∀ e ∈ run, ¬ e.Renews) : (Runs.final (step svc) s run).world.db.isRenewing id = false := by
  induction run generalizing s with
  | nil => exact h
  | cons e run ih =>
    rw [List.forall_mem_cons] at hrun
    refine ih ?_ hrun.2
    rw [Database.isRenewing_eq_false_iff] at h ⊢
    exact fun x hx => h x (step_fades hrun.1 x hx)

theorem step_kept (hc : Coherent s.world.db) (hr : r ∈ s.world.db.renewingSubscriptions) {e : Event}
    (hdrops : ¬ e.Drops r.new)
    (hactive : (s.step svc e).world.db.activeSubscriptions.hasKey r.old = true) :
    r ∈ (s.step svc e).world.db.renewingSubscriptions :=
  (step_stands hc hr hdrops).resolve_right (by simp [hactive])

/-- While the old subscription is active and the new one is not dropped, the renewal goes on. -/
theorem final_kept (hc : Coherent s.world.db) (hr : r ∈ s.world.db.renewingSubscriptions)
    {run : List Event} (hrun : ∀ e ∈ run, ¬ e.Drops r.new)
    (hactive : ∀ x ∈ Runs.states (step svc) s run, x.world.db.activeSubscriptions.hasKey r.old = true) :
    r ∈ (Runs.final (step svc) s run).world.db.renewingSubscriptions := by
  induction run generalizing s with
  | nil => exact hr
  | cons e run ih =>
    rw [List.forall_mem_cons] at hrun
    simp only [Runs.states, List.forall_mem_cons] at hactive
    have hkept := step_kept hc hr hrun.1 (hactive.2 _ (Runs.mem_states_start _ _ run))
    exact ih (step_coherent hc e) hkept hrun.2 hactive.2

/-- Once it has been dropped and until another renewal begins, the old one can be renewed again. -/
theorem final_dropped (hc : Coherent s.world.db) (hr : r ∈ s.world.db.renewingSubscriptions)
    {run : List Event} (hrun : ∀ e ∈ run, ¬ e.Renews) (hdrops : ∃ e ∈ run, e.Drops r.new)
    (hactive : ∀ x ∈ Runs.states (step svc) s run, x.world.db.activeSubscriptions.hasKey r.old = true) :
    (Runs.final (step svc) s run).world.db.isRenewing r.old = false := by
  induction run generalizing s with
  | nil => simp at hdrops
  | cons e run ih =>
    rw [List.forall_mem_cons] at hrun
    rw [List.exists_mem_cons_iff] at hdrops
    simp only [Runs.states, List.forall_mem_cons] at hactive
    by_cases he : e.Drops r.new
    · exact final_idle (Database.isRenewing_of_ended hr (step_drops hc he) (step_fades hrun.1)) hrun.2
    · have hkept := step_kept hc hr he (hactive.2 _ (Runs.mem_states_start _ _ run))
      exact ih (step_coherent hc e) hkept hrun.2 (hdrops.resolve_left he) hactive.2

/-- **A failed renewal is not retried.** After the request for the renewal `r` has failed, wherever that
happens in a run, the next `renew_subscriptions` at which the old subscription is due selects it exactly
if the new one has been dropped in between, by the removal of dangling subscriptions at a restart or by
an unsubscription from it alone. Until then no later one selects it either. -/
theorem selects_iff (timer : Timer) {before after : List Event} {i : ℕ} {outcome : Outcome} {now : UInt64}
    (hfails : (Runs.final (step svc) (start timer) before).Fails svc r i outcome)
    (hactive : ∀ x ∈ Runs.states (step svc) (Runs.final (step svc) (start timer) before)
      (.answer i outcome :: after), x.world.db.activeSubscriptions.hasKey r.old = true)
    (hdue : svc.IsDue
      (Runs.final (step svc) (start timer) (before ++ .answer i outcome :: after)).world.db now r.old) :
    ((∀ e ∈ after, ¬ e.Renews) →
        (svc.Selects (Runs.final (step svc) (start timer)
          (before ++ .answer i outcome :: after)).world.db now r.old ↔ ∃ e ∈ after, e.Drops r.new)) ∧
      ((∀ e ∈ after, ¬ e.Drops r.new) →
        ¬ svc.Selects (Runs.final (step svc) (start timer)
          (before ++ .answer i outcome :: after)).world.db now r.old) := by
  have hc : Coherent (Runs.final (step svc) (start timer) before).world.db :=
    Runs.final_induction (I := fun s : Logged => Coherent s.world.db)
      (fun _ e hc => step_coherent hc e) Coherent.empty before
  have hkept : (∀ e ∈ after, ¬ e.Drops r.new) → ¬ svc.Selects (Runs.final (step svc) (start timer)
      (before ++ .answer i outcome :: after)).world.db now r.old := by
    intro hdrops hselects
    have hidle := (svc.selects_iff_idle hdue).mp hselects
    rw [Runs.final_append] at hidle
    have hr := final_kept hc hfails.renewing (List.forall_mem_cons.mpr ⟨id, hdrops⟩) hactive
    exact Database.isRenewing_eq_false_iff.mp hidle r hr rfl
  refine ⟨fun hnext => ⟨fun hselects => ?_, fun ⟨e, he, hdrops⟩ => ?_⟩, hkept⟩
  · by_contra hnone
    exact hkept (fun e he hdrops => hnone ⟨e, he, hdrops⟩) hselects
  · rw [svc.selects_iff_idle hdue, Runs.final_append]
    exact final_dropped hc hfails.renewing (List.forall_mem_cons.mpr ⟨id, hnext⟩)
      ⟨e, List.mem_cons_of_mem _ he, hdrops⟩ hactive

/-- Subscription 1 is verified at 0, expires at 10000, and is renewed at 6400 by subscription 2. -/
def renewedOnce : List Event :=
  [.perform (.subscribe ⟨"", [2]⟩ "hub" "topic"), .perform (.verifyIntent 1 "" 0),
    .perform (.renewSubscriptions 6400 .asStored fun _ => ⟨"", [4]⟩)]

/-- The hub turns the request for subscription 2 down. -/
def turnedDown : Outcome := .response 503 "Service Unavailable" none

theorem fails_turnedDown :
    (Runs.final (step Service.sampleVerifier) (start (.new none)) renewedOnce).Fails Service.sampleVerifier
      ⟨1, 2⟩ 1 turnedDown where
  renewing := by decide
  request := ⟨"hub", _, "topic", "", rfl, by decide⟩
  failed := rfl

/-- After a restart subscription 1 is renewed. -/
theorem selects_restarted :
    Service.sampleVerifier.Selects
      (Runs.final (step Service.sampleVerifier) (start (.new none))
        (renewedOnce ++ [.answer 1 turnedDown, .perform .removeDanglingSubscriptions])).world.db 6401 1 := by
  refine ((selects_iff (r := ⟨1, 2⟩) (.new none) fails_turnedDown ?_ ?_).1 ?_).mpr ?_
  · decide
  · exact ⟨10002, by decide, ⟨1, 10000⟩, by decide, rfl, by decide⟩
  · exact List.forall_mem_singleton.mpr id
  · exact ⟨_, List.mem_singleton_self _, trivial⟩

/-- Without one it is not, whether one second after the failure or one second before it expires. -/
theorem not_selects_turnedDown :
    (Runs.final (step Service.sampleVerifier) (start (.new none)) renewedOnce).Fails Service.sampleVerifier
        ⟨1, 2⟩ 1 turnedDown ∧
      ∀ now ∈ [6401, 9999],
        Service.sampleVerifier.IsDue (Runs.final (step Service.sampleVerifier) (start (.new none))
          (renewedOnce ++ [.answer 1 turnedDown])).world.db now 1 ∧
        ¬ Service.sampleVerifier.Selects (Runs.final (step Service.sampleVerifier) (start (.new none))
          (renewedOnce ++ [.answer 1 turnedDown])).world.db now 1 := by
  refine ⟨fails_turnedDown, fun now hnow => ?_⟩
  have hdue : Service.sampleVerifier.IsDue
      (Runs.final (step Service.sampleVerifier) (start (.new none))
        (renewedOnce ++ [.answer 1 turnedDown])).world.db now 1 := by
    rcases List.mem_pair.mp hnow with rfl | rfl
    · exact ⟨10002, by decide, ⟨1, 10000⟩, by decide, rfl, by decide⟩
    · exact ⟨13600, by decide, ⟨1, 10000⟩, by decide, rfl, by decide⟩
  refine ⟨hdue, fun hselects => ?_⟩
  have hidle := (Service.sampleVerifier.selects_iff_idle hdue).mp hselects
  revert hidle
  decide

end Logged

end Pipitor.Websub
