import Pipitor.Websub.Coherence

/-!
# Sequences of operations

Each operation of the subscriber, run alone from coherent tables, ends in coherent tables, whether it
returns or panics, and no `unwrap` of a database result is what makes it panic. `Op` lists the
operations; a sequence of them from the empty tables visits coherent tables only.
-/

namespace Pipitor.Websub

open Resumption Relational

/-- An early end that is no database error and leaves coherent tables. -/
def Harmless (e : Abort) (w : World) : Prop := Coherent w.db ∧ ∀ d, e ≠ .database d

section Triples

variable {w : World} (svc : Service)

theorem makeCallback_error {lib : Libraries} {callback : Uri} {id : Int64} {e : Abort}
    (h : makeCallback lib callback id = .error e) : e = .uri := by
  unfold makeCallback at h
  split at h
  · cases h; rfl
  · dsimp only at h
    split at h
    · cases h
    · cases h; rfl

theorem sendRequest_error {lib : Libraries} {hub : String} {form : Form} {e : Abort}
    (h : sendRequest lib hub form = .error e) : e = .uri := by
  unfold sendRequest at h
  split at h
  · cases h
  · cases h; rfl

/-- Building a request does not touch the state, and fails only for a text that is no URI. -/
theorem sat_request_uri {K : World → Prop} {E : Abort → World → Prop} (hw : K w) (huri : ∀ w, K w → E .uri w)
    (lib : Libraries) (callback : Uri) (id : Int64) (hub : String) (form : Uri → Form) :
    Prog.Sat (do
      let callback ← Prog.ofExcept (makeCallback lib callback id)
      Prog.ofExcept (sendRequest lib hub (form callback))) w (fun _ w' => K w') E := by
  refine Prog.sat_bind (R := fun _ w' => K w') (Prog.sat_ofExcept (fun _ _ => hw) ?_) ?_
  · intro e he
    rw [makeCallback_error he]
    exact huri w hw
  · intro uri w' hw'
    refine Prog.sat_ofExcept (fun _ _ => hw') ?_
    intro e he
    rw [sendRequest_error he]
    exact huri w' hw'

theorem sat_request (hw : Coherent w.db) (lib : Libraries) (callback : Uri) (id : Int64) (hub : String)
    (form : Uri → Form) :
    Prog.Sat (do
      let callback ← Prog.ofExcept (makeCallback lib callback id)
      Prog.ofExcept (sendRequest lib hub (form callback))) w (fun _ w' => w = w') Harmless := by
  apply sat_request_uri rfl
  rintro _ rfl
  exact ⟨hw, fun d => by simp⟩

/-- So what held before holds after it, whether or not it succeeds. -/
theorem sat_request_of {K : World → Prop} (hw : K w) (lib : Libraries) (callback : Uri) (id : Int64)
    (hub : String) (form : Uri → Form) :
    Prog.Sat (do
      let callback ← Prog.ofExcept (makeCallback lib callback id)
      Prog.ofExcept (sendRequest lib hub (form callback))) w (fun _ w' => K w') fun _ w' => K w' :=
  sat_request_uri hw (fun _ h => h) lib callback id hub form

theorem sat_subscribe (hw : Coherent w.db) (draw : Draw) (hub topic : String) :
    Prog.Sat (svc.subscribe draw hub topic) w (fun _ w' => Coherent w'.db) Harmless := by
  refine Prog.sat_bind (R := fun _ w' => Coherent w'.db) ?_ ?_
  · rcases createSubscription_cases draw hub topic w.db with ⟨id, db', hrun, hcr⟩ | hrun
    · exact sat_transaction_ok hrun (hcr.coherent hw)
    · exact sat_transaction_error hrun ⟨hw, by simp⟩
  · rintro ⟨id, secret⟩ w₁ hw₁
    refine (sat_request hw₁ svc.lib svc.callback id hub (.subscribe · topic secret)).mono ?_ ?_
    · rintro _ _ rfl
      exact hw₁
    · exact fun _ _ h => h

theorem sat_unsubscribe (hw : Coherent w.db) (lib : Libraries) (callback : Uri) (id : Int64)
    (hub topic : String) :
    Prog.Sat (Hub.unsubscribe lib callback id hub topic) w
      (fun _ w' => { w with db := w.db.deleteSubscriptions (·.id = id) } = w') Harmless :=
  sat_request (w := { w with db := w.db.deleteSubscriptions (·.id = id) })
    (hw.deleteSubscriptions _) lib callback id hub (.unsubscribe · topic)

theorem sat_unsubscribeAll (hw : Coherent w.db) (lib : Libraries) (callback : Uri)
    (order : RowOrder Subscription) (topic : String) :
    Prog.Sat (Hub.unsubscribeAll lib callback order topic spawn) w
      (fun _ w' => Coherent w'.db) Harmless := by
  unfold Hub.unsubscribeAll
  refine Prog.sat_bind (R := fun _ w' => w = w') (sat_query.mpr rfl) ?_
  rintro subscriptions _ rfl
  refine Prog.sat_bind (R := fun _ w' => Coherent w'.db) (sat_execute.mpr (hw.deleteSubscriptions _)) ?_
  intro _ w₁ hw₁
  refine Prog.sat_forM (R := fun _ w' => Coherent w'.db) ?_ _ w₁ hw₁
  intro s _ w₂ hw₂
  refine Prog.sat_bind (R := fun _ w' => Coherent w'.db) (Prog.sat_ofExcept (fun _ _ => hw₂) ?_) ?_
  · intro e he
    exact ⟨hw₂, fun d => by rw [makeCallback_error he]; simp⟩
  · intro uri w₃ hw₃
    refine Prog.sat_bind (R := fun _ w' => Coherent w'.db) (Prog.sat_ofExcept (fun _ _ => hw₃) ?_) ?_
    · intro e he
      exact ⟨hw₃, fun d => by rw [sendRequest_error he]; simp⟩
    · intro task w₄ hw₄
      exact sat_spawn.mpr hw₄

/-! ### Renewal -/

theorem isExpiring_iff {db : Database} {threshold : Int64} {s : Subscription} :
    db.isExpiring threshold s = true ↔
      ∃ a ∈ db.activeSubscriptions, a.id = s.id ∧ a.expiresAt ≤ threshold ∧
        db.isRenewing s.id = false := by
  unfold Database.isExpiring
  cases hf : db.activeSubscriptions.find? s.id with
  | none =>
    have hno := Table.hasKey_eq_false_iff.mp (Table.find?_eq_none_iff.mp hf)
    constructor
    · simp
    · rintro ⟨a, ha, hid, -⟩
      exact absurd hid (hno a ha)
  | some a =>
    obtain ⟨ha, hid⟩ := Table.find?_eq_some_iff.mp hf
    constructor
    · intro h
      simp only [Bool.and_eq_true, decide_eq_true_eq, Bool.not_eq_true'] at h
      exact ⟨a, ha, hid, h⟩
    · rintro ⟨b, hb, hbid, h⟩
      rw [Table.eq_of_key_eq ha hb (hid.trans hbid.symm)]
      simpa using h

theorem renewable_of_isExpiring {db : Database} {threshold : Int64} {s : Subscription}
    (hs : s ∈ db.subscriptions) (h : db.isExpiring threshold s = true) : Renewable db s := by
  obtain ⟨a, ha, hid, -, hidle⟩ := isExpiring_iff.mp h
  exact ⟨hs, hid ▸ Table.hasKey_of_mem ha, hidle⟩

/-- What the loop of `renew_subscriptions` keeps: the subscriptions still to be renewed can be. -/
def RenewalsLeft (rest : List (Subscription × ℕ)) (w : World) : Prop :=
  Coherent w.db ∧ (rest.map (·.1.id)).Nodup ∧ ∀ p ∈ rest, Renewable w.db p.1

theorem threshold_error {svc : Service} {now : UInt64} {e : Abort}
    (h : svc.threshold now = .error e) : e = .arithmetic := by
  have hadd : ∀ {a b : UInt64} {e : Abort}, svc.addU64 a b = .error e → e = .arithmetic := by
    intro a b e h
    unfold Service.addU64 at h
    split at h
    · cases h; rfl
    · cases h
  unfold Service.threshold at h
  split at h
  · rename_i e' he
    cases h
    exact hadd he
  · split at h
    · rename_i e' he
      cases h
      exact hadd he
    · split at h
      · cases h
      · cases h; rfl

theorem sat_renew {rest : List (Subscription × ℕ)} {s : Subscription} {i : ℕ} (draw : Draw)
    (hw : RenewalsLeft ((s, i) :: rest) w) :
    Prog.Sat (Hub.renew svc.lib svc.callback draw s.id s.hub s.topic) w
      (fun _ w' => RenewalsLeft rest w') Harmless := by
  obtain ⟨hc, hnodup, hleft⟩ := hw
  have hs : Renewable w.db s := hleft (s, i) (by simp)
  obtain ⟨hfresh, hnodup⟩ := List.nodup_cons.mp hnodup
  refine Prog.sat_bind (R := fun _ w' => RenewalsLeft rest w') ?_ ?_
  · rcases renewTransaction_cases draw hs with ⟨new, db', hrun, hre⟩ | hrun
    · refine sat_transaction_ok hrun ⟨hre.coherent hs.mem hc, hnodup, ?_⟩
      intro p hp
      have hne : s.id ≠ p.1.id := fun heq => hfresh (List.mem_map.mpr ⟨p, hp, heq.symm⟩)
      exact hre.renewable (hleft p (List.mem_cons_of_mem _ hp)) hne
    · exact sat_transaction_error hrun ⟨hc, by simp⟩
  · rintro ⟨new, secret⟩ w₁ hw₁
    refine (sat_request hw₁.1 svc.lib svc.callback new s.hub (.subscribe · s.topic secret)).mono ?_ ?_
    · rintro _ _ rfl
      exact hw₁
    · exact fun _ _ h => h

theorem renewalsLeft_start (hw : Coherent w.db) (threshold : Int64) (order : RowOrder Subscription) :
    RenewalsLeft
      (order.apply (w.db.subscriptions.rows.filter (w.db.isExpiring threshold))).zipIdx w := by
  refine ⟨hw, ?_, ?_⟩
  · have hmap : ∀ l : List Subscription, l.zipIdx.map (·.1.id) = l.map (·.id) := by
      intro l
      rw [show (fun p : Subscription × ℕ => p.1.id) = Subscription.id ∘ Prod.fst from rfl,
        ← List.map_map, List.zipIdx_map_fst]
    rw [hmap]
    refine ((order.perm _).map _).nodup_iff.mpr ?_
    exact (List.Sublist.map _ List.filter_sublist).nodup w.db.subscriptions.nodup
  · rintro ⟨s, i⟩ hp
    have hs := (order.mem_apply).mp (List.fst_mem_of_mem_zipIdx hp)
    obtain ⟨hs, hexp⟩ := List.mem_filter.mp hs
    exact renewable_of_isExpiring hs hexp

theorem sat_renewSubscriptions (hw : Coherent w.db) (now : UInt64) (order : RowOrder Subscription)
    (draws : ℕ → Draw) :
    Prog.Sat (svc.renewSubscriptions now order draws) w (fun _ w' => Coherent w'.db) Harmless := by
  unfold Service.renewSubscriptions
  refine Prog.sat_bind (R := fun _ w' => w = w') (Prog.sat_ofExcept (fun _ _ => rfl) ?_) ?_
  · intro e he
    exact ⟨hw, fun d => by rw [threshold_error he]; simp⟩
  · rintro threshold _ rfl
    refine Prog.sat_bind (R := fun expiring w' => RenewalsLeft expiring.zipIdx w')
      (sat_query.mpr (renewalsLeft_start hw threshold order)) ?_
    intro expiring w₁ hw₁
    refine (Prog.sat_forM (R := RenewalsLeft) ?_ _ w₁ hw₁).mono (fun _ _ h => h.1) fun _ _ h => h
    rintro ⟨s, i⟩ rest w₂ hw₂
    refine Prog.sat_bind (sat_renew svc (draws i) hw₂) ?_
    intro task w₃ hw₃
    exact sat_spawn.mpr hw₃

/-! ### Verification of intent -/

theorem hasKey_of_isUnverified {db : Database} {id : Int64} {topic : String}
    (h : db.isUnverified id topic = true) :
    db.subscriptions.hasKey id = true ∧ db.activeSubscriptions.hasKey id = false := by
  unfold Database.isUnverified Database.isSubscribed at h
  simp only [Bool.and_eq_true, List.any_eq_true, decide_eq_true_eq, Bool.not_eq_true'] at h
  obtain ⟨⟨s, hs, hid, -⟩, hna⟩ := h
  exact ⟨Table.hasKey_iff.mpr ⟨s, hs, hid⟩, hna⟩

theorem sat_activate (hw : Coherent w.db) {id : Int64} (expiresAt : Int64) (challenge : String)
    (hid : w.db.subscriptions.hasKey id = true) (hna : w.db.activeSubscriptions.hasKey id = false) :
    Prog.Sat (Service.activate id expiresAt challenge) w (fun _ w' => Coherent w'.db) Harmless := by
  obtain ⟨db', hrun⟩ := exists_activate expiresAt hid hna
  refine Prog.sat_bind (R := fun _ w' => Coherent w'.db) ?_ ?_
  · exact sat_transaction_ok hrun ((activate_ok hrun).coherent hw)
  · intro u w' hw'
    exact Prog.sat_done.mpr hw'

/-- The old subscription goes, the one that is being verified stays. -/
theorem sat_replaceOld (hw : Coherent w.db) {r : RenewingSubscription}
    (hr : r ∈ w.db.renewingSubscriptions) (expiresAt : Int64) (topic challenge : String) :
    Prog.Sat (svc.replaceOld r.new r.old expiresAt topic challenge) w
      (fun _ w' => Coherent w'.db) Harmless := by
  have hpending := w.db.new_references r hr
  obtain ⟨p, hp, hpid⟩ := Table.hasKey_iff.mp hpending
  have hid : w.db.subscriptions.hasKey r.new = true := by
    rw [← hpid]
    exact w.db.pending_references p hp
  obtain ⟨s, hs, hsid⟩ := Table.hasKey_iff.mp hid
  unfold Service.replaceOld
  refine Prog.sat_bind (R := fun _ w' => w = w') (sat_transaction ?_ ?_) ?_
  · intro hub db h
    rw [Table.find?_eq_some_iff.mpr ⟨hs, hsid⟩] at h
    cases h
    rfl
  · intro e h
    rw [Table.find?_eq_some_iff.mpr ⟨hs, hsid⟩] at h
    cases h
  rintro hub _ rfl
  refine Prog.sat_bind (sat_unsubscribe hw svc.lib svc.callback r.old hub topic) ?_
  rintro task _ rfl
  have hdel := hw.deleteSubscriptions (·.id = r.old)
  refine Prog.sat_bind (R := fun _ w' => w'.db = w.db.deleteSubscriptions (·.id = r.old))
    (sat_spawn.mpr rfl) ?_
  intro u w₁ hw₁
  have hkeep : (w.db.deleteSubscriptions (·.id = r.old)).subscriptions.hasKey r.new = true := by
    refine Table.hasKey_iff.mpr ⟨s, Database.mem_subscriptions_delete.mpr ⟨hs, ?_⟩, hsid⟩
    have hne : s.id ≠ r.old := by
      rw [hsid]
      exact (hw.old_ne_new hr hr).symm
    simpa using hne
  have hna : (w.db.deleteSubscriptions (·.id = r.old)).activeSubscriptions.hasKey r.new = false := by
    rw [Table.hasKey_eq_false_iff]
    intro a ha heq
    have hnp := hw.not_pending (Table.hasKey_of_mem (Database.mem_active_delete.mp ha).1)
    rw [heq, hpending] at hnp
    cases hnp
  exact sat_activate (by rw [hw₁]; exact hdel) expiresAt challenge (by rw [hw₁]; exact hkeep)
    (by rw [hw₁]; exact hna)

theorem sat_confirm (hw : Coherent w.db) {id : Int64} (topic challenge : String)
    (leaseSeconds now : UInt64) (hid : w.db.subscriptions.hasKey id = true)
    (hna : w.db.activeSubscriptions.hasKey id = false) :
    Prog.Sat (svc.confirm id topic challenge leaseSeconds now) w
      (fun _ w' => Coherent w'.db) Harmless := by
  unfold Service.confirm
  refine Prog.sat_bind (R := fun _ w' => w = w') (Prog.sat_ofExcept (fun _ _ => rfl) ?_) ?_
  · intro e he
    unfold Service.refreshTime Service.subU64 at he
    split at he
    · cases he
      exact ⟨hw, by simp⟩
    · cases he
  rintro tick _ rfl
  refine Prog.sat_bind (R := fun _ w' => w'.db = w.db) (sat_onTimer.mpr rfl) ?_
  intro u w₁ hw₁
  unfold Service.switchOver
  refine Prog.sat_bind (R := fun renewing w' =>
    w'.db = w.db ∧ renewing = w.db.renewingSubscriptions.find? id)
      (sat_query.mpr ⟨hw₁, by rw [← hw₁]⟩) ?_
  rintro renewing w₂ ⟨hw₂, rfl⟩
  cases hf : w.db.renewingSubscriptions.find? id with
  | none =>
    exact sat_activate (by rw [hw₂]; exact hw) _ challenge (by rw [hw₂]; exact hid)
      (by rw [hw₂]; exact hna)
  | some r =>
    obtain ⟨hr, rfl⟩ := Table.find?_eq_some_iff.mp hf
    exact sat_replaceOld svc (by rw [hw₂]; exact hw) (by rw [hw₂]; exact hr) _ topic challenge

theorem sat_verifyIntent (hw : Coherent w.db) (id : Int64) (queryString : String) (now : UInt64) :
    Prog.Sat (svc.verifyIntent id queryString now) w (fun _ w' => Coherent w'.db) Harmless := by
  unfold Service.verifyIntent
  split
  · rename_i topic challenge leaseSeconds _
    refine Prog.sat_bind
      (R := fun unverified w' => w = w' ∧ unverified = w.db.isUnverified id topic)
      (sat_query.mpr ⟨rfl, rfl⟩) ?_
    rintro unverified _ ⟨rfl, rfl⟩
    split
    · rename_i hun
      obtain ⟨hid, hna⟩ := hasKey_of_isUnverified hun
      exact sat_confirm svc hw topic challenge leaseSeconds now hid hna
    · exact Prog.sat_done.mpr hw
  · refine Prog.sat_bind (R := fun _ w' => w = w') (sat_query.mpr rfl) ?_
    rintro subscribed _ rfl
    split <;> exact Prog.sat_done.mpr hw
  · exact Prog.sat_done.mpr hw

/-! ### What a verification leaves -/

/-- What a verification of the subscription `id` makes of the tables, whether it is answered or panics: it may
end before or after it has removed the subscription that `id` renews, and has activated `id` at last. -/
inductive Verified (db : Database) (id : Int64) (db' : Database) : Prop
  | unchanged (h : db' = db)
  | activated (expiresAt : Int64) (hnone : db.renewingSubscriptions.hasKey id = false)
      (h : Activated db id expiresAt db')
  | removed (r : RenewingSubscription) (hr : r ∈ db.renewingSubscriptions) (hnew : r.new = id)
      (h : db' = db.deleteSubscriptions (·.id = r.old))
  | replaced (r : RenewingSubscription) (hr : r ∈ db.renewingSubscriptions) (hnew : r.new = id)
      (expiresAt : Int64) (h : Activated (db.deleteSubscriptions (·.id = r.old)) id expiresAt db')

theorem sat_activate_of {P : Database → Prop} {id : Int64} (hw : P w.db)
    (h : ∀ expiresAt db', Activated w.db id expiresAt db' → P db') (expiresAt : Int64) (challenge : String) :
    Prog.Sat (Service.activate id expiresAt challenge) w (fun _ w' => P w'.db) fun _ w' => P w'.db := by
  refine Prog.sat_bind (R := fun _ w' => P w'.db) (sat_transaction ?_ fun _ _ => hw) ?_
  · intro u db hrun
    exact h expiresAt db (activate_ok hrun)
  · exact fun _ _ h => Prog.sat_done.mpr h

theorem sat_replaceOld_verified {r : RenewingSubscription} (hr : r ∈ w.db.renewingSubscriptions)
    (expiresAt : Int64) (topic challenge : String) :
    Prog.Sat (svc.replaceOld r.new r.old expiresAt topic challenge) w
      (fun _ w' => Verified w.db r.new w'.db) fun _ w' => Verified w.db r.new w'.db := by
  unfold Service.replaceOld
  refine Prog.sat_bind (R := fun _ w' => w = w') (sat_transaction ?_ fun _ _ => .unchanged rfl) ?_
  · intro hub db h
    split at h
    · cases h
      rfl
    · cases h
  rintro hub _ rfl
  have hremoved : ∀ {db'}, db' = w.db.deleteSubscriptions (·.id = r.old) → Verified w.db r.new db' :=
    fun h => .removed r hr rfl h
  refine Prog.sat_bind (R := fun _ w' => w'.db = w.db.deleteSubscriptions (·.id = r.old)) ?_ ?_
  · refine (sat_request_of (w := { w with db := w.db.deleteSubscriptions (·.id = r.old) })
      (K := fun w' => w'.db = w.db.deleteSubscriptions (·.id = r.old)) rfl svc.lib svc.callback r.old hub
      (.unsubscribe · topic)).mono (fun _ _ h => h) fun _ _ h => hremoved h
  intro task w₁ hw₁
  refine Prog.sat_bind (R := fun _ w' => w'.db = w.db.deleteSubscriptions (·.id = r.old))
    (sat_spawn.mpr hw₁) ?_
  intro u w₂ hw₂
  refine sat_activate_of (P := Verified w.db r.new) (hremoved hw₂) ?_ expiresAt challenge
  intro expiresAt db' h
  rw [hw₂] at h
  exact .replaced r hr rfl expiresAt h

theorem sat_confirm_verified (id : Int64) (topic challenge : String) (leaseSeconds now : UInt64) :
    Prog.Sat (svc.confirm id topic challenge leaseSeconds now) w
      (fun _ w' => Verified w.db id w'.db) fun _ w' => Verified w.db id w'.db := by
  unfold Service.confirm
  refine Prog.sat_bind (R := fun _ w' => w = w')
    (Prog.sat_ofExcept (fun _ _ => rfl) fun _ _ => .unchanged rfl) ?_
  rintro tick _ rfl
  refine Prog.sat_bind (R := fun _ w' => w'.db = w.db) (sat_onTimer.mpr rfl) ?_
  intro u w₁ hw₁
  unfold Service.switchOver
  refine Prog.sat_bind (R := fun renewing w' =>
    w'.db = w.db ∧ renewing = w.db.renewingSubscriptions.find? id)
      (sat_query.mpr ⟨hw₁, by rw [← hw₁]⟩) ?_
  rintro renewing w₂ ⟨hw₂, rfl⟩
  rw [← hw₂]
  cases hf : w₂.db.renewingSubscriptions.find? id with
  | none =>
    exact sat_activate_of (P := Verified w₂.db id) (.unchanged rfl)
      (fun expiresAt _ h => .activated expiresAt (Table.find?_eq_none_iff.mp hf) h) _ challenge
  | some r =>
    obtain ⟨hr, rfl⟩ := Table.find?_eq_some_iff.mp hf
    exact sat_replaceOld_verified svc hr _ topic challenge

theorem sat_verifyIntent_verified (id : Int64) (queryString : String) (now : UInt64) :
    Prog.Sat (svc.verifyIntent id queryString now) w
      (fun _ w' => Verified w.db id w'.db) fun _ w' => Verified w.db id w'.db := by
  unfold Service.verifyIntent
  split
  · rename_i topic challenge leaseSeconds _
    refine Prog.sat_bind (R := fun _ w' => w = w') (sat_query.mpr rfl) ?_
    rintro unverified _ rfl
    split
    · exact sat_confirm_verified svc id topic challenge leaseSeconds now
    · exact Prog.sat_done.mpr (.unchanged rfl)
  · refine Prog.sat_bind (R := fun _ w' => w = w') (sat_query.mpr rfl) ?_
    rintro subscribed _ rfl
    split <;> exact Prog.sat_done.mpr (.unchanged rfl)
  · exact Prog.sat_done.mpr (.unchanged rfl)

theorem verified_verifyIntent (w : World) (id : Int64) (queryString : String) (now : UInt64) :
    Verified w.db id ((svc.verifyIntent id queryString now).run w).2.db :=
  Prog.Sat.run (P := fun w' : World => Verified w.db id w'.db) (sat_verifyIntent_verified svc id queryString now)

end Triples

/-! ### Runs -/

/-- The operations on the tables, with what each draws from its surroundings: the clock, the random
numbers, the order of the rows of a query. -/
inductive Op
  | subscribe (draw : Draw) (hub topic : String)
  | renewSubscriptions (now : UInt64) (order : RowOrder Subscription) (draws : ℕ → Draw)
  | verifyIntent (id : Int64) (queryString : String) (now : UInt64)
  | unsubscribe (id : Int64) (hub topic : String)
  | unsubscribeAll (order : RowOrder Subscription) (topic : String)
  | removeDanglingSubscriptions

namespace Op

def prog (svc : Service) : Op → Prog World Abort Unit
  | subscribe draw hub topic => do
    let task ← svc.subscribe draw hub topic
    spawn task
  | renewSubscriptions now order draws => svc.renewSubscriptions now order draws
  | verifyIntent id queryString now => do
    let _response ← svc.verifyIntent id queryString now
    pure ()
  | unsubscribe id hub topic => do
    let task ← Hub.unsubscribe svc.lib svc.callback id hub topic
    spawn task
  | unsubscribeAll order topic => Hub.unsubscribeAll svc.lib svc.callback order topic spawn
  | removeDanglingSubscriptions => Service.removeDanglingSubscriptions

/-- The operation run to completion. One that panics has made the statements before its panic. -/
def step (svc : Service) (w : World) (op : Op) : World := ((op.prog svc).run w).2

theorem run_verifyIntent (svc : Service) (w : World) (id : Int64) (queryString : String) (now : UInt64) :
    (verifyIntent id queryString now).step svc w = ((svc.verifyIntent id queryString now).run w).2 := by
  unfold step prog
  rw [Prog.run_bind]
  split <;> simp_all

theorem sat_prog (svc : Service) (op : Op) {w : World} (hw : Coherent w.db) :
    Prog.Sat (op.prog svc) w (fun _ w' => Coherent w'.db) Harmless := by
  cases op with
  | subscribe draw hub topic =>
    exact Prog.sat_bind (sat_subscribe svc hw draw hub topic) fun _ _ h => sat_spawn.mpr h
  | renewSubscriptions now order draws => exact sat_renewSubscriptions svc hw now order draws
  | verifyIntent id queryString now =>
    exact Prog.sat_bind (sat_verifyIntent svc hw id queryString now) fun _ _ h => Prog.sat_done.mpr h
  | unsubscribe id hub topic =>
    refine Prog.sat_bind (sat_unsubscribe hw svc.lib svc.callback id hub topic) ?_
    rintro task _ rfl
    exact sat_spawn.mpr (hw.deleteSubscriptions _)
  | unsubscribeAll order topic => exact sat_unsubscribeAll hw svc.lib svc.callback order topic
  | removeDanglingSubscriptions => exact sat_execute.mpr hw.removeDangling

theorem step_coherent (svc : Service) {w : World} (op : Op) (hw : Coherent w.db) :
    Coherent (op.step svc w).db := by
  have h : Prog.Sat (op.prog svc) w (fun _ w' => Coherent w'.db) fun _ w' => Coherent w'.db :=
    (sat_prog svc op hw).mono (fun _ _ h => h) fun _ _ h => h.1
  exact h.run

theorem run_ne_database (svc : Service) {w : World} (op : Op) (hw : Coherent w.db) (d : DbError) :
    ((op.prog svc).run w).1 ≠ .error (.database d) := by
  intro heq
  exact ((sat_prog svc op hw).of_error heq).2 d rfl

theorem final_coherent (svc : Service) (timer : Timer) (ops : List Op) :
    Coherent (Runs.final (step svc) ⟨.empty, timer, []⟩ ops).db :=
  Runs.final_induction (I := fun w : World => Coherent w.db) (fun _ op hw => step_coherent svc op hw)
    Coherent.empty ops

/-- **The tables stay coherent**, and no operation meets a database error, whatever was done
before: every subscription is active or pending and not both, a renewal is between two subscriptions
of one feed, and no subscription takes part in two renewals. -/
theorem tables_coherent (svc : Service) (timer : Timer) (ops : List Op) :
    let w : World := Runs.final (step svc) ⟨.empty, timer, []⟩ ops
    ((∀ s ∈ w.db.subscriptions, Xor (w.db.activeSubscriptions.hasKey s.id = true)
          (w.db.pendingSubscriptions.hasKey s.id = true)) ∧
        (∀ a ∈ w.db.activeSubscriptions, w.db.subscriptions.hasKey a.id = true) ∧
        ∀ p ∈ w.db.pendingSubscriptions, w.db.subscriptions.hasKey p.id = true) ∧
      ((∀ r ∈ w.db.renewingSubscriptions,
          w.db.activeSubscriptions.hasKey r.old = true ∧
            w.db.pendingSubscriptions.hasKey r.new = true ∧
            ∃ old ∈ w.db.subscriptions, ∃ new ∈ w.db.subscriptions,
              old.id = r.old ∧ new.id = r.new ∧ old.hub = new.hub ∧ old.topic = new.topic) ∧
        ∀ r ∈ w.db.renewingSubscriptions, ∀ r' ∈ w.db.renewingSubscriptions,
          r.old ≠ r'.new ∧
            ∀ id, (id = r.old ∨ id = r.new) → (id = r'.old ∨ id = r'.new) → r = r') ∧
      ∀ (op : Op) (d : DbError), ((op.prog svc).run w).1 ≠ .error (.database d) := by
  intro w
  have hw : Coherent w.db := final_coherent svc timer ops
  refine ⟨⟨?_, w.db.active_references, w.db.pending_references⟩, ⟨?_, ?_⟩, ?_⟩
  · intro s hs
    have hex := hw.exclusive s hs
    cases hp : w.db.pendingSubscriptions.hasKey s.id with
    | true =>
      rw [hp] at hex
      exact Or.inr ⟨rfl, by simp [hex]⟩
    | false =>
      rw [hp] at hex
      exact Or.inl ⟨hex, by simp⟩
  · intro r hr
    exact ⟨w.db.old_references r hr, w.db.new_references r hr, hw.same_feed r hr⟩
  · intro r hr r' hr'
    exact ⟨hw.old_ne_new hr hr', fun id hid hid' => hw.row_unique hr hr' hid hid'⟩
  · intro op d
    exact run_ne_database svc op hw d

end Op

end Pipitor.Websub
