import Pipitor.Websub.Uniqueness

/-!
# Verifications of intent by anybody

The callbacks of the subscriber are public, so whoever knows one can send verifications to it, at any time
and as often as he likes. What such a request can do, among operations of which each runs to its end.
-/

namespace Pipitor.Websub

open Resumption Relational

/-- The answer to a verification of intent. -/
def Service.answer (svc : Service) (w : World) (id : Int64) (queryString : String) (now : UInt64) :
    Except Abort Response :=
  ((svc.verifyIntent id queryString now).run w).1

/-- A verification in mode `subscribe` is answered with its challenge. -/
structure Confirms (svc : Service) (w : World) (id : Int64) (queryString : String) (now : UInt64)
    (topic challenge : String) (leaseSeconds : UInt64) : Prop where
  parses : svc.lib.parseVerify queryString = some (.subscribe topic challenge leaseSeconds)
  answer : svc.answer w id queryString now = .ok ⟨200, challenge⟩

/-! ### What active subscriptions go through -/

/-- No active subscription is removed or added. -/
def SameActive (w w' : World) : Prop := w'.db.activeSubscriptions = w.db.activeSubscriptions

namespace SameActive

theorem refl (w : World) : SameActive w w := rfl

theorem trans {w w' w'' : World} (h : SameActive w w') (h' : SameActive w' w'') : SameActive w w'' :=
  Eq.trans h' h

theorem always_created (draw : Draw) (hub topic : String) :
    Prog.Always SameActive (transaction (createSubscription draw hub topic)) :=
  always_transaction refl fun _ _ _ h => (createSubscription_ok h).active

theorem always_subscribe (svc : Service) (draw : Draw) (hub topic : String) :
    Prog.Always SameActive (svc.subscribe draw hub topic) :=
  (always_created draw hub topic).bind fun _ => Prog.always_ofExcept.bind fun _ => Prog.always_ofExcept

theorem always_renewSubscriptions (svc : Service) (now : UInt64) (order : RowOrder Subscription)
    (draws : ℕ → Draw) : Prog.Always SameActive (svc.renewSubscriptions now order draws) := by
  refine Prog.always_ofExcept.bind fun threshold => (Prog.always_read refl).bind fun expiring => ?_
  refine Prog.always_forM (fun s => ?_) expiring.zipIdx
  refine Prog.Always.bind ?_ fun task => Prog.always_modify fun w => refl w
  refine (always_transaction refl fun w a db h => ?_).bind fun _ => ?_
  · obtain ⟨db₁, hcreated, hinsert⟩ := renewTransaction_ok h
    exact (Database.insertRenewing_ok hinsert).2.2.1.trans hcreated.active
  · exact Prog.always_ofExcept.bind fun _ => Prog.always_ofExcept

end SameActive

/-- No subscription is added, and an active one is removed together with its subscription only. -/
structure Shrinks (w w' : World) : Prop where
  subscriptions : ∀ s ∈ w'.db.subscriptions, s ∈ w.db.subscriptions
  active : ∀ a ∈ w.db.activeSubscriptions,
    a ∈ w'.db.activeSubscriptions ∨ w'.db.subscriptions.hasKey a.id = false

namespace Shrinks

theorem refl (w : World) : Shrinks w w := ⟨fun _ => id, fun _ => .inl⟩

theorem trans {w w' w'' : World} (h : Shrinks w w') (h' : Shrinks w' w'') : Shrinks w w'' where
  subscriptions s hs := h.subscriptions s (h'.subscriptions s hs)
  active a ha := by
    rcases h.active a ha with hkept | hgone
    · exact h'.active a hkept
    · exact .inr (Table.hasKey_eq_false_iff.mpr fun s hs =>
        Table.hasKey_eq_false_iff.mp hgone s (h'.subscriptions s hs))

theorem of_delete (w : World) (p : Subscription → Bool) :
    Shrinks w { w with db := w.db.deleteSubscriptions p } where
  subscriptions _ hs := (Database.mem_subscriptions_delete.mp hs).1
  active a ha := by
    cases hgone : w.db.deletedIds p a.id with
    | false => exact .inl (Database.mem_active_delete.mpr ⟨ha, hgone⟩)
    | true =>
      refine .inr (Table.hasKey_eq_false_iff.mpr fun s hs hid => ?_)
      obtain ⟨hs, hp⟩ := Database.mem_subscriptions_delete.mp hs
      rw [← hid, Database.deletedIds_of_mem hs, hp] at hgone
      cases hgone

theorem removes : Removes Shrinks where
  refl := refl
  spawned _ _ := ⟨fun _ => id, fun _ => .inl⟩
  deleted := of_delete

theorem of_activated {w w' : World} {id expiresAt : Int64} (h : Activated w.db id expiresAt w'.db) :
    Shrinks w w' where
  subscriptions s hs := by rwa [h.subscriptions] at hs
  active a ha := .inl ((Table.mem_of_insert h.active).mpr (.inl ha))

theorem of_verified {w w' : World} {id : Int64} (h : Verified w.db id w'.db) : Shrinks w w' := by
  cases h with
  | unchanged h =>
    constructor
    · intro s hs
      rwa [h] at hs
    · intro a ha
      rw [h]
      exact .inl ha
  | activated expiresAt hnone h => exact of_activated h
  | removed r hr hnew h =>
    obtain ⟨hsubscriptions, hactive⟩ := of_delete w (·.id = r.old)
    constructor
    · rw [h]
      exact hsubscriptions
    · rw [h]
      exact hactive
  | replaced r hr hnew expiresAt h =>
    exact (of_delete w (·.id = r.old)).trans
      (of_activated (w := { w with db := w.db.deleteSubscriptions (·.id = r.old) }) h)

end Shrinks

/-- No active subscription is new. -/
def AddsNone (w w' : World) : Prop := ∀ a ∈ w'.db.activeSubscriptions, a ∈ w.db.activeSubscriptions

namespace AddsNone

theorem refl (w : World) : AddsNone w w := fun _ => id

theorem trans {w w' w'' : World} (h : AddsNone w w') (h' : AddsNone w' w'') : AddsNone w w'' :=
  fun a ha => h a (h' a ha)

theorem permits : Permits AddsNone where
  refl := refl
  spawned w _ := refl w
  created _ _ _ _ _ _ h := fun _ ha => (createSubscription_ok h).active ▸ ha
  deleted _ _ := fun _ ha => (Database.mem_active_delete.mp ha).1

end AddsNone

/-- What a confirmed subscription ends in: its row is the only active one that is new. -/
def Activates (id expiresAt : Int64) (challenge : String) (w : World) (response : Response)
    (w' : World) : Prop :=
  response = ⟨200, challenge⟩ ∧ ⟨id, expiresAt⟩ ∈ w'.db.activeSubscriptions ∧
    ∀ a ∈ w'.db.activeSubscriptions, a ∈ w.db.activeSubscriptions ∨ a = ⟨id, expiresAt⟩

/-! ### What a verification does -/

section Verification

variable (svc : Service) (w : World)

/-- Unless the subscription awaits its verification, a verification in mode `subscribe` is turned down. -/
theorem run_verifyIntent_of_not_unverified {id : Int64} {queryString topic challenge : String}
    {leaseSeconds now : UInt64}
    (hparse : svc.lib.parseVerify queryString = some (.subscribe topic challenge leaseSeconds))
    (h : w.db.isUnverified id topic = false) :
    (svc.verifyIntent id queryString now).run w = (.ok .notFound, w) := by
  unfold Service.verifyIntent
  rw [hparse]
  show (if w.db.isUnverified id topic then _ else pure Response.notFound : Prog World Abort Response).run w = _
  rw [h]
  rfl

/-- One in mode `unsubscribe` asks for nothing but whether there is such a subscription. -/
theorem run_verifyIntent_of_unsubscribe {id : Int64} {queryString topic challenge : String} {now : UInt64}
    (hparse : svc.lib.parseVerify queryString = some (.unsubscribe topic challenge)) :
    (svc.verifyIntent id queryString now).run w =
      (.ok (if w.db.isSubscribed id topic then .notFound else ⟨200, challenge⟩), w) := by
  unfold Service.verifyIntent
  rw [hparse]
  show (if !w.db.isSubscribed id topic then pure ⟨200, challenge⟩ else pure Response.notFound :
    Prog World Abort Response).run w = _
  cases w.db.isSubscribed id topic <;> rfl

variable {w}

theorem sat_activate_adds {w₁ : World} (h : AddsNone w w₁) (id expiresAt : Int64) (challenge : String) :
    Prog.Sat (Service.activate id expiresAt challenge) w₁ (Activates id expiresAt challenge w)
      fun _ => AddsNone w := by
  refine Prog.sat_bind (R := fun _ => Activates id expiresAt challenge w ⟨200, challenge⟩)
    (sat_transaction ?_ fun _ _ => h) fun _ _ h => Prog.sat_done.mpr h
  intro u db hactivate
  have hinsert := (activate_ok hactivate).active
  refine ⟨rfl, (Table.mem_of_insert hinsert).mpr (.inr rfl), fun a ha => ?_⟩
  exact ((Table.mem_of_insert hinsert).mp ha).imp_left (h a)

theorem sat_confirm_adds (id : Int64) (topic challenge : String) (leaseSeconds now : UInt64) :
    Prog.Sat (svc.confirm id topic challenge leaseSeconds now) w
      (Activates id (expiresAt now leaseSeconds) challenge w) fun _ => AddsNone w := by
  have hsame := AddsNone.refl w
  refine Prog.sat_bind (R := fun _ => AddsNone w) (Prog.sat_ofExcept (fun _ _ => hsame) fun _ _ => hsame) ?_
  intro tick w₁ h₁
  refine Prog.sat_bind (R := fun _ => AddsNone w) (sat_onTimer.mpr h₁) fun _ w₂ h₂ => ?_
  refine Prog.sat_bind (R := fun _ => AddsNone w) (sat_query.mpr h₂) fun renewing w₃ h₃ => ?_
  cases renewing with
  | none => exact sat_activate_adds h₃ id _ challenge
  | some r =>
    refine Prog.sat_bind (R := fun _ => AddsNone w) (sat_transaction ?_ fun _ _ => h₃) fun hub w₄ h₄ => ?_
    · intro hub db h
      split at h
      · cases h
        exact h₃
      · cases h
    refine Prog.sat_bind (R := fun _ => AddsNone w) ?_ fun task w₅ h₅ => ?_
    · have hunsubscribe := AddsNone.permits.removes.always_unsubscribe svc r.old hub topic
      exact (hunsubscribe.sat AddsNone.refl (fun _ _ _ => AddsNone.trans) w₄).mono
        (fun _ _ h => h₄.trans h) fun _ _ h => h₄.trans h
    · exact Prog.sat_bind (R := fun _ => AddsNone w) (sat_spawn.mpr h₅) fun _ w₆ h₆ =>
        sat_activate_adds h₆ id _ challenge

theorem run_verifyIntent_of_unverified {id : Int64} {queryString topic challenge : String}
    {leaseSeconds now : UInt64}
    (hparse : svc.lib.parseVerify queryString = some (.subscribe topic challenge leaseSeconds))
    (h : w.db.isUnverified id topic = true) : (svc.verifyIntent id queryString now).run w =
      (svc.confirm id topic challenge leaseSeconds now).run w := by
  unfold Service.verifyIntent
  rw [hparse]
  show (if w.db.isUnverified id topic then svc.confirm id topic challenge leaseSeconds now
    else pure Response.notFound : Prog World Abort Response).run w = _
  rw [h]
  rfl

variable {svc} {id : Int64} {queryString topic challenge : String} {leaseSeconds now : UInt64}

/-- Where a verification in mode `subscribe` is answered with its challenge, the subscription's row is the one
that is new. -/
theorem Confirms.activates (h : Confirms svc w id queryString now topic challenge leaseSeconds) :
    Activates id (expiresAt now leaseSeconds) challenge w ⟨200, challenge⟩
      ((svc.verifyIntent id queryString now).run w).2 := by
  have hanswer := h.answer
  unfold Service.answer at hanswer
  cases hun : w.db.isUnverified id topic with
  | false =>
    rw [run_verifyIntent_of_not_unverified svc w h.parses hun] at hanswer
    cases hanswer
  | true =>
    rw [run_verifyIntent_of_unverified svc h.parses hun] at hanswer ⊢
    exact (sat_confirm_adds svc id topic challenge leaseSeconds now).of_ok hanswer

/-- A verification that makes a subscription active is one in mode `subscribe` that is answered with its
challenge. -/
theorem confirms_of_new {a : ActiveSubscription}
    (ha : a ∈ ((svc.verifyIntent id queryString now).run w).2.db.activeSubscriptions)
    (hnew : a ∉ w.db.activeSubscriptions) :
    ∃ topic challenge leaseSeconds, Confirms svc w id queryString now topic challenge leaseSeconds ∧
      a = ⟨id, expiresAt now leaseSeconds⟩ := by
  cases hparse : svc.lib.parseVerify queryString with
  | none =>
    have hrun : (svc.verifyIntent id queryString now).run w = (.ok .notFound, w) := by
      unfold Service.verifyIntent
      rw [hparse]
      rfl
    rw [hrun] at ha
    exact absurd ha hnew
  | some verify =>
    cases verify with
    | unsubscribe topic challenge =>
      rw [run_verifyIntent_of_unsubscribe svc w hparse] at ha
      exact absurd ha hnew
    | subscribe topic challenge leaseSeconds =>
      cases hun : w.db.isUnverified id topic with
      | false =>
        rw [run_verifyIntent_of_not_unverified svc w hparse hun] at ha
        exact absurd ha hnew
      | true =>
        have hrun : (svc.verifyIntent id queryString now).run w =
            (svc.confirm id topic challenge leaseSeconds now).run w :=
          run_verifyIntent_of_unverified svc hparse hun
        have hsat := sat_confirm_adds svc (w := w) id topic challenge leaseSeconds now
        rw [hrun] at ha
        cases hanswer : ((svc.confirm id topic challenge leaseSeconds now).run w).1 with
        | error e => exact absurd (hsat.of_error hanswer a ha) hnew
        | ok response =>
          obtain ⟨rfl, -, hadds⟩ := hsat.of_ok hanswer
          refine ⟨topic, challenge, leaseSeconds, ⟨hparse, ?_⟩, (hadds a ha).resolve_left hnew⟩
          rw [Service.answer, hrun, hanswer]

end Verification

/-! ### Runs -/

section Runs

variable {svc : Service} {w : World}

/-- The operation may create subscriptions. -/
def Op.Creates : Op → Prop
  | .subscribe _ _ _ => True
  | .renewSubscriptions _ _ _ => True
  | _ => False

theorem sameActive_step (svc : Service) (w : World) {op : Op} (h : op.Creates) :
    SameActive w (op.step svc w) := by
  have halways : Prog.Always SameActive (op.prog svc) := by
    cases op with
    | subscribe draw hub topic =>
      exact (SameActive.always_subscribe svc draw hub topic).bind fun task =>
        Prog.always_modify fun w => rfl
    | renewSubscriptions now order draws => exact SameActive.always_renewSubscriptions svc now order draws
    | verifyIntent | unsubscribe | unsubscribeAll | removeDanglingSubscriptions => cases h
  exact halways.run SameActive.refl (fun _ _ _ => SameActive.trans) w

theorem shrinks_step (svc : Service) (w : World) {op : Op} (h : ¬ op.Creates) : Shrinks w (op.step svc w) := by
  have halways : Prog.Always Shrinks (op.prog svc) → Shrinks w (op.step svc w) := fun h =>
    h.run Shrinks.refl (fun _ _ _ => Shrinks.trans) w
  cases op with
  | subscribe | renewSubscriptions => exact absurd trivial h
  | verifyIntent id queryString now =>
    rw [Op.run_verifyIntent]
    exact Shrinks.of_verified (verified_verifyIntent svc w id queryString now)
  | unsubscribe id hub topic =>
    exact halways ((Shrinks.removes.always_unsubscribe svc id hub topic).bind fun task =>
      Shrinks.removes.always_spawn task)
  | unsubscribeAll order topic => exact halways (Shrinks.removes.always_unsubscribeAll svc order topic)
  | removeDanglingSubscriptions => exact halways (Prog.always_modify fun w => Shrinks.of_delete w _)

/-- An active subscription stays as it is until its subscription is removed. -/
theorem active_step {a : ActiveSubscription} (ha : a ∈ w.db.activeSubscriptions) (op : Op) :
    a ∈ (op.step svc w).db.activeSubscriptions ∨ (op.step svc w).db.subscriptions.hasKey a.id = false := by
  by_cases hcreates : op.Creates
  · rw [sameActive_step svc w hcreates]
    exact .inl ha
  · exact (shrinks_step svc w hcreates).active a ha

/-- A subscription becomes active by a verification that is answered with its challenge, and only so. -/
theorem confirms_of_new_step {a : ActiveSubscription} {op : Op}
    (ha : a ∈ (op.step svc w).db.activeSubscriptions) (hnew : a ∉ w.db.activeSubscriptions) :
    ∃ queryString now topic challenge leaseSeconds, op = .verifyIntent a.id queryString now ∧
      Confirms svc w a.id queryString now topic challenge leaseSeconds ∧
      a.expiresAt = expiresAt now leaseSeconds := by
  have hnone : ¬ Prog.Always AddsNone (op.prog svc) := fun h =>
    hnew (h.run AddsNone.refl (fun _ _ _ => AddsNone.trans) w a ha)
  have hnot : ¬ op.Creates := fun hcreates => hnew (by rwa [sameActive_step svc w hcreates] at ha)
  cases op with
  | subscribe | renewSubscriptions => exact absurd trivial hnot
  | verifyIntent id queryString now =>
    rw [Op.run_verifyIntent] at ha
    obtain ⟨topic, challenge, leaseSeconds, hconfirms, rfl⟩ := confirms_of_new ha hnew
    exact ⟨queryString, now, topic, challenge, leaseSeconds, rfl, hconfirms, rfl⟩
  | unsubscribe id hub topic =>
    exact absurd ((AddsNone.permits.removes.always_unsubscribe svc id hub topic).bind fun task =>
      AddsNone.permits.removes.always_spawn task) hnone
  | unsubscribeAll order topic => exact absurd (AddsNone.permits.removes.always_unsubscribeAll svc order topic) hnone
  | removeDanglingSubscriptions =>
    exact absurd (Prog.always_modify fun w => AddsNone.permits.deleted w _) hnone

theorem active_final {a : ActiveSubscription} (ha : a ∈ w.db.activeSubscriptions) {run : List Op}
    (hkept : ∀ x ∈ Runs.states (Op.step svc) w run, x.db.subscriptions.hasKey a.id = true) :
    a ∈ (Runs.final (Op.step svc) w run).db.activeSubscriptions := by
  refine Runs.final_of_kept (P := fun w : World => a ∈ w.db.activeSubscriptions) ?_ ha hkept
  intro w op ha hkept
  exact (active_step ha op).resolve_right (by simp [hkept])

end Runs

/-! ### The verifications of a run -/

section Answers

variable {svc : Service} {w : World} {id : Int64} {queryString topic challenge : String}
  {leaseSeconds now : UInt64}

theorem isUnverified_eq_false (h : w.db.isSubscribed id topic = false ∨
    w.db.activeSubscriptions.hasKey id = true) : w.db.isUnverified id topic = false := by
  unfold Database.isUnverified
  rcases h with h | h <;> simp [h]

theorem not_confirms_of_active (h : w.db.activeSubscriptions.hasKey id = true) :
    ¬ Confirms svc w id queryString now topic challenge leaseSeconds := by
  intro hconfirms
  have hanswer := hconfirms.answer
  rw [Service.answer, run_verifyIntent_of_not_unverified svc w hconfirms.parses
    (isUnverified_eq_false (.inr h))] at hanswer
  cases hanswer

theorem answer_of_not_subscribed
    (hparse : svc.lib.parseVerify queryString = some (.subscribe topic challenge leaseSeconds))
    (h : w.db.isSubscribed id topic = false) : svc.answer w id queryString now = .ok .notFound := by
  rw [Service.answer, run_verifyIntent_of_not_unverified svc w hparse (isUnverified_eq_false (.inl h))]

/-- A verification that is turned down, and one in mode `unsubscribe`, changes nothing. -/
theorem step_verifyIntent_eq (h : svc.answer w id queryString now = .ok .notFound ∨
      ∃ topic challenge, svc.lib.parseVerify queryString = some (.unsubscribe topic challenge)) :
    (Op.verifyIntent id queryString now).step svc w = w := by
  rw [Op.run_verifyIntent]
  cases hparse : svc.lib.parseVerify queryString with
  | none =>
    unfold Service.verifyIntent
    rw [hparse]
    rfl
  | some verify =>
    cases verify with
    | unsubscribe topic challenge => rw [run_verifyIntent_of_unsubscribe svc w hparse]
    | subscribe topic challenge leaseSeconds =>
      have hanswer : svc.answer w id queryString now = .ok .notFound := by simpa [hparse] using h
      cases hun : w.db.isUnverified id topic with
      | false => rw [run_verifyIntent_of_not_unverified svc w hparse hun]
      | true =>
        rw [Service.answer, run_verifyIntent_of_unverified svc hparse hun] at hanswer
        obtain ⟨heq, -⟩ := (sat_confirm_adds svc id topic challenge leaseSeconds now).of_ok hanswer
        cases heq

end Answers

/-- **Verifications cannot be abused.** After any operations: a subscription that has been confirmed is not
confirmed again and keeps its `expires_at` as long as there is it, and nothing else makes one active; a
verification in mode `subscribe` of an id or of a topic that was never requested, and one in mode `unsubscribe`
of a subscription that there is, is turned down; and one that is turned down, or in mode `unsubscribe`, changes
nothing, whatever the state. -/
theorem verifications_harmless (svc : Service) (timer : Timer) (run : List Op) :
    let w : World := Runs.final (Op.step svc) ⟨.empty, timer, []⟩ run
    (∀ id queryString now topic challenge leaseSeconds,
      Confirms svc w id queryString now topic challenge leaseSeconds → ∀ run' : List Op,
      (∀ x ∈ Runs.states (Op.step svc) ((Op.verifyIntent id queryString now).step svc w) run',
        x.db.subscriptions.hasKey id = true) →
      let w' := Runs.final (Op.step svc) ((Op.verifyIntent id queryString now).step svc w) run'
      ⟨id, expiresAt now leaseSeconds⟩ ∈ w'.db.activeSubscriptions ∧
        ∀ queryString now topic challenge leaseSeconds,
          ¬ Confirms svc w' id queryString now topic challenge leaseSeconds) ∧
    (∀ op : Op, ∀ a ∈ (op.step svc w).db.activeSubscriptions, a ∉ w.db.activeSubscriptions →
      ∃ queryString now topic challenge leaseSeconds, op = .verifyIntent a.id queryString now ∧
        Confirms svc w a.id queryString now topic challenge leaseSeconds ∧
        a.expiresAt = expiresAt now leaseSeconds) ∧
    (∀ id queryString now topic challenge leaseSeconds,
      svc.lib.parseVerify queryString = some (.subscribe topic challenge leaseSeconds) →
      ((∀ x ∈ Runs.states (Op.step svc) ⟨.empty, timer, []⟩ run, x.db.subscriptions.hasKey id = false) ∨
        ∀ op ∈ run, ∀ draw hub, op ≠ .subscribe draw hub topic) →
      svc.answer w id queryString now = .ok .notFound) ∧
    (∀ id queryString now topic challenge,
      svc.lib.parseVerify queryString = some (.unsubscribe topic challenge) →
      w.db.isSubscribed id topic = true → svc.answer w id queryString now = .ok .notFound) ∧
    ∀ (v : World) id queryString now, (svc.answer v id queryString now = .ok .notFound ∨
      ∃ topic challenge, svc.lib.parseVerify queryString = some (.unsubscribe topic challenge)) →
      (Op.verifyIntent id queryString now).step svc v = v := by
  intro w
  refine ⟨?_, fun op a ha hnew => confirms_of_new_step ha hnew, ?_, ?_, fun v id queryString now => step_verifyIntent_eq⟩
  · intro id queryString now topic challenge leaseSeconds hconfirms run' hkept w'
    have ha : ⟨id, expiresAt now leaseSeconds⟩ ∈
        ((Op.verifyIntent id queryString now).step svc w).db.activeSubscriptions := by
      rw [Op.run_verifyIntent]
      exact hconfirms.activates.2.1
    have hfinal := active_final ha hkept
    exact ⟨hfinal, fun _ _ _ _ _ => not_confirms_of_active (Table.hasKey_of_mem hfinal)⟩
  · intro id queryString now topic challenge leaseSeconds hparse hnever
    refine answer_of_not_subscribed hparse (Bool.eq_false_iff.mpr fun hsubscribed => ?_)
    obtain ⟨s, hs, heq⟩ := List.any_eq_true.mp hsubscribed
    simp only [Bool.and_eq_true, decide_eq_true_eq] at heq
    rcases hnever with hid | htopic
    · exact Table.hasKey_eq_false_iff.mp (hid w (Runs.final_mem_states _ _ _)) s hs heq.1
    · have hstart : ¬HasFeed Database.empty s.hub topic := fun ⟨x, hx, _⟩ => Table.not_mem_empty x hx
      exact Op.not_hasFeed_final svc Coherent.empty hstart (fun op hop draw => htopic op hop draw s.hub)
        ⟨s, hs, rfl, heq.2⟩
  · intro id queryString now topic challenge hparse hsubscribed
    rw [Service.answer, run_verifyIntent_of_unsubscribe svc w hparse, hsubscribed]
    rfl

end Pipitor.Websub
