import Pipitor.Websub.Interleaving

/-!
# One subscription for each hub and topic

A renewal runs two subscriptions of one hub and topic side by side, the `old` and the `new` of a
renewing row. Apart from these `new` ones there should be one for each hub and topic (`OnePerFeed`).
Every operation but `subscribe` keeps this and brings in no hub and topic that were not there (`Tame`);
`subscribe` keeps it exactly where the table has no subscription of its hub and topic.
-/

namespace Pipitor.Websub

open Resumption Relational

/-- A subscription that is not the `new` of a renewing row. -/
structure Standing (db : Database) (s : Subscription) : Prop where
  mem : s ∈ db.subscriptions
  not_new : db.renewingSubscriptions.hasKey s.id = false

/-- At most one standing subscription for each hub and topic. -/
def OnePerFeed (db : Database) : Prop :=
  ∀ s s', Standing db s → Standing db s' → s.hub = s'.hub → s.topic = s'.topic → s = s'

def HasFeed (db : Database) (hub topic : String) : Prop :=
  ∃ s ∈ db.subscriptions, s.hub = hub ∧ s.topic = topic

/-- No hub and topic are added, and there is still at most one standing subscription for each. -/
structure Tame (db db' : Database) : Prop where
  feeds : ∀ hub topic, HasFeed db' hub topic → HasFeed db hub topic
  onePerFeed : OnePerFeed db → OnePerFeed db'

theorem Tame.refl (db : Database) : Tame db db := ⟨fun _ _ => id, id⟩

theorem Tame.trans {db db' db'' : Database} (h : Tame db db') (h' : Tame db' db'') : Tame db db'' :=
  ⟨fun hub topic hf => h.feeds hub topic (h'.feeds hub topic hf), fun hu => h'.onePerFeed (h.onePerFeed hu)⟩

section Tables

variable {db db' : Database}

/-- Every subscription stands itself or renews one that does, of the same hub and topic. -/
theorem Coherent.exists_standing (h : Coherent db) {s : Subscription} (hs : s ∈ db.subscriptions) :
    ∃ o, Standing db o ∧ o.hub = s.hub ∧ o.topic = s.topic ∧
      (o = s ∨ ∃ r ∈ db.renewingSubscriptions, r.old = o.id ∧ r.new = s.id) := by
  cases hkey : db.renewingSubscriptions.hasKey s.id with
  | false => exact ⟨s, ⟨hs, hkey⟩, rfl, rfl, Or.inl rfl⟩
  | true =>
    obtain ⟨r, hr, hrs⟩ := Table.hasKey_iff.mp hkey
    obtain ⟨old, hold, new, hnew, hoid, hnid, hhub, htopic⟩ := h.same_feed r hr
    obtain rfl : new = s := Table.eq_of_key_eq hnew hs (hnid.trans hrs)
    refine ⟨old, ⟨hold, ?_⟩, hhub, htopic, Or.inr ⟨r, hr, hoid.symm, hrs⟩⟩
    rw [Table.hasKey_eq_false_iff]
    intro r' hr' heq
    exact h.old_ne_new hr hr' (hoid.symm.trans heq.symm)

/-- Where a subscription is deleted that another renews, the other one takes its place. -/
theorem Coherent.tame_delete (h : Coherent db) (p : Subscription → Bool) :
    Tame db (db.deleteSubscriptions p) := by
  constructor
  · rintro hub topic ⟨s, hs, hfeed⟩
    exact ⟨s, (Database.mem_subscriptions_delete.mp hs).1, hfeed⟩
  · intro hu s s' hs hs' hhub htopic
    have hmem := Database.mem_subscriptions_delete.mp hs.mem
    have hmem' := Database.mem_subscriptions_delete.mp hs'.mem
    -- A renewal of which both sides are left is still one.
    have hboth : ∀ {o n : Subscription}, Standing (db.deleteSubscriptions p) n →
        o ∈ db.subscriptions ∧ p o = false →
        ¬∃ r ∈ db.renewingSubscriptions, r.old = o.id ∧ r.new = n.id := by
      rintro o n hn ⟨ho, hpo⟩ ⟨r, hr, hrold, hrnew⟩
      obtain ⟨hnmem, hpn⟩ := Database.mem_subscriptions_delete.mp hn.mem
      refine Table.hasKey_eq_false_iff.mp hn.not_new r (Database.mem_renewing_delete.mpr ⟨hr, ?_, ?_⟩) hrnew
      · rw [hrold, Database.deletedIds_of_mem ho, hpo]
      · rw [hrnew, Database.deletedIds_of_mem hnmem, hpn]
    obtain ⟨o, ho, hohub, hotopic, hor⟩ := h.exists_standing hmem.1
    obtain ⟨o', ho', hohub', hotopic', hor'⟩ := h.exists_standing hmem'.1
    obtain rfl : o = o' := hu o o' ho ho' (by rw [hohub, hohub', hhub]) (by rw [hotopic, hotopic', htopic])
    rcases hor with rfl | ⟨r, hr, hrold, hrnew⟩ <;> rcases hor' with hs'eq | ⟨r', hr', hrold', hrnew'⟩
    · exact hs'eq
    · exact absurd ⟨r', hr', hrold', hrnew'⟩ (hboth hs' hmem)
    · subst hs'eq
      exact absurd ⟨r, hr, hrold, hrnew⟩ (hboth hs hmem')
    · obtain rfl : r = r' := db.old_unique r hr r' hr' (hrold.trans hrold'.symm)
      exact Table.eq_of_key_eq hmem.1 hmem'.1 (hrnew.symm.trans hrnew')

theorem Opened.hasFeed_iff {hub topic secret : String} {id : Int64} (h : Opened db hub topic id secret db')
    {hub' topic' : String} :
    HasFeed db' hub' topic' ↔ HasFeed db hub' topic' ∨ (hub = hub' ∧ topic = topic') := by
  unfold HasFeed
  simp only [h.mem, or_and_right, exists_or, exists_eq_left]

theorem Renewed.tame {old : Subscription} {new : Int64} {secret : String} (h : Renewed db old new secret db')
    (hold : HasFeed db old.hub old.topic) : Tame db db' := by
  have hstands : ∀ s, Standing db' s → Standing db s := by
    intro s hs
    have hnot := hs.not_new
    rw [Table.hasKey_of_insert h.renewing, Bool.or_eq_false_iff, decide_eq_false_iff_not] at hnot
    rcases h.mem.mp hs.mem with hmem | rfl
    · exact ⟨hmem, hnot.1⟩
    · exact absurd rfl hnot.2
  constructor
  · intro hub topic hf
    rcases h.hasFeed_iff.mp hf with hf | ⟨rfl, rfl⟩
    · exact hf
    · exact hold
  · intro hu s s' hs hs'
    exact hu s s' (hstands s hs) (hstands s' hs')

theorem Activated.tame {id expiresAt : Int64} (h : Activated db id expiresAt db')
    (hno : db.renewingSubscriptions.hasKey id = false) : Tame db db' := by
  have hsame : ∀ id', db'.renewingSubscriptions.hasKey id' = db.renewingSubscriptions.hasKey id' := by
    intro id'
    rw [h.renewing, Table.hasKey_filter_key (p := fun k => !decide (k = id))]
    by_cases heq : id' = id
    · simp [heq, hno]
    · simp [heq]
  constructor
  · intro hub topic hf
    unfold HasFeed at hf ⊢
    rwa [h.subscriptions] at hf
  · intro hu s s' hs hs'
    refine hu s s' ⟨?_, ?_⟩ ⟨?_, ?_⟩
    · rw [← h.subscriptions]
      exact hs.mem
    · rw [← hsame]
      exact hs.not_new
    · rw [← h.subscriptions]
      exact hs'.mem
    · rw [← hsame]
      exact hs'.not_new

/-- The renewal of `r` ends with the old subscription, before the new one is activated. -/
theorem not_renewing_delete_old {r : RenewingSubscription}
    (hr : r ∈ db.renewingSubscriptions) :
    (db.deleteSubscriptions (·.id = r.old)).renewingSubscriptions.hasKey r.new = false := by
  rw [Table.hasKey_eq_false_iff]
  intro r' hr' heq
  obtain ⟨hr', hkept, -⟩ := Database.mem_renewing_delete.mp hr'
  obtain rfl : r' = r := Table.eq_of_key_eq hr' hr heq
  obtain ⟨a, ha, haid⟩ := Table.hasKey_iff.mp (db.old_references r' hr)
  obtain ⟨s, hs, hsid⟩ := Table.hasKey_iff.mp (db.active_references a ha)
  rw [← haid, ← hsid, Database.deletedIds_of_mem hs] at hkept
  simp [hsid] at hkept

/-- A verification ends a renewal before it activates the new subscription, so that one of the two stands. -/
theorem Verified.tame {id : Int64} (h : Verified db id db') (hc : Coherent db) : Tame db db' := by
  cases h with
  | unchanged h =>
    rw [h]
    exact Tame.refl _
  | activated expiresAt hnone h => exact h.tame hnone
  | removed r hr hnew h =>
    rw [h]
    exact hc.tame_delete _
  | replaced r hr hnew expiresAt h =>
    subst hnew
    exact (hc.tame_delete _).trans (h.tame (not_renewing_delete_old hr))

/-- A subscription that `subscribe` creates stands from the first, so there must be none yet. -/
theorem Created.onePerFeed_iff_first {hub topic secret : String} {id : Int64}
    (h : Created db hub topic id secret db') (hc : Coherent db) (hu : OnePerFeed db) :
    OnePerFeed db' ↔ ¬HasFeed db hub topic := by
  have hstands : ∀ {s}, Standing db s → Standing db' s := fun hs =>
    ⟨h.mem.mpr (Or.inl hs.mem), by rw [h.renewing]; exact hs.not_new⟩
  have hnew : Standing db' ⟨id, hub, topic, secret⟩ :=
    ⟨h.mem.mpr (Or.inr rfl), by rw [h.renewing]; exact not_new_of_fresh h.fresh⟩
  constructor
  · rintro hu' ⟨s, hs, hhub, htopic⟩
    obtain ⟨o, ho, hohub, hotopic, -⟩ := hc.exists_standing hs
    have heq := hu' o _ (hstands ho) hnew (hohub.trans hhub) (hotopic.trans htopic)
    exact h.ne_id ho.mem (congrArg Subscription.id heq).symm
  · intro hno s s' hs hs' hhub htopic
    have hnot := hs.not_new
    have hnot' := hs'.not_new
    rw [h.renewing] at hnot hnot'
    rcases h.mem.mp hs.mem with hmem | rfl <;> rcases h.mem.mp hs'.mem with hmem' | rfl
    · exact hu s s' ⟨hmem, hnot⟩ ⟨hmem', hnot'⟩ hhub htopic
    · exact absurd ⟨s, hmem, hhub, htopic⟩ hno
    · exact absurd ⟨s', hmem', hhub.symm, htopic.symm⟩ hno
    · rfl

end Tables

/-! ### The operations -/

section Triples

variable {w : World} (svc : Service)

theorem sat_renew_tame {rest : List (Subscription × ℕ)} {s : Subscription} {i : ℕ} (draw : Draw)
    (hw : RenewalsLeft ((s, i) :: rest) w) :
    Prog.Sat (Hub.renew svc.lib svc.callback draw s.id s.hub s.topic) w
      (fun _ w' => Tame w.db w'.db) fun _ w' => Tame w.db w'.db := by
  have hs : Renewable w.db s := hw.2.2 (s, i) (by simp)
  refine Prog.sat_bind (R := fun _ w' => Tame w.db w'.db) ?_ ?_
  · rcases renewTransaction_cases draw hs with ⟨new, db', hrun, hre⟩ | hrun
    · exact sat_transaction_ok hrun (hre.tame ⟨s, hs.mem, rfl, rfl⟩)
    · exact sat_transaction_error hrun (Tame.refl _)
  · rintro ⟨new, secret⟩ w₁ hw₁
    exact sat_request_of (K := fun w' => Tame w.db w'.db) hw₁ svc.lib svc.callback new s.hub
      (.subscribe · s.topic secret)

theorem sat_renewSubscriptions_tame (hw : Coherent w.db) (now : UInt64) (order : RowOrder Subscription)
    (draws : ℕ → Draw) :
    Prog.Sat (svc.renewSubscriptions now order draws) w
      (fun _ w' => Tame w.db w'.db) fun _ w' => Tame w.db w'.db := by
  unfold Service.renewSubscriptions
  refine Prog.sat_bind (R := fun _ w' => w = w')
    (Prog.sat_ofExcept (fun _ _ => rfl) fun _ _ => Tame.refl _) ?_
  rintro threshold _ rfl
  refine Prog.sat_bind (R := fun expiring w' => RenewalsLeft expiring.zipIdx w' ∧ Tame w.db w'.db)
    (sat_query.mpr ⟨renewalsLeft_start hw threshold order, Tame.refl _⟩) ?_
  intro expiring w₁ hw₁
  refine (Prog.sat_forM (R := fun rest w' => RenewalsLeft rest w' ∧ Tame w.db w'.db) ?_ _ w₁ hw₁).mono
    (fun _ _ h => h.2) fun _ _ h => h
  rintro ⟨s, i⟩ rest w₂ ⟨hleft, hw₂⟩
  refine Prog.sat_bind (R := fun _ w' => RenewalsLeft rest w' ∧ Tame w.db w'.db) ?_ fun task w₃ hw₃ =>
    sat_spawn.mpr hw₃
  exact ((sat_renew svc (draws i) hleft).and (sat_renew_tame svc (draws i) hleft)).mono
    (fun _ _ h => ⟨h.1, hw₂.trans h.2⟩) fun _ _ h => hw₂.trans h.2

/-- `subscribe` creates a subscription, also where it goes on to panic, unless it is still drawing. -/
theorem sat_subscribe_created (draw : Draw) (hub topic : String) :
    Prog.Sat (svc.subscribe draw hub topic) w
      (fun _ w' => ¬draw.IsUsedUp w.db ∧ ∃ id, Created w.db hub topic id draw.secret w'.db)
      fun e w' => (e = .starved ∧ draw.IsUsedUp w.db ∧ w' = w) ∨
        e ≠ .starved ∧ ¬draw.IsUsedUp w.db ∧ ∃ id, Created w.db hub topic id draw.secret w'.db := by
  refine Prog.sat_bind (R := fun _ w' => ¬draw.IsUsedUp w.db ∧ ∃ id, Created w.db hub topic id draw.secret w'.db)
    ?_ ?_
  · rcases createSubscription_cases draw hub topic w.db with ⟨id, db', hrun, hcreated⟩ | hrun
    · refine sat_transaction_ok hrun ⟨fun htaken => ?_, id, hcreated⟩
      rw [(createSubscription_starved_iff hub topic).mpr htaken] at hrun
      cases hrun
    · exact sat_transaction_error hrun (Or.inl ⟨rfl, (createSubscription_starved_iff hub topic).mp hrun, rfl⟩)
  · rintro ⟨id, secret⟩ w₁ hw₁
    refine Prog.sat_bind (R := fun _ w' => ¬draw.IsUsedUp w.db ∧ ∃ id, Created w.db hub topic id draw.secret w'.db)
      (Prog.sat_ofExcept (fun _ _ => hw₁) ?_) fun callback w₂ hw₂ => Prog.sat_ofExcept (fun _ _ => hw₂) ?_
    · intro e he
      exact Or.inr ⟨by rw [makeCallback_error he]; simp, hw₁⟩
    · intro e he
      exact Or.inr ⟨by rw [sendRequest_error he]; simp, hw₂⟩

end Triples

namespace Op

/-- From coherent tables to coherent ones, and tamely. -/
def CoherentlyTame (w w' : World) : Prop := Coherent w.db → Coherent w'.db ∧ Tame w.db w'.db

theorem CoherentlyTame.removes : Removes CoherentlyTame where
  refl _ hc := ⟨hc, Tame.refl _⟩
  spawned _ _ hc := ⟨hc, Tame.refl _⟩
  deleted _ p hc := ⟨hc.deleteSubscriptions p, hc.tame_delete p⟩

theorem CoherentlyTame.trans {w w' w'' : World} (h : CoherentlyTame w w') (h' : CoherentlyTame w' w'') :
    CoherentlyTame w w'' := by
  intro hc
  obtain ⟨hc', htame⟩ := h hc
  obtain ⟨hc'', htame'⟩ := h' hc'
  exact ⟨hc'', htame.trans htame'⟩

/-- The operation `subscribe` apart, no operation brings in a hub and topic. -/
theorem step_tame (svc : Service) {w : World} {op : Op} (hw : Coherent w.db)
    (hop : ∀ draw hub topic, op ≠ .subscribe draw hub topic) : Tame w.db (op.step svc w).db := by
  have halways : Prog.Always CoherentlyTame (op.prog svc) → Tame w.db (op.step svc w).db := fun h =>
    (h.run CoherentlyTame.removes.refl (fun _ _ _ => CoherentlyTame.trans) w hw).2
  cases op with
  | subscribe draw hub topic => exact absurd rfl (hop draw hub topic)
  | renewSubscriptions now order draws =>
    exact Prog.Sat.run (P := fun w' : World => Tame w.db w'.db)
      (sat_renewSubscriptions_tame svc hw now order draws)
  | verifyIntent id queryString now =>
    rw [run_verifyIntent]
    exact (verified_verifyIntent svc w id queryString now).tame hw
  | unsubscribe id hub topic =>
    exact halways ((CoherentlyTame.removes.always_unsubscribe svc id hub topic).bind fun task =>
      CoherentlyTame.removes.always_spawn task)
  | unsubscribeAll order topic => exact halways (CoherentlyTame.removes.always_unsubscribeAll svc order topic)
  | removeDanglingSubscriptions => exact hw.tame_delete _

/-- Only an operation that subscribes at the hub to the topic brings the two in. -/
theorem hasFeed_step (svc : Service) {w : World} {op : Op} (hw : Coherent w.db) {hub topic : String}
    (hop : ∀ draw, op ≠ .subscribe draw hub topic) (h : HasFeed (op.step svc w).db hub topic) :
    HasFeed w.db hub topic := by
  by_cases hsubscribe : ∃ draw hub' topic', op = .subscribe draw hub' topic'
  · obtain ⟨draw, hub', topic', rfl⟩ := hsubscribe
    have hcreated : ∀ {id : Int64} {w' : World}, Created w.db hub' topic' id draw.secret w'.db →
        HasFeed w'.db hub topic → HasFeed w.db hub topic := by
      intro id w' hcreated hfeed
      refine (hcreated.hasFeed_iff.mp hfeed).resolve_right ?_
      rintro ⟨rfl, rfl⟩
      exact hop draw rfl
    refine Prog.Sat.run (P := fun w' : World => HasFeed w'.db hub topic → HasFeed w.db hub topic) ?_ h
    refine Prog.sat_bind ((sat_subscribe_created svc draw hub' topic').mono (fun _ _ hw' => hw') ?_) ?_
    · rintro e w' (⟨-, -, rfl⟩ | ⟨-, -, id, hw'⟩)
      · exact fun hfeed => hfeed
      · exact hcreated hw'
    · rintro task w' ⟨-, id, hw'⟩
      exact sat_spawn.mpr (hcreated hw')
  · exact (step_tame svc hw fun draw hub topic heq => hsubscribe ⟨draw, hub, topic, heq⟩).feeds hub topic h

theorem not_hasFeed_final (svc : Service) {w : World} (hw : Coherent w.db) {hub topic : String}
    (h : ¬HasFeed w.db hub topic) {run : List Op} (hrun : ∀ op ∈ run, ∀ draw, op ≠ .subscribe draw hub topic) :
    ¬HasFeed (Runs.final (step svc) w run).db hub topic := by
  induction run generalizing w with
  | nil => exact h
  | cons op run ih =>
    have hnext : ¬HasFeed (op.step svc w).db hub topic := fun hfeed =>
      h (hasFeed_step svc hw (hrun op (by simp)) hfeed)
    exact ih (step_coherent svc op hw) hnext fun op' hop' => hrun op' (List.mem_cons_of_mem _ hop')

end Op

end Pipitor.Websub
