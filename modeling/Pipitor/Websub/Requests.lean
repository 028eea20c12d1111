import Pipitor.Websub.Cycle

/-!
# The requests to the hubs

Every request that the subscriber sends is about a row: one to subscribe about a row that it has just
created, with the row's topic and secret, one to unsubscribe about a row that it has just removed. An
operation does either the one or the other (`Adds`, `Drops`), and so each of the subscriber's turns.
-/

namespace Pipitor.Websub

open Resumption Relational

/-- Subscriptions are created, and every new request is to subscribe for one of them. -/
structure Adds (svc : Service) (w w' : World) : Prop where
  rows : ∀ s ∈ w.db.subscriptions, s ∈ w'.db.subscriptions
  kept : ∀ task ∈ w.spawned, task ∈ w'.spawned
  requests : ∀ hub form, .request hub form ∈ w'.spawned → .request hub form ∈ w.spawned ∨
    ∃ s ∈ w'.db.subscriptions, s ∉ w.db.subscriptions ∧ s.hub = hub ∧
      ∃ callback, makeCallback svc.lib svc.callback s.id = .ok callback ∧
        form = .subscribe callback s.topic s.secret

/-- Subscriptions are removed, and every new request is to unsubscribe from one of them. -/
structure Drops (svc : Service) (w w' : World) : Prop where
  rows : ∀ s ∈ w'.db.subscriptions, s ∈ w.db.subscriptions
  kept : ∀ task ∈ w.spawned, task ∈ w'.spawned
  requests : ∀ hub form, .request hub form ∈ w'.spawned → .request hub form ∈ w.spawned ∨
    ∃ s ∈ w.db.subscriptions, w'.db.subscriptions.hasKey s.id = false ∧
      ∃ callback topic, makeCallback svc.lib svc.callback s.id = .ok callback ∧
        form = .unsubscribe callback topic

section

variable {svc : Service}

theorem Adds.refl (w : World) : Adds svc w w := ⟨fun _ => id, fun _ => id, fun _ _ => Or.inl⟩

theorem Drops.refl (w : World) : Drops svc w w := ⟨fun _ => id, fun _ => id, fun _ _ => Or.inl⟩

theorem Adds.trans {w w' w'' : World} (h : Adds svc w w') (h' : Adds svc w' w'') : Adds svc w w'' where
  rows s hs := h'.rows s (h.rows s hs)
  kept task ht := h'.kept task (h.kept task ht)
  requests hub form hreq := by
    rcases h'.requests hub form hreq with hreq | ⟨s, hs, hnew, hrest⟩
    · rcases h.requests hub form hreq with hreq | ⟨s, hs, hrest⟩
      · exact Or.inl hreq
      · exact Or.inr ⟨s, h'.rows s hs, hrest⟩
    · exact Or.inr ⟨s, hs, fun hold => hnew (h.rows s hold), hrest⟩

theorem Adds.timer {w w' : World} (h : Adds svc w w') (timer : Timer) : Adds svc w { w' with timer } :=
  ⟨h.rows, h.kept, h.requests⟩

/-- A deletion that no request has been sent for yet. -/
theorem Drops.of_delete (w : World) (p : Subscription → Bool) :
    Drops svc w { w with db := w.db.deleteSubscriptions p } :=
  ⟨fun _ hs => (Database.mem_subscriptions_delete.mp hs).1, fun _ => id, fun _ _ => Or.inl⟩

theorem Drops.of_eq {w w₁ w' : World} (h : Drops svc w w₁)
    (hrows : w'.db.subscriptions = w₁.db.subscriptions) (hspawned : w'.spawned = w₁.spawned) :
    Drops svc w w' := by
  constructor
  · rw [hrows]
    exact h.rows
  · rw [hspawned]
    exact h.kept
  · rw [hspawned, hrows]
    exact h.requests

theorem Drops.spawn {w w₁ : World} (h : Drops svc w w₁) {s : Subscription} (hs : s ∈ w.db.subscriptions)
    (hgone : w₁.db.subscriptions.hasKey s.id = false) {hub topic : String} {callback : Uri}
    (hcallback : makeCallback svc.lib svc.callback s.id = .ok callback) :
    Drops svc w { w₁ with spawned := w₁.spawned ++ [.request hub (.unsubscribe callback topic)] } where
  rows := h.rows
  kept task ht := List.mem_append_left _ (h.kept task ht)
  requests hub' form hreq := by
    rcases List.mem_append.mp hreq with hreq | hreq
    · exact h.requests hub' form hreq
    · obtain ⟨rfl, rfl⟩ := Task.request.inj (List.mem_singleton.mp hreq)
      exact Or.inr ⟨s, hs, hgone, callback, topic, hcallback, rfl⟩

theorem Opened.adds {w : World} {hub topic secret : String} {id : Int64} {db' : Database}
    (h : Opened w.db hub topic id secret db') {callback : Uri}
    (hcallback : makeCallback svc.lib svc.callback id = .ok callback) :
    Adds svc w { w with
      db := db', spawned := w.spawned ++ [.request hub (.subscribe callback topic secret)] } where
  rows s hs := h.mem.mpr (Or.inl hs)
  kept task ht := List.mem_append_left _ ht
  requests hub' form hreq := by
    rcases List.mem_append.mp hreq with hreq | hreq
    · exact Or.inl hreq
    · obtain ⟨rfl, rfl⟩ := Task.request.inj (List.mem_singleton.mp hreq)
      refine Or.inr ⟨_, h.mem.mpr (Or.inr rfl), fun hold => ?_, rfl, callback, hcallback, rfl⟩
      exact h.ne_id hold rfl

theorem Opened.adds_silently {w w' : World} {hub topic secret : String} {id : Int64}
    (h : Opened w.db hub topic id secret w'.db) (hspawned : w'.spawned = w.spawned) : Adds svc w w' where
  rows s hs := h.mem.mpr (Or.inl hs)
  kept task ht := by rwa [hspawned]
  requests hub' form hreq := by
    rw [hspawned] at hreq
    exact Or.inl hreq

end

/-! ### The programs -/

section Programs

variable (svc : Service) {w : World}

theorem sendRequest_eq_ok {lib : Libraries} {hub : String} {form : Form} {task : Task}
    (h : sendRequest lib hub form = .ok task) : task = .request hub form := by
  unfold sendRequest at h
  split at h
  · exact (Except.ok.inj h).symm
  · cases h

theorem sat_request_eq (lib : Libraries) (callback : Uri) (id : Int64) (hub : String) (form : Uri → Form) :
    Prog.Sat (do
      let callback ← Prog.ofExcept (makeCallback lib callback id)
      Prog.ofExcept (sendRequest lib hub (form callback))) w
      (fun task w' => w' = w ∧ ∃ uri, makeCallback lib callback id = .ok uri ∧ task = .request hub (form uri))
      fun _ w' => w' = w := by
  refine Prog.sat_bind (R := fun uri w' => w = w' ∧ makeCallback lib callback id = .ok uri)
    (Prog.sat_ofExcept (fun _ h => ⟨rfl, h⟩) fun _ _ => rfl) ?_
  rintro uri _ ⟨rfl, huri⟩
  exact Prog.sat_ofExcept (fun task htask => ⟨rfl, uri, huri, sendRequest_eq_ok htask⟩) fun _ _ => rfl

/-- What `subscribe` and `renew` come to, with the request sent off. -/
theorem sat_open_spawn {f : Database → Except Abort ((Int64 × String) × Database)} {hub topic : String}
    (hf : ∀ a db', f w.db = .ok (a, db') → Opened w.db hub topic a.1 a.2 db') :
    Prog.Sat ((transaction f >>= fun a => do
      let callback ← Prog.ofExcept (makeCallback svc.lib svc.callback a.1)
      Prog.ofExcept (sendRequest svc.lib hub (.subscribe callback topic a.2))) >>= spawn) w
      (fun _ w' => Adds svc w w') fun _ w' => Adds svc w w' := by
  refine Prog.sat_bind (R := fun task w' => ∃ id secret db' uri, Opened w.db hub topic id secret db' ∧
    w' = { w with db := db' } ∧ makeCallback svc.lib svc.callback id = .ok uri ∧
      task = .request hub (.subscribe uri topic secret)) ?_ ?_
  · refine Prog.sat_bind (R := fun a w' => Opened w.db hub topic a.1 a.2 w'.db ∧ w' = { w with db := w'.db })
      (sat_transaction (fun a db' h => ⟨hf a db' h, rfl⟩) fun _ _ => Adds.refl w) ?_
    rintro ⟨id, secret⟩ w₁ ⟨hopened, hw₁⟩
    have hspawned : w₁.spawned = w.spawned := by rw [hw₁]
    refine (sat_request_eq svc.lib svc.callback id hub (.subscribe · topic secret)).mono ?_ ?_
    · rintro task w₂ ⟨rfl, uri, huri, htask⟩
      exact ⟨id, secret, w₂.db, uri, hopened, hw₁, huri, htask⟩
    · rintro e w₂ rfl
      exact hopened.adds_silently hspawned
  · rintro task w₁ ⟨id, secret, db', uri, hopened, rfl, huri, rfl⟩
    exact sat_spawn.mpr (hopened.adds huri)

theorem sat_subscribe_adds (draw : Draw) (hub topic : String) :
    Prog.Sat ((Op.subscribe draw hub topic).prog svc) w (fun _ w' => Adds svc w w') fun _ w' => Adds svc w w' := by
  refine sat_open_spawn svc (f := createSubscription draw hub topic) fun a db' h => ?_
  rcases createSubscription_cases draw hub topic w.db with ⟨id, db₁, hrun, hcreated⟩ | hrun
  · rw [hrun] at h
    cases h
    exact hcreated.toOpened
  · rw [hrun] at h
    cases h

/-- A renewal opens a subscription, whatever it renews. -/
theorem renewTransaction_opened {draw : Draw} {old : Int64} {hub topic : String} {db db' : Database}
    {a : Int64 × String} (h : renewTransaction draw old hub topic db = .ok (a, db')) :
    Opened db hub topic a.1 a.2 db' := by
  unfold renewTransaction at h
  rcases createSubscription_cases draw hub topic db with ⟨id, db₁, hrun, hcreated⟩ | hrun
  · rw [hrun] at h
    cases hinsert : db₁.insertRenewing ⟨old, id⟩ with
    | error e =>
      simp only [hinsert, unwrapDb_error] at h
      cases h
    | ok db₂ =>
      simp only [hinsert, unwrapDb_ok] at h
      cases h
      obtain ⟨-, hsubscriptions, hactive, hpending⟩ := Database.insertRenewing_ok hinsert
      refine ⟨hcreated.fresh, ?_, ?_, hactive.trans hcreated.active⟩
      · rw [hsubscriptions]
        exact hcreated.subscriptions
      · rw [hpending]
        exact hcreated.pending
  · rw [hrun] at h
    cases h

theorem sat_renewSubscriptions_adds (now : UInt64) (order : RowOrder Subscription) (draws : ℕ → Draw) :
    Prog.Sat (svc.renewSubscriptions now order draws) w (fun _ w' => Adds svc w w')
      fun _ w' => Adds svc w w' := by
  refine Prog.sat_bind (R := fun _ w' => w = w') (Prog.sat_ofExcept (fun _ _ => rfl) fun _ _ => Adds.refl w) ?_
  rintro threshold _ rfl
  refine Prog.sat_bind (R := fun _ w' => w = w') (sat_query.mpr rfl) ?_
  rintro expiring _ rfl
  refine Prog.sat_forM (R := fun _ w' => Adds svc w w') ?_ _ w (Adds.refl w)
  rintro ⟨s, i⟩ rest w₁ hw₁
  refine (sat_open_spawn (w := w₁) svc (f := renewTransaction (draws i) s.id s.hub s.topic)
    fun a db' h => renewTransaction_opened h).mono ?_ ?_
  · exact fun _ _ h => hw₁.trans h
  · exact fun _ _ h => hw₁.trans h

theorem sat_poll_adds (now : UInt64) (order : RowOrder Subscription) (draws : ℕ → Draw) :
    Prog.Sat (Scheduler.poll svc.boot (svc.getNextTick now order draws) now) w (fun _ w' => Adds svc w w')
      fun _ w' => Adds svc w w' := by
  refine sat_poll (P := Adds svc w) (fun _ timer h => h.timer timer) (Adds.refl w) fun _ timer => ?_
  refine sat_getNextTick svc ((sat_renewSubscriptions_adds svc (w := { w with timer }) now order draws).mono ?_ ?_)
  · exact fun _ _ h => ⟨h.rows, h.kept, h.requests⟩
  · exact fun _ _ h => ⟨h.rows, h.kept, h.requests⟩

theorem sat_unsubscribeAll_drops (order : RowOrder Subscription) (topic : String) :
    Prog.Sat (Hub.unsubscribeAll svc.lib svc.callback order topic spawn) w (fun _ w' => Drops svc w w')
      fun _ w' => Drops svc w w' := by
  refine Prog.sat_bind (R := fun rows w' => w = w' ∧ ∀ s ∈ rows, s ∈ w.db.subscriptions ∧ s.topic = topic)
    (sat_query.mpr ⟨rfl, fun s hs => ?_⟩) ?_
  · obtain ⟨hs, htopic⟩ := List.mem_filter.mp (order.mem_apply.mp hs)
    exact ⟨hs, of_decide_eq_true htopic⟩
  rintro rows _ ⟨rfl, hrows⟩
  have hgone : ∀ s ∈ rows, (w.db.deleteSubscriptions (·.topic = topic)).subscriptions.hasKey s.id = false := by
    intro s hs
    rw [Table.hasKey_eq_false_iff]
    intro s' hs' hid
    obtain ⟨hmem, htopic⟩ := Database.mem_subscriptions_delete.mp hs'
    rw [Table.eq_of_key_eq hmem (hrows s hs).1 hid] at htopic
    exact of_decide_eq_false htopic (hrows s hs).2
  let left (rest : List Subscription) (w' : World) : Prop := (∀ s ∈ rest, s ∈ rows) ∧ Drops svc w w' ∧
    w'.db = w.db.deleteSubscriptions (·.topic = topic)
  refine Prog.sat_bind (R := fun _ w' => left rows w')
    (sat_execute.mpr ⟨fun _ => id, Drops.of_delete w _, rfl⟩) ?_
  intro _ w₁ hw₁
  refine (Prog.sat_forM (R := left) ?_ rows w₁ hw₁).mono (fun _ _ h => h.2.1) fun _ _ h => h
  rintro s rest w₂ ⟨hrest, hdrops, hdb⟩
  have hs := hrest s List.mem_cons_self
  refine Prog.sat_bind (R := fun uri w' => w₂ = w' ∧ makeCallback svc.lib svc.callback s.id = .ok uri)
    (Prog.sat_ofExcept (fun _ h => ⟨rfl, h⟩) fun _ _ => hdrops) ?_
  rintro uri _ ⟨rfl, huri⟩
  refine Prog.sat_bind (R := fun task w' => w₂ = w' ∧ task = .request s.hub (.unsubscribe uri topic))
    (Prog.sat_ofExcept (fun task htask => ⟨rfl, sendRequest_eq_ok htask⟩) fun _ _ => hdrops) ?_
  rintro task _ ⟨rfl, rfl⟩
  refine sat_spawn.mpr ⟨fun s' hs' => hrest s' (List.mem_cons_of_mem _ hs'), ?_, hdb⟩
  exact hdrops.spawn (hrows s hs).1 (by rw [hdb]; exact hgone s hs) huri

/-- A verification drops the subscription that the verified one renews, if any. -/
theorem sat_activate_drops {w₁ : World} (h : Drops svc w w₁) (id expiresAt : Int64) (challenge : String) :
    Prog.Sat (Service.activate id expiresAt challenge) w₁ (fun _ w' => Drops svc w w')
      fun _ w' => Drops svc w w' := by
  refine Prog.sat_bind (R := fun _ w' => Drops svc w w') (sat_transaction ?_ fun _ _ => h) fun _ _ h => h
  intro u db hactivate
  exact h.of_eq (activate_ok hactivate).subscriptions rfl

theorem sat_replaceOld_drops {r : RenewingSubscription} (hr : r ∈ w.db.renewingSubscriptions)
    (expiresAt : Int64) (topic challenge : String) :
    Prog.Sat (svc.replaceOld r.new r.old expiresAt topic challenge) w (fun _ w' => Drops svc w w')
      fun _ w' => Drops svc w w' := by
  obtain ⟨a, ha, haid⟩ := Table.hasKey_iff.mp (w.db.old_references r hr)
  obtain ⟨s, hs, hsid⟩ := Table.hasKey_iff.mp (w.db.active_references a ha)
  have hold : s.id = r.old := hsid.trans haid
  have hdelete : Drops svc w { w with db := w.db.deleteSubscriptions (·.id = r.old) } := Drops.of_delete w _
  have hgone : (w.db.deleteSubscriptions (·.id = r.old)).subscriptions.hasKey s.id = false := by
    rw [Table.hasKey_eq_false_iff, hold]
    intro s' hs'
    exact of_decide_eq_false (Database.mem_subscriptions_delete.mp hs').2
  unfold Service.replaceOld
  refine Prog.sat_bind (R := fun _ w' => w = w') (sat_transaction ?_ fun _ _ => Drops.refl w) ?_
  · intro hub db h
    split at h
    · cases h
      rfl
    · cases h
  rintro hub _ rfl
  refine Prog.sat_bind (R := fun task w' => w' = { w with db := w.db.deleteSubscriptions (·.id = r.old) } ∧
    ∃ uri, makeCallback svc.lib svc.callback r.old = .ok uri ∧ task = .request hub (.unsubscribe uri topic)) ?_ ?_
  · refine Prog.sat_bind (R := fun _ w' => { w with db := w.db.deleteSubscriptions (·.id = r.old) } = w')
      (sat_execute.mpr rfl) ?_
    rintro _ _ rfl
    exact (sat_request_eq svc.lib svc.callback r.old hub (.unsubscribe · topic)).mono (fun _ _ h => h)
      fun _ _ h => h ▸ hdelete
  rintro task _ ⟨rfl, uri, huri, rfl⟩
  refine Prog.sat_bind (R := fun _ w' => Drops svc w w') (sat_spawn.mpr ?_) fun _ w₂ hw₂ =>
    sat_activate_drops svc hw₂ r.new expiresAt challenge
  exact hdelete.spawn hs hgone (by rw [hold]; exact huri)

theorem sat_verifyIntent_drops (id : Int64) (queryString : String) (now : UInt64) :
    Prog.Sat (svc.verifyIntent id queryString now) w (fun _ w' => Drops svc w w') fun _ w' => Drops svc w w' := by
  have hrefl : Drops svc w w := Drops.refl w
  unfold Service.verifyIntent
  split
  · rename_i topic challenge leaseSeconds _
    refine Prog.sat_bind (R := fun _ w' => w = w') (sat_query.mpr rfl) ?_
    rintro unverified _ rfl
    split
    · refine Prog.sat_bind (R := fun _ w' => w = w')
        (Prog.sat_ofExcept (fun _ _ => rfl) fun _ _ => hrefl) ?_
      rintro tick _ rfl
      refine Prog.sat_bind (R := fun _ w' => w'.db = w.db ∧ w'.spawned = w.spawned)
        (sat_onTimer.mpr ⟨rfl, rfl⟩) ?_
      rintro _ w₁ ⟨hdb, hspawned⟩
      have hw₁ : Drops svc w w₁ := hrefl.of_eq (by rw [hdb]) hspawned
      refine Prog.sat_bind (R := fun renewing w' => w₁ = w' ∧ renewing = w₁.db.renewingSubscriptions.find? id)
        (sat_query.mpr ⟨rfl, rfl⟩) ?_
      rintro renewing _ ⟨rfl, rfl⟩
      cases hfind : w₁.db.renewingSubscriptions.find? id with
      | none => exact sat_activate_drops svc hw₁ id _ challenge
      | some r =>
        obtain ⟨hr, rfl⟩ := Table.find?_eq_some_iff.mp hfind
        have hback : ∀ {w'}, Drops svc w₁ w' → Drops svc w w' := by
          rintro w' ⟨hrows, hkept, hrequests⟩
          rw [hdb] at hrows hrequests
          rw [hspawned] at hkept hrequests
          exact ⟨hrows, hkept, hrequests⟩
        exact (sat_replaceOld_drops svc hr _ topic challenge).mono (fun _ _ => hback) fun _ _ => hback
    · exact Prog.sat_done.mpr hrefl
  · refine Prog.sat_bind (R := fun _ w' => w = w') (sat_query.mpr rfl) ?_
    rintro subscribed _ rfl
    split <;> exact Prog.sat_done.mpr hrefl
  · exact Prog.sat_done.mpr hrefl

end Programs

/-! ### Turns -/

/-- The turns that the subscriber takes by itself: not a verification, which a hub asks for, and not
`unsubscribe`, which is a part of one. -/
def Turn.IsOwn : Turn → Prop
  | .perform (.verifyIntent _ _ _) => False
  | .perform (.unsubscribe _ _ _) => False
  | _ => True

theorem Turn.adds_or_drops (svc : Service) (w : World) {turn : Turn} (h : turn.IsOwn) :
    (Adds svc w (turn.step svc w) ∨ Drops svc w (turn.step svc w)) ∧ AddsNone w (turn.step svc w) := by
  cases turn with
  | perform op =>
    cases op with
    | subscribe draw hub topic =>
      refine ⟨Or.inl (sat_subscribe_adds svc draw hub topic).run, ?_⟩
      have hsame := @sameActive_step svc w (.subscribe draw hub topic) trivial
      exact fun a ha => hsame ▸ ha
    | renewSubscriptions now order draws =>
      refine ⟨Or.inl (sat_renewSubscriptions_adds svc now order draws).run, ?_⟩
      have hsame := @sameActive_step svc w (.renewSubscriptions now order draws) trivial
      exact fun a ha => hsame ▸ ha
    | verifyIntent id queryString now => exact h.elim
    | unsubscribe id hub topic => exact h.elim
    | unsubscribeAll order topic =>
      refine ⟨Or.inr (sat_unsubscribeAll_drops svc order topic).run, ?_⟩
      exact (AddsNone.permits.removes.always_unsubscribeAll svc order topic).run AddsNone.refl
        (fun _ _ _ => AddsNone.trans) w
    | removeDanglingSubscriptions =>
      exact ⟨Or.inr (Drops.of_delete w _), fun a ha => (Database.mem_active_delete.mp ha).1⟩
  | unsubscribeCommand ids =>
    exact ⟨Or.inr (Drops.of_delete w _), fun a ha => (Database.mem_active_delete.mp ha).1⟩
  | poll now order draws =>
    refine ⟨Or.inl (sat_poll_adds svc now order draws).run, ?_⟩
    have hpoll : Prog.Sat (Scheduler.poll svc.boot (svc.getNextTick now order draws) now) w
        (fun _ w' => AddsNone w w') fun _ w' => AddsNone w w' := by
      refine sat_poll (P := AddsNone w) (fun _ _ h => h) (AddsNone.refl w) fun _ timer => ?_
      refine sat_getNextTick svc (((SameActive.always_renewSubscriptions svc now order draws).sat
        SameActive.refl (fun _ _ _ => SameActive.trans) _).mono ?_ ?_)
      · exact fun _ _ h a ha => h ▸ ha
      · exact fun _ _ h a ha => h ▸ ha
    exact hpoll.run

end Pipitor.Websub
