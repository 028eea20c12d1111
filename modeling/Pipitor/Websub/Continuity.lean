import Pipitor.Websub.Register
import Pipitor.Websub.Renewals

/-!
# Leases that do not lapse

The subscriber under a clock. A subscription is renewed ahead of its expiry by the margin, so that the scheduler
may be polled somewhat late and the hub may take its time for the verification: as long as both together take
less than the margin, no lease lapses, and what is subscribed to stays so.
-/

namespace Pipitor.Websub

open Machine Resumption Relational

/-! ### A verification -/

/-- The subscription has been activated, with the one that it renews removed. -/
inductive Switched (db : Database) (id expiresAt : Int64) (db' : Database) : Prop
  | first (hnone : db.renewingSubscriptions.hasKey id = false) (h : Activated db id expiresAt db')
  | replaced (r : RenewingSubscription) (hr : r ∈ db.renewingSubscriptions) (hnew : r.new = id)
      (h : Activated (db.deleteSubscriptions (·.id = r.old)) id expiresAt db')

section Verification

variable {svc : Service} {w : World}

theorem sat_activate_activated {id : Int64} (expiresAt : Int64) (challenge : String)
    (hid : w.db.subscriptions.hasKey id = true) (hna : w.db.activeSubscriptions.hasKey id = false) :
    Prog.Sat (Service.activate id expiresAt challenge) w
      (fun _ w' => Activated w.db id expiresAt w'.db ∧ w'.timer = w.timer) fun _ _ => False := by
  obtain ⟨db', hrun⟩ := exists_activate expiresAt hid hna
  refine Prog.sat_bind (R := fun _ w' => Activated w.db id expiresAt w'.db ∧ w'.timer = w.timer) ?_ ?_
  · exact sat_transaction_ok hrun ⟨activate_ok hrun, rfl⟩
  · exact fun _ _ h => Prog.sat_done.mpr h

/-- Where the request to the hub of the old subscription can be built, the new one is activated. -/
theorem sat_replaceOld_activated (hw : Coherent w.db) {r : RenewingSubscription}
    (hr : r ∈ w.db.renewingSubscriptions) (hcallback : ∀ id, ∃ uri, makeCallback svc.lib svc.callback id = .ok uri)
    (hhubs : ∀ s ∈ w.db.subscriptions, svc.lib.isUri s.hub = true) (expiresAt : Int64) (topic challenge : String) :
    Prog.Sat (svc.replaceOld r.new r.old expiresAt topic challenge) w
      (fun _ w' => Activated (w.db.deleteSubscriptions (·.id = r.old)) r.new expiresAt w'.db ∧
        w'.timer = w.timer) fun _ _ => False := by
  obtain ⟨p, hp, hpid⟩ := Table.hasKey_iff.mp (w.db.new_references r hr)
  obtain ⟨s, hs, hsid⟩ := Table.hasKey_iff.mp (w.db.pending_references p hp)
  have hnew : s.id = r.new := hsid.trans hpid
  have hfind : w.db.subscriptions.find? r.new = some s := Table.find?_eq_some_iff.mpr ⟨hs, hnew⟩
  obtain ⟨uri, huri⟩ := hcallback r.old
  unfold Service.replaceOld
  refine Prog.sat_bind (R := fun hub w' => w = w' ∧ hub = s.hub) (sat_transaction ?_ ?_) ?_
  · intro hub db h
    rw [hfind] at h
    cases h
    exact ⟨rfl, rfl⟩
  · intro e h
    rw [hfind] at h
    cases h
  rintro hub _ ⟨rfl, rfl⟩
  refine Prog.sat_bind (R := fun _ w' => w'.db = w.db.deleteSubscriptions (·.id = r.old) ∧ w'.timer = w.timer)
    ?_ ?_
  · refine Prog.sat_bind (R := fun _ w' => w'.db = w.db.deleteSubscriptions (·.id = r.old) ∧
      w'.timer = w.timer) (sat_execute.mpr ⟨rfl, rfl⟩) fun _ w₁ h₁ => ?_
    rw [huri]
    refine Prog.sat_bind (R := fun callback w' => callback = uri ∧ w₁ = w') (Prog.sat_done.mpr ⟨rfl, rfl⟩) ?_
    rintro callback _ ⟨rfl, rfl⟩
    refine Prog.sat_ofExcept (fun _ _ => h₁) fun e he => ?_
    unfold sendRequest at he
    rw [if_pos (hhubs s hs)] at he
    cases he
  intro task w₁ h₁
  refine Prog.sat_bind (R := fun _ w' => w'.db = w.db.deleteSubscriptions (·.id = r.old) ∧ w'.timer = w.timer)
    (sat_spawn.mpr h₁) ?_
  rintro _ w₂ ⟨hdb, htimer⟩
  have hkeep : w₂.db.subscriptions.hasKey r.new = true := by
    rw [hdb]
    refine Table.hasKey_iff.mpr ⟨s, Database.mem_subscriptions_delete.mpr ⟨hs, ?_⟩, hnew⟩
    have hne : s.id ≠ r.old := by
      rw [hnew]
      exact (hw.old_ne_new hr hr).symm
    simpa using hne
  have hna : w₂.db.activeSubscriptions.hasKey r.new = false := by
    rw [hdb, Table.hasKey_eq_false_iff]
    intro a ha heq
    have hnp := hw.not_pending (Table.hasKey_of_mem (Database.mem_active_delete.mp ha).1)
    rw [heq, w.db.new_references r hr] at hnp
    cases hnp
  refine (sat_activate_activated expiresAt challenge hkeep hna).mono ?_ fun _ _ h => h
  rintro _ w₃ ⟨h₃, htimer'⟩
  rw [hdb] at h₃
  exact ⟨h₃, htimer'.trans htimer⟩

theorem refreshTime_of_le {e : Int64} (h : (svc.renewalMargin.toNat : ℤ) ≤ e.toInt) :
    ∃ tick, svc.refreshTime e.toUInt64 = .ok tick ∧ (tick.toNat : ℤ) = e.toInt - svc.renewalMargin.toNat := by
  have hpos : 0 ≤ e := by
    rw [Int64.le_iff_toInt_le]
    show (0 : ℤ) ≤ e.toInt
    omega
  obtain ⟨tick, htick, hnat⟩ := Service.Settled.tickOf_of_le h
  refine ⟨tick, ?_, hnat⟩
  unfold Service.tickOf tryIntoU64 at htick
  rwa [if_pos hpos] at htick

theorem sat_confirm_switched (hw : Coherent w.db) (hcallback : ∀ id, ∃ uri, makeCallback svc.lib svc.callback id = .ok uri)
    (hhubs : ∀ s ∈ w.db.subscriptions, svc.lib.isUri s.hub = true) {id : Int64} (topic challenge : String)
    {leaseSeconds now tick : UInt64} (hid : w.db.subscriptions.hasKey id = true)
    (hna : w.db.activeSubscriptions.hasKey id = false)
    (htick : svc.refreshTime (expiresAt now leaseSeconds).toUInt64 = .ok tick) :
    Prog.Sat (svc.confirm id topic challenge leaseSeconds now) w
      (fun _ w' => Switched w.db id (expiresAt now leaseSeconds) w'.db ∧ w'.timer = w.timer.hasten tick)
      fun _ _ => False := by
  unfold Service.confirm
  dsimp only
  rw [htick]
  refine Prog.sat_bind (R := fun t w' => tick = t ∧ w = w') (Prog.sat_done.mpr ⟨rfl, rfl⟩) ?_
  rintro _ _ ⟨rfl, rfl⟩
  refine Prog.sat_bind (R := fun _ w' => w'.db = w.db ∧ w'.timer = w.timer.hasten tick)
    (sat_onTimer.mpr ⟨rfl, rfl⟩) ?_
  rintro _ w₁ ⟨hdb, htimer⟩
  rw [← htimer, ← hdb]
  rw [← hdb] at hw hhubs hid hna
  refine Prog.sat_bind (R := fun renewing w' => w₁ = w' ∧ renewing = w₁.db.renewingSubscriptions.find? id)
    (sat_query.mpr ⟨rfl, rfl⟩) ?_
  rintro renewing _ ⟨rfl, rfl⟩
  cases hfind : w₁.db.renewingSubscriptions.find? id with
  | none =>
    refine (sat_activate_activated _ challenge hid hna).mono ?_ fun _ _ h => h
    exact fun _ _ h => ⟨.first (Table.find?_eq_none_iff.mp hfind) h.1, h.2⟩
  | some r =>
    obtain ⟨hr, rfl⟩ := Table.find?_eq_some_iff.mp hfind
    refine (sat_replaceOld_activated hw hr hcallback hhubs _ topic challenge).mono ?_ fun _ _ h => h
    exact fun _ _ h => ⟨.replaced r hr rfl h.1, h.2⟩

/-- A verification that changes anything activates the subscription and hastens the scheduler to the time of its
renewal. -/
def Extends (svc : Service) (now : UInt64) (id : Int64) (w w' : World) : Prop :=
  w' = w ∨ ∃ leaseSeconds tick, svc.renewalMargin ≤ leaseSeconds ∧ w.db.subscriptions.hasKey id = true ∧
    w.db.activeSubscriptions.hasKey id = false ∧ Switched w.db id (expiresAt now leaseSeconds) w'.db ∧
      w'.timer = w.timer.hasten tick ∧
        (tick.toNat : ℤ) = (expiresAt now leaseSeconds).toInt - svc.renewalMargin.toNat

theorem extends_verifyIntent (hw : Coherent w.db)
    (hcallback : ∀ id, ∃ uri, makeCallback svc.lib svc.callback id = .ok uri)
    (hhubs : ∀ s ∈ w.db.subscriptions, svc.lib.isUri s.hub = true) {queryString : String} {now : UInt64}
    (hclock : now.toNat + svc.renewalMargin.toNat + 1 < 2 ^ 63)
    (hlease : ∀ topic challenge leaseSeconds,
      svc.lib.parseVerify queryString = some (.subscribe topic challenge leaseSeconds) →
        svc.renewalMargin ≤ leaseSeconds) (id : Int64) :
    Extends svc now id w ((svc.verifyIntent id queryString now).run w).2 := by
  cases hparse : svc.lib.parseVerify queryString with
  | none =>
    left
    unfold Service.verifyIntent
    rw [hparse]
    rfl
  | some verify =>
    cases verify with
    | unsubscribe topic challenge =>
      left
      rw [run_verifyIntent_of_unsubscribe svc w hparse]
    | subscribe topic challenge leaseSeconds =>
      cases hun : w.db.isUnverified id topic with
      | false =>
        left
        rw [run_verifyIntent_of_not_unverified svc w hparse hun]
      | true =>
        right
        have hle := UInt64.le_iff_toNat_le.mp (hlease topic challenge leaseSeconds hparse)
        have hexpiry := toInt_expiresAt now leaseSeconds
        obtain ⟨tick, htick, hnat⟩ := @refreshTime_of_le svc (expiresAt now leaseSeconds) (by omega)
        obtain ⟨hid, hna⟩ := hasKey_of_isUnverified hun
        have hrun : (svc.verifyIntent id queryString now).run w =
            (svc.confirm id topic challenge leaseSeconds now).run w :=
          run_verifyIntent_of_unverified svc hparse hun
        obtain ⟨_, w', hconfirm, hswitched, htimer⟩ :=
          (sat_confirm_switched hw hcallback hhubs topic challenge hid hna htick).exists_ok
        rw [hrun, hconfirm]
        exact ⟨leaseSeconds, tick, UInt64.le_iff_toNat_le.mpr hle, hid, hna, hswitched, htimer, hnat⟩

end Verification

/-! ### The other operations -/

section Others

variable (svc : Service) (w : World)

/-- The operations apart from verifications and polls leave the timer alone. -/
theorem permits_timer : Permits fun w w' => w'.timer = w.timer :=
  ⟨fun _ => rfl, fun _ _ => rfl, fun _ _ _ _ _ _ _ => rfl, fun _ _ => rfl⟩

theorem subscribe_turn (draw : Draw) (hub topic : String) :
    let w' := Turn.step svc w (.perform (.subscribe draw hub topic))
    w'.timer = w.timer ∧ (w'.db = w.db ∨ ∃ id, Created w.db hub topic id draw.secret w'.db) := by
  constructor
  · exact ((permits_timer.always_subscribe svc draw hub topic).bind fun task =>
      permits_timer.removes.always_spawn task).run (fun _ => rfl) (fun _ _ _ h h' => h'.trans h) w
  · refine Prog.Sat.run (P := fun w' : World => w'.db = w.db ∨ ∃ id, Created w.db hub topic id draw.secret w'.db) ?_
    refine Prog.sat_bind ((sat_subscribe_created svc draw hub topic).mono (fun _ _ h => h) ?_) ?_
    · rintro e w' (⟨-, -, rfl⟩ | ⟨-, -, hcreated⟩)
      · exact Or.inl rfl
      · exact Or.inr hcreated
    · rintro task w' ⟨-, hcreated⟩
      exact sat_spawn.mpr (Or.inr hcreated)

/-- Whether or not the requests can be built, the subscriptions to the topic are deleted. -/
theorem unsubscribeAll_turn (order : RowOrder Subscription) (topic : String) :
    let w' := Turn.step svc w (.perform (.unsubscribeAll order topic))
    w'.db = w.db.deleteSubscriptions (·.topic = topic) ∧ w'.timer = w.timer := by
  let deleted (w' : World) : Prop := w'.db = w.db.deleteSubscriptions (·.topic = topic) ∧ w'.timer = w.timer
  refine Prog.Sat.run (P := deleted) ?_
  refine Prog.sat_bind (R := fun _ w' => w = w') (sat_query.mpr rfl) ?_
  rintro rows _ rfl
  refine Prog.sat_bind (R := fun _ => deleted) (sat_execute.mpr ⟨rfl, rfl⟩) ?_
  intro _ w₁ h₁
  refine Prog.sat_forM (R := fun _ => deleted) ?_ rows w₁ h₁
  intro s _ w₂ h₂
  refine Prog.sat_bind (R := fun _ => deleted) (Prog.sat_ofExcept (fun _ _ => h₂) fun _ _ => h₂) ?_
  intro callback w₃ h₃
  refine Prog.sat_bind (R := fun _ => deleted) (Prog.sat_ofExcept (fun _ _ => h₃) fun _ _ => h₃) ?_
  exact fun task w₄ h₄ => sat_spawn.mpr h₄

end Others

/-! ### The clock -/

/-- The subscriber under a clock in whole seconds. `begun` says of a subscription that renews another when it
has been created. -/
structure Timed where
  world : World
  now : UInt64
  begun : Int64 → ℕ

inductive TimedEvent
  | advance (now : UInt64)
  | subscribe (draw : Draw) (hub topic : String)
  | verifyIntent (id : Int64) (queryString : String)
  | unsubscribeAll (order : RowOrder Subscription) (topic : String)
  | poll (order : RowOrder Subscription) (draws : ℕ → Draw)

namespace Timed

def start (db : Database) (timer : Timer) (now : UInt64) : Timed := ⟨⟨db, timer, []⟩, now, fun _ => 0⟩

/-- After a turn of the subscriber: the timer rings if its deadline has passed. -/
def after (s : Timed) (world : World) : Timed where
  world := { world with timer := world.timer.ring s.now }
  now := s.now
  begun id := if s.world.db.renewingSubscriptions.hasKey id then s.begun id else s.now.toNat

def step (svc : Service) (s : Timed) : TimedEvent → Timed
  | .advance now =>
    { s with
      world := { s.world with timer := s.world.timer.ring (max s.now now) }
      now := max s.now now }
  | .subscribe draw hub topic => s.after (Turn.step svc s.world (.perform (.subscribe draw hub topic)))
  | .verifyIntent id queryString => s.after (Turn.step svc s.world (.perform (.verifyIntent id queryString s.now)))
  | .unsubscribeAll order topic => s.after (Turn.step svc s.world (.perform (.unsubscribeAll order topic)))
  | .poll order draws => s.after (Turn.step svc s.world (.poll s.now order draws))

/-- At the time `now` the scheduler is at most `lag` seconds behind its tick and the hubs at most `delay` seconds
behind the renewals, and the clock is not near its end. -/
structure Punctual (svc : Service) (lag delay : ℕ) (s : Timed) (now : UInt64) : Prop where
  polled : now.toNat ≤ s.world.timer.nextTick.toNat + lag
  answered : ∀ r ∈ s.world.db.renewingSubscriptions, now.toNat ≤ s.begun r.new + delay
  clock : now.toNat + svc.renewalMargin.toNat + 1 < 2 ^ 63

/-- What the surroundings of the subscriber keep to: they are punctual, the hubs are URIs and grant no lease that
is shorter than the margin, and the random numbers offer more ids than there can be rows. -/
def Allowed (svc : Service) (lag delay : ℕ) (s : Timed) : TimedEvent → Prop
  | .advance now => s.Punctual svc lag delay now
  | .subscribe _ hub _ => svc.lib.isUri hub = true
  | .verifyIntent _ queryString => ∀ topic challenge leaseSeconds,
      svc.lib.parseVerify queryString = some (.subscribe topic challenge leaseSeconds) →
        svc.renewalMargin ≤ leaseSeconds
  | .unsubscribeAll _ _ => True
  | .poll _ draws => ∀ i, 2 * s.world.db.subscriptions.rows.length ≤ (draws i).distinct

/-- The invariant: a subscription is renewed at most `lag` seconds later than the margin asks for. -/
structure Timely (svc : Service) (lag delay : ℕ) (s : Timed) : Prop where
  coherent : Coherent s.world.db
  hubs : ∀ x ∈ s.world.db.subscriptions, svc.lib.isUri x.hub = true
  timer : s.world.timer.Sound s.now
  instant : s.world.timer.nextTick ≠ Timer.never → s.world.timer.nextTick.toNat < 2 ^ 63
  punctual : s.Punctual svc lag delay s.now
  covered : ∀ a ∈ s.world.db.activeSubscriptions, (∀ r ∈ s.world.db.renewingSubscriptions, r.old ≠ a.id) →
    (s.world.timer.nextTick.toNat : ℤ) + svc.renewalMargin.toNat ≤ a.expiresAt.toInt
  in_time : ∀ r ∈ s.world.db.renewingSubscriptions, ∀ a ∈ s.world.db.activeSubscriptions, a.id = r.old →
    (s.begun r.new : ℤ) + svc.renewalMargin.toNat ≤ a.expiresAt.toInt + lag

theorem Timely.not_lapsed {svc : Service} {lag delay : ℕ} {s : Timed} (h : s.Timely svc lag delay)
    (hmargin : lag + delay < svc.renewalMargin.toNat) {a : ActiveSubscription}
    (ha : a ∈ s.world.db.activeSubscriptions) : (s.now.toNat : ℤ) < a.expiresAt.toInt := by
  by_cases hidle : ∀ r ∈ s.world.db.renewingSubscriptions, r.old ≠ a.id
  · have hcovered := h.covered a ha hidle
    have hpolled := h.punctual.polled
    omega
  · push Not at hidle
    obtain ⟨r, hr, hold⟩ := hidle
    have hbegun := h.in_time r hr a ha hold.symm
    have hanswered := h.punctual.answered r hr
    omega

/-! ### The steps -/

section Steps

variable {svc : Service} {lag delay : ℕ} {s : Timed}

theorem Timely.advance (h : s.Timely svc lag delay) {now : UInt64} (hpunctual : s.Punctual svc lag delay now) :
    (s.step svc (.advance now)).Timely svc lag delay := by
  have hmax : s.Punctual svc lag delay (max s.now now) := by
    rw [UInt64.max_def]
    split
    · exact hpunctual
    · exact h.punctual
  refine ⟨h.coherent, h.hubs, ?_, h.instant, ⟨hmax.polled, hmax.answered, hmax.clock⟩, h.covered, h.in_time⟩
  exact Timer.sound_ring h.timer.late h.timer.below (fun hasleep => (h.timer.asleep hasleep).1) _

theorem begun_after (s : Timed) (w : World) {r : RenewingSubscription}
    (hr : r ∈ s.world.db.renewingSubscriptions) : (s.after w).begun r.new = s.begun r.new :=
  if_pos (Table.hasKey_of_mem hr)

/-- A turn after which the scheduler and the renewals that are begun are in time. -/
theorem Timely.of_turn (h : s.Timely svc lag delay) {w : World} (hcoherent : Coherent w.db)
    (hhubs : ∀ x ∈ w.db.subscriptions, svc.lib.isUri x.hub = true) (hsound : (w.timer.ring s.now).Sound s.now)
    (hinstant : w.timer.nextTick ≠ Timer.never → w.timer.nextTick.toNat < 2 ^ 63)
    (hpolled : s.now.toNat ≤ w.timer.nextTick.toNat + lag)
    (hcovered : ∀ a ∈ w.db.activeSubscriptions, (∀ r ∈ w.db.renewingSubscriptions, r.old ≠ a.id) →
      (w.timer.nextTick.toNat : ℤ) + svc.renewalMargin.toNat ≤ a.expiresAt.toInt)
    (hrenewing : ∀ r ∈ w.db.renewingSubscriptions,
      (r ∈ s.world.db.renewingSubscriptions ∧
        ∀ a ∈ w.db.activeSubscriptions, a.id = r.old → a ∈ s.world.db.activeSubscriptions) ∨
      (s.world.db.renewingSubscriptions.hasKey r.new = false ∧ ∀ a ∈ w.db.activeSubscriptions, a.id = r.old →
        (s.now.toNat : ℤ) + svc.renewalMargin.toNat ≤ a.expiresAt.toInt + lag)) :
    (s.after w).Timely svc lag delay := by
  have hnew : ∀ {id}, s.world.db.renewingSubscriptions.hasKey id = false → (s.after w).begun id = s.now.toNat := by
    intro id hid
    exact if_neg (by rw [hid]; decide)
  refine ⟨hcoherent, hhubs, hsound, hinstant, ⟨hpolled, ?_, h.punctual.clock⟩, hcovered, ?_⟩
  · intro r hr
    rcases hrenewing r hr with ⟨hold, -⟩ | ⟨hid, -⟩
    · rw [begun_after s w hold]
      exact h.punctual.answered r hold
    · rw [hnew hid]
      exact Nat.le_add_right _ _
  · intro r hr a ha hid
    rcases hrenewing r hr with ⟨hold, hactive⟩ | ⟨hnone, hearly⟩
    · rw [begun_after s w hold]
      exact h.in_time r hold a (hactive a ha hid) hid
    · rw [hnew hnone]
      exact hearly a ha hid

/-- One that begins no renewal and ends none of a subscription that stays, and of which what it activates, if
anything, has hastened the scheduler. -/
theorem Timely.of_fewer (h : s.Timely svc lag delay) {w : World} (hcoherent : Coherent w.db)
    (hhubs : ∀ x ∈ w.db.subscriptions, svc.lib.isUri x.hub = true) (hsound : w.timer.Sound s.now)
    (hinstant : w.timer.nextTick ≠ Timer.never → w.timer.nextTick.toNat < 2 ^ 63)
    (hpolled : s.now.toNat ≤ w.timer.nextTick.toNat + lag)
    (hnext : w.timer.nextTick.toNat ≤ s.world.timer.nextTick.toNat)
    (hactive : ∀ a ∈ w.db.activeSubscriptions, a ∈ s.world.db.activeSubscriptions ∨
      (∀ r ∈ s.world.db.renewingSubscriptions, r.old ≠ a.id) ∧
        (w.timer.nextTick.toNat : ℤ) + svc.renewalMargin.toNat ≤ a.expiresAt.toInt)
    (hrenewing : ∀ r ∈ w.db.renewingSubscriptions, r ∈ s.world.db.renewingSubscriptions)
    (hkept : ∀ r ∈ s.world.db.renewingSubscriptions, ∀ a ∈ w.db.activeSubscriptions, r.old = a.id →
      r ∈ w.db.renewingSubscriptions) : (s.after w).Timely svc lag delay := by
  refine h.of_turn hcoherent hhubs ?_ hinstant hpolled ?_ ?_
  · exact Timer.sound_ring hsound.late hsound.below (fun hasleep => (hsound.asleep hasleep).1) _
  · intro a ha hidle
    rcases hactive a ha with hold | ⟨-, hearly⟩
    · have hcovered := h.covered a hold fun r hr hid => hidle r (hkept r hr a ha hid) hid
      omega
    · exact hearly
  · intro r hr
    refine Or.inl ⟨hrenewing r hr, fun a ha hid => ?_⟩
    exact (hactive a ha).resolve_right fun hnew => hnew.1 r (hrenewing r hr) hid.symm

theorem Timely.of_timer (h : s.Timely svc lag delay) {w : World} (htimer : w.timer = s.world.timer)
    (hcoherent : Coherent w.db) (hhubs : ∀ x ∈ w.db.subscriptions, svc.lib.isUri x.hub = true)
    (hactive : ∀ a ∈ w.db.activeSubscriptions, a ∈ s.world.db.activeSubscriptions)
    (hrenewing : ∀ r ∈ w.db.renewingSubscriptions, r ∈ s.world.db.renewingSubscriptions)
    (hkept : ∀ r ∈ s.world.db.renewingSubscriptions, ∀ a ∈ w.db.activeSubscriptions, r.old = a.id →
      r ∈ w.db.renewingSubscriptions) : (s.after w).Timely svc lag delay := by
  refine h.of_fewer hcoherent hhubs ?_ ?_ ?_ ?_ (fun a ha => Or.inl (hactive a ha)) hrenewing hkept
  · rw [htimer]
    exact h.timer
  · rw [htimer]
    exact h.instant
  · rw [htimer]
    exact h.punctual.polled
  · rw [htimer]

theorem Timely.subscribe (h : s.Timely svc lag delay) (draw : Draw) {hub : String} (topic : String)
    (hhub : svc.lib.isUri hub = true) : (s.step svc (.subscribe draw hub topic)).Timely svc lag delay := by
  obtain ⟨htimer, hdb | ⟨id, hcreated⟩⟩ := subscribe_turn svc s.world draw hub topic
  · refine h.of_timer htimer ?_ ?_ (fun a ha => hdb ▸ ha) (fun r hr => hdb ▸ hr) fun r hr _ _ _ => hdb ▸ hr
    · rw [hdb]
      exact h.coherent
    · rw [hdb]
      exact h.hubs
  · refine h.of_timer htimer (hcreated.coherent h.coherent) ?_ (fun a ha => hcreated.active ▸ ha)
      (fun r hr => hcreated.renewing ▸ hr) fun r hr _ _ _ => hcreated.renewing ▸ hr
    intro x hx
    rcases hcreated.mem.mp hx with hx | rfl
    · exact h.hubs x hx
    · exact hhub

theorem Timely.unsubscribeAll (h : s.Timely svc lag delay) (order : RowOrder Subscription) (topic : String) :
    (s.step svc (.unsubscribeAll order topic)).Timely svc lag delay := by
  obtain ⟨hdb, htimer⟩ := unsubscribeAll_turn svc s.world order topic
  refine h.of_timer htimer ?_ ?_ ?_ ?_ ?_
  · rw [hdb]
    exact h.coherent.deleteSubscriptions _
  · rw [hdb]
    exact fun x hx => h.hubs x (Database.mem_subscriptions_delete.mp hx).1
  · rw [hdb]
    exact fun a ha => (Database.mem_active_delete.mp ha).1
  · rw [hdb]
    exact fun r hr => (Database.mem_renewing_delete.mp hr).1
  · rw [hdb]
    intro r hr a ha hid
    obtain ⟨old, hold, new, hnew, hoid, hnid, -, htopic⟩ := h.coherent.same_feed r hr
    have hkept : s.world.db.deletedIds (·.topic = topic) r.old = false := by
      rw [hid]
      exact (Database.mem_active_delete.mp ha).2
    refine Database.mem_renewing_delete.mpr ⟨hr, hkept, ?_⟩
    rw [← hoid, Database.deletedIds_of_mem hold] at hkept
    rw [← hnid, Database.deletedIds_of_mem hnew, ← htopic]
    exact hkept

theorem switched_cases {db db' : Database} {id expiresAt : Int64} (h : Switched db id expiresAt db')
    (hw : Coherent db) (hna : db.activeSubscriptions.hasKey id = false) :
    (∀ x ∈ db'.subscriptions, x ∈ db.subscriptions) ∧
      (∀ a ∈ db'.activeSubscriptions, a ∈ db.activeSubscriptions ∨ a = ⟨id, expiresAt⟩) ∧
        (∀ r ∈ db'.renewingSubscriptions, r ∈ db.renewingSubscriptions) ∧
          ∀ r ∈ db.renewingSubscriptions, ∀ a ∈ db'.activeSubscriptions, r.old = a.id →
            r ∈ db'.renewingSubscriptions := by
  have hnew : ∀ r ∈ db.renewingSubscriptions, r.old ≠ id := by
    intro r hr hold
    have hactive := db.old_references r hr
    rw [hold, hna] at hactive
    cases hactive
  cases h with
  | first hnone h =>
    refine ⟨fun x hx => h.subscriptions ▸ hx, fun a ha => (Table.mem_of_insert h.active).mp ha, ?_, ?_⟩
    · intro r hr
      rw [h.renewing] at hr
      exact (Table.mem_filter.mp hr).1
    · intro r hr a _ _
      rw [h.renewing]
      refine Table.mem_filter.mpr ⟨hr, ?_⟩
      have hne := Table.hasKey_eq_false_iff.mp hnone r hr
      simpa using hne
  | replaced r₀ hr₀ hid h =>
    refine ⟨?_, ?_, ?_, ?_⟩
    · intro x hx
      rw [h.subscriptions] at hx
      exact (Database.mem_subscriptions_delete.mp hx).1
    · intro a ha
      rcases (Table.mem_of_insert h.active).mp ha with hold | rfl
      · exact Or.inl (Database.mem_active_delete.mp hold).1
      · exact Or.inr rfl
    · intro r hr
      rw [h.renewing] at hr
      exact (Database.mem_renewing_delete.mp (Table.mem_filter.mp hr).1).1
    · intro r hr a ha hold
      obtain ⟨o, ho, n, hn, hoid, hnid, -⟩ := hw.same_feed r hr
      have hne : r.old ≠ r₀.old := by
        rcases (Table.mem_of_insert h.active).mp ha with hkept | rfl
        · intro heq
          have hgone := (Database.mem_active_delete.mp hkept).2
          rw [← hold, ← hoid, Database.deletedIds_of_mem ho, hoid, heq] at hgone
          simp at hgone
        · exact absurd hold (hnew r hr)
      rw [h.renewing]
      refine Table.mem_filter.mpr ⟨Database.mem_renewing_delete.mpr ⟨hr, ?_, ?_⟩, ?_⟩
      · rw [← hoid, Database.deletedIds_of_mem ho, hoid]
        simpa using hne
      · rw [← hnid, Database.deletedIds_of_mem hn, hnid]
        simpa using (hw.old_ne_new hr₀ hr).symm
      · have hnot : r.new ≠ id := by
          rintro heq
          exact hne (congrArg RenewingSubscription.old (Table.eq_of_key_eq hr hr₀ (heq.trans hid.symm)))
        simpa using hnot

theorem Timely.verifyIntent (h : s.Timely svc lag delay)
    (hcallback : ∀ id, ∃ uri, makeCallback svc.lib svc.callback id = .ok uri) (id : Int64) {queryString : String}
    (hlease : ∀ topic challenge leaseSeconds,
      svc.lib.parseVerify queryString = some (.subscribe topic challenge leaseSeconds) →
        svc.renewalMargin ≤ leaseSeconds) :
    (s.step svc (.verifyIntent id queryString)).Timely svc lag delay := by
  let op : Op := .verifyIntent id queryString s.now
  have hcoherent : Coherent (op.step svc s.world).db := Op.step_coherent svc op h.coherent
  have hextends := extends_verifyIntent h.coherent hcallback h.hubs h.punctual.clock hlease id
  have hrun : op.step svc s.world = ((svc.verifyIntent id queryString s.now).run s.world).2 :=
    Op.run_verifyIntent svc s.world id queryString s.now
  rw [← hrun] at hextends
  show (s.after (op.step svc s.world)).Timely svc lag delay
  rcases hextends with hsame | ⟨leaseSeconds, tick, hle, hid, hna, hswitched, htimer, htick⟩
  · rw [hsame]
    exact h.of_timer rfl h.coherent h.hubs (fun _ ha => ha) (fun _ hr => hr) fun r hr _ _ _ => hr
  · obtain ⟨hrows, hactive, hrenewing, hkept⟩ := switched_cases hswitched h.coherent hna
    have hmin : (op.step svc s.world).timer.nextTick = min s.world.timer.nextTick tick :=
      congrArg Timer.nextTick htimer
    have hexpiry := toInt_expiresAt s.now leaseSeconds
    have hclock := h.punctual.clock
    have hpolled := h.punctual.polled
    rw [UInt64.le_iff_toNat_le] at hle
    have hcases : (op.step svc s.world).timer.nextTick = s.world.timer.nextTick ∧
          s.world.timer.nextTick.toNat ≤ tick.toNat ∨
        (op.step svc s.world).timer.nextTick = tick ∧ tick.toNat ≤ s.world.timer.nextTick.toNat := by
      rw [hmin, UInt64.min_def]
      split
      · rename_i hfirst
        exact Or.inl ⟨rfl, UInt64.le_iff_toNat_le.mp hfirst⟩
      · rename_i hlater
        exact Or.inr ⟨rfl, (UInt64.lt_iff_toNat_lt.mp (UInt64.not_le.mp hlater)).le⟩
    refine h.of_fewer hcoherent (fun x hx => h.hubs x (hrows x hx)) ?_ ?_ ?_ ?_ ?_ hrenewing hkept
    · rw [htimer]
      exact h.timer.hasten tick
    · intro hne
      rcases hcases with ⟨heq, -⟩ | ⟨heq, -⟩
      · rw [heq] at hne ⊢
        exact h.instant hne
      · rw [heq]
        omega
    · rcases hcases with ⟨heq, -⟩ | ⟨heq, -⟩
      · rw [heq]
        exact hpolled
      · rw [heq]
        omega
    · rcases hcases with ⟨heq, -⟩ | ⟨heq, hfirst⟩
      · rw [heq]
      · rw [heq]
        exact hfirst
    · intro a ha
      rcases hactive a ha with hold | rfl
      · exact Or.inl hold
      · refine Or.inr ⟨fun r hr hold => ?_, ?_⟩
        · have hold' := s.world.db.old_references r hr
          rw [hold, hna] at hold'
          cases hold'
        · show ((op.step svc s.world).timer.nextTick.toNat : ℤ) + svc.renewalMargin.toNat ≤
            (expiresAt s.now leaseSeconds).toInt
          rcases hcases with ⟨heq, hfirst⟩ | ⟨heq, -⟩
          · rw [heq]
            omega
          · rw [heq]
            omega

theorem Timely.decodes (h : s.Timely svc lag delay) (boot : UInt64) : s.world.timer.Decodes boot s.now := by
  intro tick htick
  unfold Timer.tick? at htick
  split at htick
  · rename_i hne
    obtain rfl := Option.some.inj htick
    exact isInstant_of_lt (h.instant hne)
  · cases htick

theorem Timely.poll_early (h : s.Timely svc lag delay) : (s.after s.world.armed).Timely svc lag delay := by
  have hnext : s.world.armed.timer.nextTick = s.world.timer.nextTick := Timer.nextTick_armed _
  refine h.of_turn h.coherent h.hubs (Timer.sound_ring_of_delay h.timer.delay_asleep_armed s.now) ?_ ?_ ?_ ?_
  · rw [hnext]
    exact h.instant
  · rw [hnext]
    exact h.punctual.polled
  · rw [hnext]
    exact h.covered
  · exact fun r hr => Or.inl ⟨hr, fun a ha _ => ha⟩

theorem Timely.fire (h : s.Timely svc lag delay) {w : World} {tick? : Option UInt64}
    {renewals : List (Subscription × Subscription)} (hcoherent : Coherent w.db)
    (hmade : Renewals s.world.db w.db renewals)
    (hdue : ∀ x ∈ renewals.map Prod.fst, x ∈ s.world.db.subscriptions ∧ svc.Due s.world.db s.now x)
    (hnext : svc.NextTick w.db s.now tick?)
    (htimer : w.timer.nextTick = tick?.getD Timer.never ∧ w.timer.delay = tick?) :
    (s.after w).Timely svc lag delay := by
  have hclock := h.punctual.clock
  have hbelow := hnext.toNat_lt
  have hnever : Timer.never.toNat = 2 ^ 64 - 1 := rfl
  obtain ⟨htick, hdelay⟩ := htimer
  refine h.of_turn hcoherent ?_ (Timer.sound_ring_of_delay ?_ s.now) ?_ ?_ ?_ ?_
  · intro x hx
    rw [Table.mem_def, hmade.subscriptions] at hx
    rcases List.mem_append.mp hx with hx | hx
    · exact h.hubs x hx
    · obtain ⟨p, hp, rfl⟩ := List.mem_map.mp hx
      rw [(hmade.same_feed p hp).1]
      exact h.hubs p.1 (hdue p.1 (List.mem_map_of_mem hp)).1
  · unfold Timer.tick?
    rw [htick, hdelay]
    cases htick? : tick? with
    | none => rfl
    | some tick =>
      have hlt := hbelow tick htick?
      exact (if_pos fun heq => by rw [Option.getD_some] at heq; rw [heq, hnever] at hlt; omega).symm
  · rw [htick]
    intro hne
    cases htick? : tick? with
    | none =>
      rw [htick?] at hne
      exact absurd rfl hne
    | some tick => exact hbelow tick htick?
  · rw [htick]
    cases htick? : tick? with
    | none =>
      rw [Option.getD_none]
      omega
    | some tick =>
      have hlater := hnext.later tick htick?
      rw [Option.getD_some]
      omega
  · intro a ha hidle
    rw [htick]
    cases htick? : tick? with
    | none =>
      obtain ⟨r, hr, hold⟩ := hnext.none_iff.mp htick? a ha
      exact absurd hold (hidle r hr)
    | some tick =>
      have hleast := hnext.least tick htick? a ha hidle
      rw [Option.getD_some]
      omega
  · intro r hr
    rw [Table.mem_def, hmade.renewing] at hr
    rcases List.mem_append.mp hr with hr | hr
    · exact Or.inl ⟨hr, fun a ha _ => hmade.active ▸ ha⟩
    · obtain ⟨p, hp, rfl⟩ := List.mem_map.mp hr
      refine Or.inr ⟨not_new_of_fresh (hmade.fresh p hp), fun a ha hid => ?_⟩
      rw [hmade.active] at ha
      obtain ⟨-, b, hb, hbid, -, hidle⟩ := hdue p.1 (List.mem_map_of_mem hp)
      obtain rfl : a = b := Table.eq_of_key_eq ha hb (hid.trans hbid.symm)
      have hcovered := h.covered a ha hidle
      have hpolled := h.punctual.polled
      omega

/-- What a firing does: it renews what is due and computes the next tick. -/
theorem exists_firing {w : World} (hw : Coherent w.db) {now : UInt64}
    (hnow : now.toNat + svc.renewalMargin.toNat + 1 < 2 ^ 63)
    (hcallback : ∀ id, ∃ uri, makeCallback svc.lib svc.callback id = .ok uri)
    (hhubs : ∀ x ∈ w.db.subscriptions, svc.lib.isUri x.hub = true) (order : RowOrder Subscription)
    {draws : ℕ → Draw} (hdraws : ∀ i, 2 * w.db.subscriptions.rows.length ≤ (draws i).distinct) :
    ∃ tick? w' renewals, (svc.getNextTick now order draws).run w = (.ok tick?, w') ∧ Coherent w'.db ∧
      Renewals w.db w'.db renewals ∧
        (∀ x ∈ renewals.map Prod.fst, x ∈ w.db.subscriptions ∧ svc.Due w.db now x) ∧
          svc.NextTick w'.db now tick? := by
  obtain ⟨threshold, hthreshold⟩ := exists_threshold_of_lt hnow
  have hexpiring : ∀ x, x ∈ w.db.subscriptions.rows.filter (w.db.isExpiring threshold) ↔
      x ∈ w.db.subscriptions ∧ svc.Due w.db now x := by
    intro x
    rw [List.mem_filter, isExpiring_iff_due hnow hthreshold]
    rfl
  have heach := (sat_renewSubscriptions_each hw hthreshold order draws hcallback
    (fun x hx => hhubs x ((hexpiring x).mp hx).1) hdraws).and (sat_renewSubscriptions svc hw now order draws)
  obtain ⟨_, w', hrun, ⟨⟨renewals, hmade, hfst⟩, -⟩, hcoherent⟩ :=
    (heach.mono (fun _ _ h => h) fun _ _ h => h.1).exists_ok
  have hmem : ∀ x, x ∈ renewals.map Prod.fst ↔ x ∈ w.db.subscriptions ∧ svc.Due w.db now x := by
    intro x
    rw [hfst, order.mem_apply]
    exact hexpiring x
  have hsettled : svc.Settled w'.db now := hmade.settled fun x hx hdue => (hmem x).mpr ⟨hx, hdue⟩
  obtain ⟨tick?, htick, hnext⟩ := hsettled.nextTick
  exact ⟨tick?, w', renewals, run_getNextTick hrun htick, hcoherent, hmade, fun x hx => (hmem x).mp hx, hnext⟩

theorem Timely.poll_cases (h : s.Timely svc lag delay)
    (hcallback : ∀ id, ∃ uri, makeCallback svc.lib svc.callback id = .ok uri) (order : RowOrder Subscription)
    {draws : ℕ → Draw} (hdraws : ∀ i, 2 * s.world.db.subscriptions.rows.length ≤ (draws i).distinct) :
    let w' := Turn.step svc s.world (.poll s.now order draws)
    w' = s.world.armed ∨ ∃ tick? renewals, Coherent w'.db ∧ Renewals s.world.db w'.db renewals ∧
      (∀ x ∈ renewals.map Prod.fst, x ∈ s.world.db.subscriptions ∧ svc.Due s.world.db s.now x) ∧
        svc.NextTick w'.db s.now tick? ∧
          w'.timer.nextTick = tick?.getD Timer.never ∧ w'.timer.delay = tick? := by
  intro w'
  have hrun := h.timer.run_poll (svc.getNextTick s.now order draws) (h.decodes svc.boot)
  have hworld : w' = ((Scheduler.poll svc.boot (svc.getNextTick s.now order draws) s.now).run s.world).2 := rfl
  by_cases hdue : Timer.time s.world.timer.nextTick ≤ s.now.toNat
  · right
    obtain ⟨tick?, w₁, renewals, hfiring, hcoherent, hmade, hrenewals, hnext⟩ :=
      exists_firing (w := s.world.armed) h.coherent h.punctual.clock hcallback h.hubs order hdraws
    rw [if_pos hdue, Prog.run_bind, hfiring] at hrun
    dsimp only at hrun
    rw [run_rearm fun tick htick => isInstant_of_lt (hnext.toNat_lt tick htick)] at hrun
    rw [hworld, hrun]
    exact ⟨tick?, renewals, hcoherent, hmade, hrenewals, hnext, rfl, rfl⟩
  · left
    rw [if_neg hdue] at hrun
    rw [hworld, hrun]

theorem Timely.step (h : s.Timely svc lag delay)
    (hcallback : ∀ id, ∃ uri, makeCallback svc.lib svc.callback id = .ok uri) {event : TimedEvent}
    (hallowed : s.Allowed svc lag delay event) : (s.step svc event).Timely svc lag delay := by
  cases event with
  | advance now => exact h.advance hallowed
  | subscribe draw hub topic => exact h.subscribe draw topic hallowed
  | verifyIntent id queryString => exact h.verifyIntent hcallback id hallowed
  | unsubscribeAll order topic => exact h.unsubscribeAll order topic
  | poll order draws =>
    rcases h.poll_cases hcallback order hallowed with hearly | ⟨tick?, renewals, hcoherent, hmade, hdue, hnext, htimer⟩
    · show (s.after (Turn.step svc s.world (.poll s.now order draws))).Timely svc lag delay
      rw [hearly]
      exact h.poll_early
    · exact h.fire hcoherent hmade hdue hnext htimer

end Steps

/-! ### The start -/

/-- The tables that the subscriber starts with: what is active is not renewed, and the time for its renewal has
not passed for long. -/
structure Starts (svc : Service) (lag : ℕ) (db : Database) (now : UInt64) : Prop where
  coherent : Coherent db
  hubs : ∀ x ∈ db.subscriptions, svc.lib.isUri x.hub = true
  idle : ∀ r, r ∉ db.renewingSubscriptions
  clock : now.toNat + svc.renewalMargin.toNat + 1 < 2 ^ 63
  early : ∀ a ∈ db.activeSubscriptions, (svc.renewalMargin.toNat : ℤ) ≤ a.expiresAt.toInt ∧
    (now.toNat : ℤ) + svc.renewalMargin.toNat ≤ a.expiresAt.toInt + lag

theorem Starts.nextTick {svc : Service} {lag : ℕ} {db : Database} {timer : Timer} {now : UInt64}
    (h : Starts svc lag db now) (htimer : svc.newTimer now db = .ok timer) :
    now.toNat ≤ timer.nextTick.toNat + lag ∧ (timer.nextTick ≠ Timer.never → timer.nextTick.toNat < 2 ^ 63) ∧
      ∀ a ∈ db.activeSubscriptions,
        (timer.nextTick.toNat : ℤ) + svc.renewalMargin.toNat ≤ a.expiresAt.toInt := by
  have hclock := h.clock
  unfold Service.newTimer at htimer
  cases hfirst : db.firstExpiry with
  | none =>
    rw [hfirst] at htimer
    obtain rfl := Timer.spawn_eq_ok htimer
    have hempty := List.map_eq_nil_iff.mp (List.min?_eq_none_iff.mp hfirst)
    refine ⟨?_, fun hne => absurd rfl hne, ?_⟩
    · show now.toNat ≤ Timer.never.toNat + lag
      have hnever : Timer.never.toNat = 2 ^ 64 - 1 := rfl
      omega
    · intro a ha
      rw [Table.mem_def, hempty] at ha
      cases ha
  | some e =>
    obtain ⟨hmem, hleast⟩ := List.min?_eq_some_iff.mp hfirst
    obtain ⟨a, ha, rfl⟩ := List.mem_map.mp hmem
    obtain ⟨hle, hearly⟩ := h.early a ha
    obtain ⟨tick, htick, hnat⟩ := Service.Settled.tickOf_of_le hle
    rw [hfirst] at htimer
    unfold Service.tickOf? at htimer
    dsimp only at htimer
    rw [htick] at htimer
    obtain rfl := Timer.spawn_eq_ok htimer
    have hmax := a.expiresAt.toInt_lt
    show now.toNat ≤ tick.toNat + lag ∧ (tick ≠ Timer.never → tick.toNat < 2 ^ 63) ∧
      ∀ a ∈ db.activeSubscriptions, (tick.toNat : ℤ) + svc.renewalMargin.toNat ≤ a.expiresAt.toInt
    refine ⟨by omega, fun _ => by omega, fun b hb => ?_⟩
    have hfirst := hleast b.expiresAt (List.mem_map_of_mem hb)
    rw [Int64.le_iff_toInt_le] at hfirst
    omega

theorem Starts.timely {svc : Service} {lag delay : ℕ} {db : Database} {timer : Timer} {now : UInt64}
    (h : Starts svc lag db now) (htimer : svc.newTimer now db = .ok timer) :
    (start db timer now).Timely svc lag delay := by
  obtain ⟨hpolled, hinstant, hcovered⟩ := h.nextTick htimer
  refine ⟨h.coherent, h.hubs, ?_, hinstant, ⟨hpolled, fun r hr => absurd hr (h.idle r), h.clock⟩,
    fun a ha _ => hcovered a ha, fun r hr => absurd hr (h.idle r)⟩
  unfold Service.newTimer at htimer
  split at htimer
  · obtain rfl := Timer.spawn_eq_ok htimer
    exact Timer.sound_new _ now
  · cases htimer

/-! ### Feeds that are subscribed to -/

/-- There is an active subscription at the hub to the topic. -/
def Follows (db : Database) (hub topic : String) : Prop :=
  ∃ x ∈ db.subscriptions, x.hub = hub ∧ x.topic = topic ∧ ∃ a ∈ db.activeSubscriptions, a.id = x.id

theorem follows_of_subset {db db' : Database} {hub topic : String} (h : Follows db hub topic)
    (hrows : ∀ x ∈ db.subscriptions, x ∈ db'.subscriptions)
    (hactive : db'.activeSubscriptions = db.activeSubscriptions) : Follows db' hub topic := by
  obtain ⟨x, hx, hhub, htopic, a, ha, hid⟩ := h
  exact ⟨x, hrows x hx, hhub, htopic, a, hactive ▸ ha, hid⟩

theorem follows_of_switched {db db' : Database} {id expiresAt : Int64} (h : Switched db id expiresAt db')
    (hw : Coherent db) {hub topic : String} (hfollows : Follows db hub topic) : Follows db' hub topic := by
  obtain ⟨x, hx, hhub, htopic, a, ha, hid⟩ := hfollows
  cases h with
  | first hnone h =>
    exact ⟨x, h.subscriptions ▸ hx, hhub, htopic, a, (Table.mem_of_insert h.active).mpr (Or.inl ha), hid⟩
  | replaced r hr hnew h =>
    obtain ⟨old, hold, new, hmem, hoid, hnid, hsamehub, hsametopic⟩ := hw.same_feed r hr
    by_cases heq : x.id = r.old
    · obtain rfl : x = old := Table.eq_of_key_eq hx hold (heq.trans hoid.symm)
      have hne : new.id ≠ r.old := by
        rw [hnid]
        exact (hw.old_ne_new hr hr).symm
      refine ⟨new, ?_, hsamehub ▸ hhub, hsametopic ▸ htopic, ⟨id, expiresAt⟩,
        (Table.mem_of_insert h.active).mpr (Or.inr rfl), hnew.symm.trans hnid.symm⟩
      rw [h.subscriptions]
      exact Database.mem_subscriptions_delete.mpr ⟨hmem, by simpa using hne⟩
    · refine ⟨x, ?_, hhub, htopic, a, (Table.mem_of_insert h.active).mpr (Or.inl ?_), hid⟩
      · rw [h.subscriptions]
        exact Database.mem_subscriptions_delete.mpr ⟨hx, by simpa using heq⟩
      · refine Database.mem_active_delete.mpr ⟨ha, ?_⟩
        rw [hid, Database.deletedIds_of_mem hx]
        simpa using heq

theorem Timely.follows_step {svc : Service} {lag delay : ℕ} {s : Timed} (h : s.Timely svc lag delay)
    (hcallback : ∀ id, ∃ uri, makeCallback svc.lib svc.callback id = .ok uri) {event : TimedEvent}
    (hallowed : s.Allowed svc lag delay event) {hub topic : String} (hkept : ∀ order, event ≠ .unsubscribeAll order topic)
    (hfollows : Follows s.world.db hub topic) : Follows (s.step svc event).world.db hub topic := by
  cases event with
  | advance now => exact hfollows
  | subscribe draw hub' topic' =>
    obtain ⟨-, hdb | ⟨id, hcreated⟩⟩ := subscribe_turn svc s.world draw hub' topic'
    · show Follows (Turn.step svc s.world (.perform (.subscribe draw hub' topic'))).db hub topic
      rw [hdb]
      exact hfollows
    · exact follows_of_subset hfollows (fun x hx => hcreated.mem.mpr (Or.inl hx)) hcreated.active
  | verifyIntent id queryString =>
    let op : Op := .verifyIntent id queryString s.now
    have hextends := extends_verifyIntent h.coherent hcallback h.hubs h.punctual.clock hallowed id
    have hrun : op.step svc s.world = ((svc.verifyIntent id queryString s.now).run s.world).2 :=
      Op.run_verifyIntent svc s.world id queryString s.now
    rw [← hrun] at hextends
    show Follows (op.step svc s.world).db hub topic
    rcases hextends with hsame | ⟨leaseSeconds, tick, -, -, -, hswitched, -⟩
    · rw [hsame]
      exact hfollows
    · exact follows_of_switched hswitched h.coherent hfollows
  | unsubscribeAll order topic' =>
    obtain ⟨hdb, -⟩ := unsubscribeAll_turn svc s.world order topic'
    show Follows (Turn.step svc s.world (.perform (.unsubscribeAll order topic'))).db hub topic
    obtain ⟨x, hx, hhub, htopic, a, ha, hid⟩ := hfollows
    have hne : x.topic ≠ topic' := fun heq => hkept order (heq ▸ htopic ▸ rfl)
    rw [hdb]
    refine ⟨x, Database.mem_subscriptions_delete.mpr ⟨hx, by simpa using hne⟩, hhub, htopic, a,
      Database.mem_active_delete.mpr ⟨ha, ?_⟩, hid⟩
    rw [hid, Database.deletedIds_of_mem hx]
    simpa using hne
  | poll order draws =>
    show Follows (Turn.step svc s.world (.poll s.now order draws)).db hub topic
    rcases h.poll_cases hcallback order hallowed with hearly | ⟨tick?, renewals, -, hmade, -⟩
    · rw [hearly]
      exact hfollows
    · refine follows_of_subset hfollows (fun x hx => ?_) hmade.active
      rw [Table.mem_def, hmade.subscriptions]
      exact List.mem_append_left _ hx

end Timed

open Timed in
/-- **No lease lapses.** The scheduler is polled within `lag` seconds of its tick, the hubs verify a renewal within
`delay` seconds, or take longer for one of a topic that is given up, and grant leases that are no shorter than
the margin. If `lag` and `delay` together are less than the margin, then no active subscription is there at or
after its expiry, and a topic that is once followed at a hub is followed until it is given up. -/
theorem no_lease_lapses {svc : Service} {lag delay : ℕ} {decode : String → Option (List UInt8)}
    {parse : String → Except String Uri} {p : String} {db : Database} {timer : Timer} {now : UInt64}
    (hmargin : lag + delay < svc.renewalMargin.toNat) (hpath : IsCallbackPrefix svc.lib svc.callback p)
    (hbase64 : Base64Url svc.lib.base64 decode) (hhttp : HttpUri svc.lib parse) (hstarts : Starts svc lag db now)
    (htimer : svc.newTimer now db = .ok timer) (before after : List TimedEvent)
    (hallowed : ∀ m ∈ Runs.moves (Timed.step svc) (.start db timer now) (before ++ after),
      m.1.Allowed svc lag delay m.2) :
    (∀ s ∈ Runs.states (Timed.step svc) (.start db timer now) (before ++ after),
      ∀ a ∈ s.world.db.activeSubscriptions, (s.now.toNat : ℤ) < a.expiresAt.toInt) ∧
      ∀ hub topic, (∀ order, .unsubscribeAll order topic ∉ after) →
        Follows (Runs.final (Timed.step svc) (.start db timer now) before).world.db hub topic →
          Follows (Runs.final (Timed.step svc) (.start db timer now) (before ++ after)).world.db hub topic := by
  have hcallback : ∀ id, ∃ uri, makeCallback svc.lib svc.callback id = .ok uri :=
    fun id => ⟨_, hpath.makeCallback hbase64 hhttp id⟩
  have hstart : (start db timer now).Timely svc lag delay := hstarts.timely htimer
  constructor
  · intro s hs a ha
    have htimely : s.Timely svc lag delay :=
      Runs.always_of_moves (fun _ _ h hallowed => h.step hcallback hallowed) hstart hallowed s hs
    exact htimely.not_lapsed hmargin ha
  · intro hub topic hkept hfollows
    rw [Runs.moves_append, List.forall_mem_append] at hallowed
    rw [Runs.final_append]
    have hbefore : (Runs.final (Timed.step svc) (.start db timer now) before).Timely svc lag delay :=
      Runs.always_of_moves (fun _ _ h hallowed => h.step hcallback hallowed) hstart hallowed.1 _
        (Runs.final_mem_states _ _ _)
    have hafter := Runs.always_of_moves (I := fun s => s.Timely svc lag delay ∧ Follows s.world.db hub topic)
      (C := fun s event => s.Allowed svc lag delay event ∧ ∀ order, event ≠ .unsubscribeAll order topic)
      (fun _ _ h hstep => ⟨h.1.step hcallback hstep.1, h.1.follows_step hcallback hstep.1 hstep.2 h.2⟩)
      ⟨hbefore, hfollows⟩ (fun m hm => ⟨hallowed.2 m hm, ?_⟩) _ (Runs.final_mem_states _ _ _)
    · exact hafter.2
    · rintro order heq
      exact hkept order (heq ▸ Runs.mem_of_mem_moves hm)

/-! ### A subscription over two leases -/

namespace Timed

/-- Every request to this service grants a lease of 10000 seconds. -/
def granting : Service :=
  { Renewals.sampleService with
    lib := { Renewals.sampleLibraries with parseVerify := fun _ => some (.subscribe "topic" "" 10000) } }

def sampleHub : String := "https://example.com/hub"

/-- The lease ends at 10000, and its renewal is due at 6400. -/
def firstLease : List TimedEvent := [.subscribe ⟨"", [2]⟩ sampleHub "topic", .verifyIntent 1 ""]

/-- The scheduler is polled 50 seconds late, and the hub takes another 50 seconds. -/
def secondLease : List TimedEvent :=
  [.advance 6450, .poll .asStored fun _ => Renewals.sampleDraw, .advance 6500, .verifyIntent 3 "", .advance 12000]

theorem isCallbackPrefix_granting : IsCallbackPrefix granting.lib granting.callback "/" :=
  ⟨rfl, rfl, rfl, by decide, by simp, by simp⟩

theorem httpUri_granting : HttpUri granting.lib Renewals.parseCallback :=
  ⟨Renewals.httpUri_sampleLibraries.absolute, Renewals.httpUri_sampleLibraries.append,
    Renewals.httpUri_sampleLibraries.fromParts⟩

theorem starts_granting : Starts granting 60 .empty 0 where
  coherent := Coherent.empty
  hubs x hx := absurd hx (Table.not_mem_empty x)
  idle r := Table.not_mem_empty r
  clock := by decide
  early a ha := absurd ha (Table.not_mem_empty a)

theorem allowed_granting : ∀ m ∈ Runs.moves (Timed.step granting) (.start .empty (.new none) 0)
    (firstLease ++ secondLease), m.1.Allowed granting 60 600 m.2 := by
  have hlease : ∀ topic challenge leaseSeconds, granting.lib.parseVerify "" =
      some (.subscribe topic challenge leaseSeconds) → granting.renewalMargin ≤ leaseSeconds := by
    rintro topic challenge leaseSeconds h
    cases h
    decide
  have hhub : granting.lib.isUri sampleHub = true := by decide
  refine List.forall_mem_cons.mpr ⟨hhub, List.forall_mem_cons.mpr ⟨hlease, ?_⟩⟩
  refine List.forall_mem_cons.mpr ⟨⟨by decide, ?_, by decide⟩, ?_⟩
  · show ∀ r ∈ Table.rows _, _
    decide
  refine List.forall_mem_cons.mpr ⟨fun _ => show _ ≤ Renewals.sampleDraw.distinct by decide, ?_⟩
  refine List.forall_mem_cons.mpr ⟨⟨by decide, ?_, by decide⟩, List.forall_mem_cons.mpr ⟨hlease, ?_⟩⟩
  · show ∀ r ∈ Table.rows _, _
    decide
  refine List.forall_mem_cons.mpr ⟨⟨by decide +kernel, ?_, by decide⟩, fun _ => (nomatch ·)⟩
  show ∀ r ∈ Table.rows _, _
  decide +kernel

/-- At 12000 the topic is still followed. -/
theorem no_lease_lapses_granting : Follows (Runs.final (Timed.step granting) (.start .empty (.new none) 0)
    (firstLease ++ secondLease)).world.db sampleHub "topic" := by
  refine (no_lease_lapses (show 60 + 600 < granting.renewalMargin.toNat by decide)
    isCallbackPrefix_granting Renewals.base64Url_sampleLibraries httpUri_granting starts_granting rfl
    firstLease secondLease allowed_granting).2 sampleHub "topic" ?_ ?_
  · intro order
    simp [secondLease]
  · refine ⟨⟨1, sampleHub, "topic", ""⟩, ?_, rfl, rfl, ⟨1, 10000⟩, ?_, rfl⟩
    · decide
    · decide

end Timed

end Pipitor.Websub
