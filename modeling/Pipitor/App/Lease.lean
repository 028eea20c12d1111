import Pipitor.App.App
import Pipitor.Foundation.Timespec
import Pipitor.Websub.Coverage
import Pipitor.Websub.Renewals

/-!
# Margins and leases

The five places at which seconds are added and subtracted: the first tick, the threshold of a renewal, the
expiry and the tick of a verification, and the tick after a renewal. Only the expiry saturates; the others are
right as long as the margin is small enough to be added to the time and subtracted from what is stored.
-/

namespace Pipitor

/-! ### The margin -/

/-- What a deserializer hands to the visitor of `de_duration_from_secs`. -/
inductive DurationValue
  | i64 (v : Int64)
  | u64 (v : UInt64)
  /-- A sequence or a map, which is read as a `Duration` of its own. -/
  | fields (secs : UInt64) (nanos : UInt32)

def visitU64 (v : UInt64) : Duration := v.toNat * 1000000000

/-- `de_duration_from_secs`. -/
def deDurationFromSecs : DurationValue → Except String Duration
  | .i64 v =>
    match Machine.tryIntoU64 v with
    | some v => .ok (visitU64 v)
    | none => .error s!"invalid value: integer `{v.toInt}`, expected u64"
  | .u64 v => .ok (visitU64 v)
  | .fields secs nanos =>
    match Timespec.Duration.new secs nanos with
    | some d => .ok d.toNanos
    | none => .error "overflow deserializing Duration"

theorem asSecs_visitU64 (v : UInt64) : (visitU64 v).asSecs = v.toNat := by
  unfold visitU64 Duration.asSecs
  omega

theorem asSecs_toNanos (d : Timespec.Duration) : Duration.asSecs d.toNanos = d.secs.toNat := by
  have hnanos := d.nanos_lt
  unfold Duration.asSecs Timespec.Duration.toNanos Timespec.nanosPerSec at *
  omega

theorem asSecs_deDurationFromSecs {v : DurationValue} {d : Duration} (h : deDurationFromSecs v = .ok d) :
    d.asSecs < 2 ^ 64 := by
  unfold deDurationFromSecs at h
  split at h
  · split at h
    · rw [← Except.ok.inj h, asSecs_visitU64]
      exact UInt64.toNat_lt _
    · contradiction
  · rw [← Except.ok.inj h, asSecs_visitU64]
    exact UInt64.toNat_lt _
  · split at h
    · rw [← Except.ok.inj h, asSecs_toNanos]
      exact UInt64.toNat_lt _
    · contradiction

/-- The margins that a manifest can set are just the numbers of seconds in a `u64`. -/
theorem exists_deDurationFromSecs_iff (margin : ℕ) :
    (∃ v d, deDurationFromSecs v = .ok d ∧ d.asSecs = margin) ↔ margin < 2 ^ 64 := by
  constructor
  · rintro ⟨v, d, hd, rfl⟩
    exact asSecs_deDurationFromSecs hd
  · intro h
    refine ⟨.u64 (.ofNat margin), _, rfl, ?_⟩
    rw [asSecs_visitU64, UInt64.toNat_ofNat_of_lt' h]

theorem toNat_renewalMargin {env : App.AppEnv} {config : WebSub} {svc : Websub.Service} {v : DurationValue}
    (hv : deDurationFromSecs v = .ok config.renewalMargin) (hsvc : App.serviceOf env config = .ok svc) :
    svc.renewalMargin.toNat = config.renewalMargin.asSecs := by
  unfold App.serviceOf at hsvc
  split at hsvc
  · rw [← Except.ok.inj hsvc]
    exact UInt64.toNat_ofNat_of_lt' (asSecs_deDurationFromSecs hv)
  · contradiction

end Pipitor

namespace Pipitor.Websub

open Machine Resumption Relational

/-! ### What the arithmetic is to come to -/

/-- The tick for an expiry: the margin before it, or at once if that is no time. -/
def IsTick (svc : Service) (expiresAt : Int64) (tick : UInt64) : Prop :=
  (tick.toNat : ℤ) = max 0 (expiresAt.toInt - svc.renewalMargin.toNat) ∧ tick ≠ Timer.never

/-- The five places, for the tables at hand and a verification and a renewal at the time `now`. -/
structure LeaseSafe (svc : Service) (db : Database) (now leaseSeconds : UInt64) : Prop where
  /-- `Subscriber::new`. -/
  first_tick : ∃ tick?, svc.newTimer now db = .ok (.new tick?) ∧ svc.tickOf? db.firstExpiry = .ok tick? ∧
    Option.Rel (IsTick svc) db.firstExpiry tick?
  /-- `renew_subscriptions`. -/
  threshold : ∃ threshold, svc.threshold now = .ok threshold ∧
    threshold.toInt = now.toNat + svc.renewalMargin.toNat + 1
  /-- `verify_intent`. -/
  expires_at : (expiresAt now leaseSeconds).toInt = min (now.toNat + leaseSeconds.toNat) (2 ^ 63 - 1)
  refresh_time : ∃ tick, svc.refreshTime (expiresAt now leaseSeconds).toUInt64 = .ok tick ∧
    IsTick svc (expiresAt now leaseSeconds) tick
  verify_intent : ∀ w, w.db = db → ∀ id topic challenge,
    ((svc.confirm id topic challenge leaseSeconds now).run w).1 ≠ .error .arithmetic ∧
    ∀ response w', (svc.confirm id topic challenge leaseSeconds now).run w = (.ok response, w') →
      ⟨id, expiresAt now leaseSeconds⟩ ∈ w'.db.activeSubscriptions ∧
        ∃ tick, w'.timer = w.timer.hasten tick ∧ IsTick svc (expiresAt now leaseSeconds) tick
  /-- The callback of the scheduler. -/
  callback : ∀ w, w.db = db → ∀ order draws,
    ((svc.getNextTick now order draws).run w).1 ≠ .error .arithmetic ∧
    ∀ tick? w', (svc.getNextTick now order draws).run w = (.ok tick?, w') →
      Option.Rel (IsTick svc) w'.db.nextExpiry tick?

/-- The margin can be subtracted from the first expiry and from the new one, and added to the time. -/
structure MarginFits (svc : Service) (db : Database) (now leaseSeconds : UInt64) : Prop where
  first : ∀ e ∈ db.firstExpiry, e.toInt < 0 ∨ (svc.renewalMargin.toNat : ℤ) ≤ e.toInt
  ahead : now.toNat + svc.renewalMargin.toNat + 1 < 2 ^ 63
  lease : svc.renewalMargin.toNat ≤ min (now.toNat + leaseSeconds.toNat) (2 ^ 63 - 1)

/-! ### Ticks -/

section Ticks

variable {svc : Service} {e : Int64}

theorem tickOf_of_neg (h : e.toInt < 0) : svc.tickOf e = .ok 0 := by
  have hneg : ¬ 0 ≤ e := by
    rw [Int64.le_iff_toInt_le]
    show ¬ (0 : ℤ) ≤ e.toInt
    omega
  unfold Service.tickOf tryIntoU64
  rw [if_neg hneg]

theorem tickOf_of_nonneg (h : 0 ≤ e) : svc.tickOf e = svc.refreshTime e.toUInt64 := by
  unfold Service.tickOf tryIntoU64
  rw [if_pos h]

theorem ne_never_of_lt {tick : UInt64} (h : tick.toNat < 2 ^ 63) : tick ≠ Timer.never := by
  rintro rfl
  exact absurd h (by decide)

/-- The tick is right just where the margin can be subtracted or the expiry is negative. -/
theorem exists_isTick_iff : (∃ tick, svc.tickOf e = .ok tick ∧ IsTick svc e tick) ↔
    e.toInt < 0 ∨ (svc.renewalMargin.toNat : ℤ) ≤ e.toInt := by
  constructor
  · rintro ⟨tick, htick, hval, -⟩
    by_contra hnot
    rw [not_or, Int.not_lt, Int.not_le] at hnot
    obtain ⟨hpos, hlt⟩ := hnot
    have hpos' : 0 ≤ e := Int64.le_iff_toInt_le.mpr hpos
    have hnat := toNat_toUInt64 hpos'
    rw [tickOf_of_nonneg hpos'] at htick
    rw [refreshTime_ok htick, UInt64.toNat_sub] at hval
    have hmargin := svc.renewalMargin.toNat_lt
    omega
  · rintro (hneg | hle)
    · refine ⟨0, tickOf_of_neg hneg, ?_, by decide⟩
      show (0 : ℤ) = _
      omega
    · obtain ⟨tick, htick, hval⟩ := Service.Settled.tickOf_of_le hle
      have hmax := e.toInt_lt
      refine ⟨tick, htick, by omega, ne_never_of_lt ?_⟩
      omega

end Ticks

theorem exists_tickOf? {svc : Service} {e? : Option Int64}
    (h : ∀ e ∈ e?, e.toInt < 0 ∨ (svc.renewalMargin.toNat : ℤ) ≤ e.toInt) :
    ∃ tick?, svc.tickOf? e? = .ok tick? ∧ Option.Rel (IsTick svc) e? tick? := by
  cases e? with
  | none => exact ⟨none, rfl, .none⟩
  | some e =>
    obtain ⟨tick, htick, hval⟩ := exists_isTick_iff.mpr (h e rfl)
    refine ⟨some tick, ?_, .some hval⟩
    unfold Service.tickOf?
    dsimp only
    rw [htick]

theorem isInstant_of_isTick {svc : Service} {boot now : UInt64} {e? : Option Int64} {tick? : Option UInt64}
    (h : Option.Rel (IsTick svc) e? tick?) : ∀ tick ∈ tick?, IsInstant boot now tick := by
  intro tick htick
  cases h with
  | none => cases htick
  | @some e first hval =>
    obtain rfl := Option.some.inj htick
    have hmax := e.toInt_lt
    have htime := hval.1
    exact isInstant_of_lt (by omega)

/-! ### Programs that do not compute -/

/-- Not an overflow, nor a failed conversion. -/
def OtherAbort (e : Abort) (_ : World) : Prop := e ≠ .arithmetic

section Programs

variable (svc : Service) {w : World}

theorem otherAbort_uri (w : World) : OtherAbort .uri w := Abort.noConfusion

theorem computed_of_sat {α : Type} {p : Prog World Abort α} {w : World} {Q : α → World → Prop}
    (h : Prog.Sat p w Q OtherAbort) :
    (p.run w).1 ≠ .error .arithmetic ∧ ∀ a w', p.run w = (.ok a, w') → Q a w' := by
  constructor
  · intro hrun
    exact h.of_error hrun rfl
  · intro a w' hrun
    have hok : (p.run w).1 = .ok a := by rw [hrun]
    have hafter := h.of_ok hok
    rwa [hrun] at hafter

theorem renewTransaction_ne_arithmetic (draw : Draw) (old : Int64) (hub topic : String) (db : Database) :
    renewTransaction draw old hub topic db ≠ .error .arithmetic := by
  unfold renewTransaction
  rcases createSubscription_cases draw hub topic db with ⟨id, db', hrun, -⟩ | hrun
  · rw [hrun]
    dsimp only
    cases hinsert : db'.insertRenewing ⟨old, id⟩ with
    | error e => simp
    | ok db'' => simp
  · rw [hrun]
    simp

theorem activate_ne_arithmetic (id expiresAt : Int64) (db : Database) :
    db.activate id expiresAt ≠ .error .arithmetic := by
  unfold Database.activate
  cases (db.deletePending (· = id)).insertActive ⟨id, expiresAt⟩ with
  | error e => simp
  | ok db' => simp

theorem sat_activate_stores (id expiresAt : Int64) (challenge : String) :
    Prog.Sat (Service.activate id expiresAt challenge) w
      (fun _ w' => ⟨id, expiresAt⟩ ∈ w'.db.activeSubscriptions) OtherAbort := by
  refine Prog.sat_bind (R := fun _ w' => ⟨id, expiresAt⟩ ∈ w'.db.activeSubscriptions) (sat_transaction ?_ ?_) ?_
  · intro u db h
    exact (Table.mem_of_insert (activate_ok h).active).mpr (.inr rfl)
  · rintro e he rfl
    exact activate_ne_arithmetic _ _ _ he
  · exact fun _ _ h => Prog.sat_done.mpr h

theorem sat_switchOver_stores (id expiresAt : Int64) (topic challenge : String) :
    Prog.Sat (svc.switchOver id expiresAt topic challenge) w
      (fun _ w' => ⟨id, expiresAt⟩ ∈ w'.db.activeSubscriptions) OtherAbort := by
  refine Prog.sat_bind (R := fun _ _ => True) (sat_query.mpr trivial) ?_
  intro renewing w₁ _
  cases renewing with
  | none => exact sat_activate_stores id expiresAt challenge
  | some r =>
    refine Prog.sat_bind (R := fun _ _ => True) (sat_transaction (fun _ _ _ => trivial) ?_) ?_
    · intro e he
      split at he
      · contradiction
      · rw [← Except.error.inj he]
        exact Abort.noConfusion
    intro hub w₂ _
    refine Prog.sat_bind (R := fun _ _ => True) ?_ ?_
    · refine Prog.sat_bind (R := fun _ _ => True) (sat_execute.mpr trivial) ?_
      exact fun _ w' _ => sat_request_uri (K := fun _ => True) trivial (fun w _ => otherAbort_uri w) svc.lib
        svc.callback r.old hub (.unsubscribe · topic)
    intro task w₃ _
    refine Prog.sat_bind (R := fun _ _ => True) (sat_spawn.mpr trivial) ?_
    exact fun _ w' _ => sat_activate_stores id expiresAt challenge

theorem sat_confirm_stores {leaseSeconds now tick : UInt64}
    (htick : svc.refreshTime (expiresAt now leaseSeconds).toUInt64 = .ok tick) (id : Int64)
    (topic challenge : String) :
    Prog.Sat (svc.confirm id topic challenge leaseSeconds now) w
      (fun _ w' => ⟨id, expiresAt now leaseSeconds⟩ ∈ w'.db.activeSubscriptions) OtherAbort := by
  unfold Service.confirm
  dsimp only
  rw [htick]
  refine Prog.sat_bind (R := fun tick' _ => tick' = tick) (Prog.sat_done.mpr rfl) ?_
  rintro _ w₁ rfl
  refine Prog.sat_bind (R := fun _ _ => True) (sat_onTimer.mpr trivial) ?_
  exact fun _ w' _ => sat_switchOver_stores svc id _ topic challenge

/-! ### The callback -/

/-- In the midst of the renewals: what expires by the threshold is being renewed, or is still to be. -/
def Accounted (threshold : Int64) (rest : List (Subscription × ℕ)) (w : World) : Prop :=
  ∀ a ∈ w.db.activeSubscriptions, a.expiresAt ≤ threshold →
    (∃ r ∈ w.db.renewingSubscriptions, r.old = a.id) ∨ ∃ p ∈ rest, p.1.id = a.id

theorem accounted_start (w : World) (threshold : Int64) (order : RowOrder Subscription) :
    Accounted threshold (order.apply (w.db.subscriptions.rows.filter (w.db.isExpiring threshold))).zipIdx w := by
  intro a ha hdue
  by_cases hidle : ∀ r ∈ w.db.renewingSubscriptions, r.old ≠ a.id
  · right
    obtain ⟨s, hs, hid⟩ := Table.hasKey_iff.mp (w.db.active_references a ha)
    have hexpiring : w.db.isExpiring threshold s = true := by
      refine isExpiring_iff.mpr ⟨a, ha, hid.symm, hdue, ?_⟩
      rw [hid]
      exact Database.isRenewing_eq_false_iff.mpr hidle
    have hmem := (order.mem_apply).mpr (List.mem_filter.mpr ⟨hs, hexpiring⟩)
    obtain ⟨i, hi, rfl⟩ := List.mem_iff_getElem.mp hmem
    exact ⟨(_, i), List.mk_mem_zipIdx_iff_getElem?.mpr (List.getElem?_eq_getElem hi), hid⟩
  · left
    by_contra hnone
    exact hidle fun r hr hold => hnone ⟨r, hr, hold⟩

theorem Accounted.sat_renew {threshold : Int64} {rest : List (Subscription × ℕ)} {s : Subscription} {i : ℕ}
    (h : Accounted threshold ((s, i) :: rest) w) (draw : Draw) :
    Prog.Sat (Hub.renew svc.lib svc.callback draw s.id s.hub s.topic) w
      (fun _ w' => Accounted threshold rest w') OtherAbort := by
  refine Prog.sat_bind (R := fun _ w' => Accounted threshold rest w') (sat_transaction ?_ ?_) ?_
  · intro new db hrun a ha hdue
    obtain ⟨db₁, hcreated, hinsert⟩ := renewTransaction_ok hrun
    obtain ⟨hrenewing, -, hactive, -⟩ := Database.insertRenewing_ok hinsert
    rw [hactive, hcreated.active] at ha
    rcases h a ha hdue with ⟨r, hr, hold⟩ | ⟨p, hp, hid⟩
    · rw [← hcreated.renewing] at hr
      exact .inl ⟨r, (Table.mem_of_insert hrenewing).mpr (.inl hr), hold⟩
    · rcases List.mem_cons.mp hp with rfl | hp
      · exact .inl ⟨_, (Table.mem_of_insert hrenewing).mpr (.inr rfl), hid⟩
      · exact .inr ⟨p, hp, hid⟩
  · rintro e he rfl
    exact renewTransaction_ne_arithmetic _ _ _ _ _ he
  · rintro ⟨new, secret⟩ w₁ h₁
    exact sat_request_uri h₁ (fun w _ => otherAbort_uri w) svc.lib svc.callback new s.hub
      (.subscribe · s.topic secret)

theorem sat_renewSubscriptions_settled {now : UInt64} (hnow : now.toNat + svc.renewalMargin.toNat + 1 < 2 ^ 63)
    (order : RowOrder Subscription) (draws : ℕ → Draw) :
    Prog.Sat (svc.renewSubscriptions now order draws) w (fun _ w' => svc.Settled w'.db now) OtherAbort := by
  obtain ⟨threshold, hthreshold⟩ := exists_threshold_of_lt hnow
  have htoInt := (Service.threshold_ok hthreshold).2
  rw [Service.lookAhead_of_lt hnow] at htoInt
  let expiring := order.apply (w.db.subscriptions.rows.filter (w.db.isExpiring threshold))
  unfold Service.renewSubscriptions
  rw [hthreshold]
  refine Prog.sat_bind (R := fun t w' => threshold = t ∧ w = w') (Prog.sat_done.mpr ⟨rfl, rfl⟩) ?_
  rintro _ _ ⟨rfl, rfl⟩
  refine Prog.sat_bind (R := fun found w' => expiring = found ∧ w = w') (sat_query.mpr ⟨rfl, rfl⟩) ?_
  rintro _ _ ⟨rfl, rfl⟩
  refine (Prog.sat_forM (R := Accounted threshold) (E := OtherAbort) ?_ _ w
    (accounted_start w threshold order)).mono ?_ ?_
  · rintro ⟨s, i⟩ rest w₁ h
    refine Prog.sat_bind (h.sat_renew svc (draws i)) ?_
    exact fun task w₂ h₂ => sat_spawn.mpr h₂
  · intro _ w' h a ha hidle
    by_contra hsoon
    have hdue : a.expiresAt ≤ threshold := by
      rw [Int64.le_iff_toInt_le, htoInt]
      omega
    rcases h a ha hdue with ⟨r, hr, hold⟩ | ⟨p, hp, -⟩
    · exact hidle r hr hold
    · exact absurd hp List.not_mem_nil
  · exact fun _ _ h => h

theorem Service.Settled.margin_le {db : Database} {now : UInt64} (h : svc.Settled db now) :
    ∀ e ∈ db.nextExpiry, e.toInt < 0 ∨ (svc.renewalMargin.toNat : ℤ) ≤ e.toInt := by
  intro e he
  obtain ⟨a, ha, rfl⟩ := List.mem_map.mp (List.min?_mem he)
  obtain ⟨hactive, hidle⟩ := mem_idle.mp ha
  have hlater := h a hactive hidle
  omega

theorem sat_getNextTick_isTick {now : UInt64} (hnow : now.toNat + svc.renewalMargin.toNat + 1 < 2 ^ 63)
    (order : RowOrder Subscription) (draws : ℕ → Draw) :
    Prog.Sat (svc.getNextTick now order draws) w
      (fun tick? w' => Option.Rel (IsTick svc) w'.db.nextExpiry tick?) OtherAbort := by
  refine Prog.sat_bind (sat_renewSubscriptions_settled svc hnow order draws) ?_
  intro _ w₁ h₁
  refine Prog.sat_bind (R := fun expiry w' => w₁ = w' ∧ w₁.db.nextExpiry = expiry) (sat_query.mpr ⟨rfl, rfl⟩) ?_
  rintro _ _ ⟨rfl, rfl⟩
  obtain ⟨tick?, htick, hval⟩ := exists_tickOf? (h₁.margin_le svc)
  rw [htick]
  exact Prog.sat_done.mpr hval

end Programs

/-! ### The margin decides -/

section Margin

variable {svc : Service} {db : Database} {now leaseSeconds : UInt64}

theorem LeaseSafe.marginFits (h : LeaseSafe svc db now leaseSeconds) : MarginFits svc db now leaseSeconds where
  first := by
    intro e he
    obtain ⟨tick?, -, htick, hrel⟩ := h.first_tick
    rw [Option.mem_def] at he
    rw [he] at htick hrel
    cases hrel with
    | some hval =>
      obtain ⟨tick, hof, hsome⟩ := Service.tickOf?_some htick
      rw [Option.some.inj hsome] at hval
      exact exists_isTick_iff.mp ⟨tick, hof, hval⟩
  ahead := by
    obtain ⟨threshold, -, htoInt⟩ := h.threshold
    have hmax := threshold.toInt_lt
    omega
  lease := by
    obtain ⟨tick, htick, hval⟩ := h.refresh_time
    rw [← tickOf_of_nonneg (expiresAt_nonneg now leaseSeconds)] at htick
    have hfits := exists_isTick_iff.mp ⟨tick, htick, hval⟩
    rw [toInt_expiresAt] at hfits
    omega

theorem MarginFits.leaseSafe (h : MarginFits svc db now leaseSeconds) : LeaseSafe svc db now leaseSeconds := by
  have hlease : (expiresAt now leaseSeconds).toInt < 0 ∨
      (svc.renewalMargin.toNat : ℤ) ≤ (expiresAt now leaseSeconds).toInt := by
    have hle := h.lease
    rw [toInt_expiresAt]
    omega
  obtain ⟨tick, htick, hval⟩ := exists_isTick_iff.mpr hlease
  rw [tickOf_of_nonneg (expiresAt_nonneg now leaseSeconds)] at htick
  constructor
  · obtain ⟨tick?, htick?, hrel⟩ := exists_tickOf? h.first
    refine ⟨tick?, ?_, htick?, hrel⟩
    unfold Service.newTimer
    rw [htick?]
    exact Timer.spawn_ok (Timer.decodes_handle (isInstant_of_isTick hrel))
  · obtain ⟨threshold, hthreshold⟩ := exists_threshold_of_lt h.ahead
    refine ⟨threshold, hthreshold, ?_⟩
    rw [(Service.threshold_ok hthreshold).2, Service.lookAhead_of_lt h.ahead]
    push_cast
    rfl
  · exact toInt_expiresAt now leaseSeconds
  · exact ⟨tick, htick, hval⟩
  · intro w _ id topic challenge
    have htimer := @sat_confirm_timer svc w id topic challenge leaseSeconds now
    obtain ⟨hcomputes, hafter⟩ := computed_of_sat <|
      ((sat_confirm_stores svc htick id topic challenge).and htimer).mono (fun _ _ h => h) fun _ _ h => h.1
    refine ⟨hcomputes, ?_⟩
    intro response w' hrun
    obtain ⟨hmem, hhasten⟩ := hafter response w' hrun
    rw [← refreshTime_ok htick] at hhasten
    exact ⟨hmem, tick, hhasten, hval⟩
  · intro w _ order draws
    exact computed_of_sat (sat_getNextTick_isTick svc h.ahead order draws)

end Margin

/-- The arithmetic comes to what it is to just if the margin can be added to the time and subtracted from the
expiries. -/
theorem leaseSafe_iff (svc : Service) (db : Database) (now leaseSeconds : UInt64) :
    LeaseSafe svc db now leaseSeconds ↔ MarginFits svc db now leaseSeconds :=
  ⟨LeaseSafe.marginFits, MarginFits.leaseSafe⟩

/-- A margin of sixty-three years. -/
def longMargin (overflowChecks : Bool) : Service :=
  { Renewals.sampleService with renewalMargin := 2000000000, overflowChecks }

/-- A lease of a day, in 2023: where overflows are checked the verification panics, and elsewhere it asks for a
tick that is no `Instant`, at which the scheduler panics. -/
theorem not_leaseSafe_longMargin :
    (deDurationFromSecs (.i64 2000000000)).map Duration.asSecs = .ok 2000000000 ∧
      (1700000000 : UInt64).toNat < 2 ^ 62 ∧
      ¬ LeaseSafe (longMargin true) .empty 1700000000 86400 ∧
      ¬ LeaseSafe (longMargin false) .empty 1700000000 86400 := by
  refine ⟨by decide, by decide, ?_, ?_⟩
  · intro h
    obtain ⟨tick, htick, -⟩ := h.refresh_time
    have hpanics : (longMargin true).refreshTime (expiresAt 1700000000 86400).toUInt64 = .error .arithmetic := by
      decide
    rw [hpanics] at htick
    contradiction
  · intro h
    obtain ⟨tick, htick, hval, -⟩ := h.refresh_time
    have hwraps : (longMargin false).refreshTime (expiresAt 1700000000 86400).toUInt64 =
        .ok 18446744073409638016 := by decide
    rw [hwraps] at htick
    rw [← Except.ok.inj htick] at hval
    exact absurd hval (by decide)

end Pipitor.Websub
