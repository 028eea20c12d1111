import Pipitor.Websub.Retry
import Pipitor.Websub.Verification

/-!
# The cycle of renewals

A verification hastens the scheduler, the scheduler's poll renews, and the hub verifies what renews. Whether
that lets time pass: `not_selected_iff` says when a subscription is not renewed at the very time at which it
has been confirmed.
-/

namespace Pipitor.Websub

open Machine Resumption Relational

/-- The timer has run out when the scheduler is polled at the time `now`. -/
def Timer.Fires (boot : UInt64) (t : Timer) (now : UInt64) : Prop :=
  ∃ t', t.arm boot now = .ok t' ∧ ∃ deadline, t'.delay = some deadline ∧ deadline ≤ now

theorem Timer.fires_iff {boot now : UInt64} {t : Timer} : t.Fires boot now ↔
    t.Decodes boot now ∧ ∃ deadline, t.armed.delay = some deadline ∧ deadline ≤ now := by
  constructor
  · rintro ⟨t', harm, hdeadline⟩
    obtain ⟨hdecodes, rfl⟩ := arm_eq_ok harm
    exact ⟨hdecodes, hdeadline⟩
  · rintro ⟨hdecodes, hdeadline⟩
    exact ⟨t.armed, arm_ok hdecodes, hdeadline⟩

theorem Timer.delay_armed_asleep (t : Timer) : ({ t with woken := false } : Timer).armed.delay = t.armed.delay := by
  obtain ⟨nextTick, delay, woken⟩ := t
  unfold armed tick?
  cases delay with
  | none => rfl
  | some deadline =>
    dsimp only
    by_cases hnever : nextTick ≠ never
    · simp only [if_pos hnever]
      split
      · rfl
      · rfl
    · simp only [if_neg hnever]

/-- A poll of the scheduler at the time `now` selects the subscription for renewal. -/
def Service.PollSelects (svc : Service) (w : World) (now : UInt64) (id : Int64) : Prop :=
  w.timer.Fires svc.boot now ∧ svc.Selects w.db now id

/-- An operation, a command or a poll of the scheduler, each of which runs to its end. -/
inductive Turn
  | perform (op : Op)
  | unsubscribeCommand (ids : Option (List Int64))
  | poll (now : UInt64) (order : RowOrder Subscription) (draws : ℕ → Draw)

namespace Turn

def prog (svc : Service) : Turn → Prog World Abort Unit
  | perform op => op.prog svc
  | unsubscribeCommand ids => Websub.unsubscribeCommand ids
  | poll now order draws => Scheduler.poll svc.boot (svc.getNextTick now order draws) now

def step (svc : Service) (w : World) (turn : Turn) : World := ((turn.prog svc).run w).2

end Turn

/-! ### Lease and margin -/

/-- `now + renewal_margin + 1`, as the build computes it. -/
def Service.lookAhead (svc : Service) (now : UInt64) : ℕ :=
  if svc.overflowChecks then now.toNat + svc.renewalMargin.toNat + 1
  else (now.toNat + svc.renewalMargin.toNat + 1) % 2 ^ 64

/-- The lease, counted from `now`, ends after the instant up to which a renewal at `now` looks ahead. -/
def Service.Outlasts (svc : Service) (now leaseSeconds : UInt64) : Prop :=
  2 ^ 63 ≤ svc.lookAhead now ∨ svc.lookAhead now < min (now.toNat + leaseSeconds.toNat) (2 ^ 63 - 1)

theorem toInt_expiresAt (now leaseSeconds : UInt64) :
    (expiresAt now leaseSeconds).toInt = min (now.toNat + leaseSeconds.toNat) (2 ^ 63 - 1) := by
  have hsum : (saturatingAdd now leaseSeconds).toNat = min (now.toNat + leaseSeconds.toNat) (2 ^ 64 - 1) := by
    unfold saturatingAdd
    split
    · rename_i hlt
      rw [UInt64.toNat_add, Nat.mod_eq_of_lt hlt]
      omega
    · rename_i hge
      rw [Nat.min_eq_right (by omega)]
      rfl
  unfold expiresAt
  cases h : tryIntoI64 (saturatingAdd now leaseSeconds) with
  | none =>
    unfold tryIntoI64 at h
    split at h
    · cases h
    · rename_i hge
      rw [Option.getD_none, Int64.toInt_maxValue]
      omega
  | some e =>
    have hlt : (saturatingAdd now leaseSeconds).toNat < 2 ^ 63 := by
      unfold tryIntoI64 at h
      split at h
      · assumption
      · cases h
    rw [Option.getD_some, tryIntoI64_eq_some h]
    omega

namespace Service

variable {svc : Service}

theorem addU64_ok {a b sum : UInt64} (h : svc.addU64 a b = .ok sum) :
    sum.toNat = (if svc.overflowChecks then a.toNat + b.toNat else (a.toNat + b.toNat) % 2 ^ 64) := by
  unfold addU64 at h
  split at h
  · cases h
  · rename_i hsum
    obtain rfl := Except.ok.inj h
    rw [UInt64.toNat_add]
    cases hchecks : svc.overflowChecks with
    | false => rfl
    | true =>
      rw [hchecks] at hsum
      simp only [Bool.true_and, decide_eq_true_eq, not_le] at hsum
      rw [if_pos rfl, Nat.mod_eq_of_lt hsum]

theorem toNat_lookAhead {now sum sum' : UInt64} (hsum : svc.addU64 now svc.renewalMargin = .ok sum)
    (hsum' : svc.addU64 sum 1 = .ok sum') : sum'.toNat = svc.lookAhead now := by
  rw [addU64_ok hsum', addU64_ok hsum, show (1 : UInt64).toNat = 1 from rfl]
  unfold lookAhead
  split
  · rfl
  · omega

theorem threshold_ok {now : UInt64} {threshold : Int64} (h : svc.threshold now = .ok threshold) :
    svc.lookAhead now < 2 ^ 63 ∧ threshold.toInt = svc.lookAhead now := by
  unfold Service.threshold at h
  cases hsum : svc.addU64 now svc.renewalMargin with
  | error e =>
    rw [hsum] at h
    cases h
  | ok sum =>
    cases hsum' : svc.addU64 sum 1 with
    | error e =>
      simp only [hsum, hsum'] at h
      cases h
    | ok sum' =>
      have hahead := toNat_lookAhead hsum hsum'
      simp only [hsum, hsum'] at h
      cases hi : tryIntoI64 sum' with
      | none =>
        rw [hi] at h
        cases h
      | some i =>
        rw [hi] at h
        obtain rfl := Except.ok.inj h
        refine ⟨?_, by rw [tryIntoI64_eq_some hi, hahead]⟩
        unfold tryIntoI64 at hi
        split at hi
        · omega
        · cases hi

theorem exists_threshold {now : UInt64} (h : svc.lookAhead now < 2 ^ 63) :
    ∃ threshold, svc.threshold now = .ok threshold := by
  have hadd : ∀ a b : UInt64, (svc.overflowChecks = true → a.toNat + b.toNat < 2 ^ 64) →
      ∃ sum, svc.addU64 a b = .ok sum := by
    intro a b hlt
    refine ⟨a + b, if_neg ?_⟩
    simp only [Bool.and_eq_true, decide_eq_true_eq, not_and, not_le]
    exact hlt
  have hchecked : svc.overflowChecks = true → now.toNat + svc.renewalMargin.toNat + 1 < 2 ^ 63 := by
    intro hchecks
    rwa [lookAhead, if_pos hchecks] at h
  obtain ⟨sum, hsum⟩ := hadd now svc.renewalMargin fun hchecks => by have := hchecked hchecks; omega
  obtain ⟨sum', hsum'⟩ := hadd sum 1 fun hchecks => by
    have := hchecked hchecks
    rw [addU64_ok hsum, if_pos hchecks, show (1 : UInt64).toNat = 1 from rfl]
    omega
  have hahead := toNat_lookAhead hsum hsum'
  refine ⟨sum'.toInt64, ?_⟩
  unfold Service.threshold
  simp only [hsum, hsum', tryIntoI64, hahead, if_pos h]

theorem lookAhead_of_lt {now : UInt64} (h : now.toNat + svc.renewalMargin.toNat + 1 < 2 ^ 63) :
    svc.lookAhead now = now.toNat + svc.renewalMargin.toNat + 1 := by
  unfold lookAhead
  split
  · rfl
  · exact Nat.mod_eq_of_lt (by omega)

/-- In the ordinary range the lease has to be longer than the margin, by more than the `+ 1`. -/
theorem outlasts_iff_lt {now leaseSeconds : UInt64}
    (h : now.toNat + svc.renewalMargin.toNat + 1 < 2 ^ 63 - 1) :
    svc.Outlasts now leaseSeconds ↔ svc.renewalMargin.toNat + 1 < leaseSeconds.toNat := by
  unfold Outlasts
  rw [lookAhead_of_lt (by omega)]
  omega

/-- A subscription whose lease was counted from `now` is due at `now` exactly if the lease is too short. -/
theorem isDue_iff {db : Database} {id : Int64} {now leaseSeconds : UInt64}
    (ha : ⟨id, expiresAt now leaseSeconds⟩ ∈ db.activeSubscriptions) :
    svc.IsDue db now id ↔ ¬ svc.Outlasts now leaseSeconds := by
  have hexpiry := toInt_expiresAt now leaseSeconds
  constructor
  · rintro ⟨threshold, hthreshold, a, ha', hid, hle⟩ houtlasts
    obtain ⟨hlt, hahead⟩ := threshold_ok hthreshold
    obtain rfl := Table.eq_of_key_eq ha' ha hid
    rw [Int64.le_iff_toInt_le, hahead, hexpiry] at hle
    unfold Outlasts at houtlasts
    omega
  · intro hshort
    unfold Outlasts at hshort
    rw [not_or, not_le, not_lt] at hshort
    obtain ⟨threshold, hthreshold⟩ := exists_threshold hshort.1
    refine ⟨threshold, hthreshold, _, ha, rfl, ?_⟩
    rw [Int64.le_iff_toInt_le, (threshold_ok hthreshold).2, hexpiry]
    exact_mod_cast hshort.2

theorem selects_iff_outlasts {db : Database} {id : Int64} {now leaseSeconds : UInt64}
    (ha : ⟨id, expiresAt now leaseSeconds⟩ ∈ db.activeSubscriptions) :
    svc.Selects db now id ↔ ¬ svc.Outlasts now leaseSeconds ∧ db.isRenewing id = false := by
  constructor
  · intro hselects
    have hdue : svc.IsDue db now id := by
      obtain ⟨threshold, hthreshold, s, hs, rfl⟩ := hselects
      obtain ⟨a, ha, hid, hle, -⟩ := isExpiring_iff.mp (List.mem_filter.mp hs).2
      exact ⟨threshold, hthreshold, a, ha, hid, hle⟩
    exact ⟨(isDue_iff ha).mp hdue, (svc.selects_iff_idle hdue).mp hselects⟩
  · rintro ⟨hshort, hidle⟩
    exact (svc.selects_iff_idle ((isDue_iff ha).mpr hshort)).mpr hidle

end Service

/-! ### Polls -/

section Polls

variable (svc : Service) {w : World}

theorem sat_rearm {boot now : UInt64} {P : World → Prop} (htimer : ∀ w timer, P w → P { w with timer }) (hw : P w)
    (result : Option UInt64) :
    Prog.Sat (Scheduler.rearm boot now result) w (fun _ => P) fun _ => P := by
  cases result with
  | none => exact htimer _ _ (htimer _ _ hw)
  | some nextTick =>
    refine Prog.sat_bind (R := fun _ => P) (sat_onTimer.mpr (htimer _ _ hw)) fun _ w' hw' => ?_
    exact sat_tryTimer (fun timer _ => htimer w' timer hw') fun _ _ => hw'

/-- What a poll does to the tables and the requests, its callback does, and only where the timer has run
out. -/
theorem sat_poll {boot : UInt64} {callback : Prog World Abort (Option UInt64)} {now : UInt64} {P : World → Prop}
    (htimer : ∀ w timer, P w → P { w with timer }) (hw : P w)
    (hcallback : w.timer.Fires boot now → ∀ timer,
      Prog.Sat callback { w with timer } (fun _ => P) fun _ => P) :
    Prog.Sat (Scheduler.poll boot callback now) w (fun _ => P) fun _ => P := by
  refine Prog.sat_bind (R := fun _ w' => w' = { w with timer := { w.timer with woken := false } })
    (sat_onTimer.mpr rfl) ?_
  rintro _ _ rfl
  refine Prog.sat_bind (R := fun _ w' => w.timer.Decodes boot now ∧
    w' = { w with timer := { w.timer with woken := false }.armed }) (sat_tryTimer ?_ fun _ _ => htimer w _ hw) ?_
  · intro timer harm
    obtain ⟨hdecodes, rfl⟩ := Timer.arm_eq_ok harm
    exact ⟨hdecodes, rfl⟩
  rintro _ _ ⟨hdecodes, rfl⟩
  refine Prog.sat_bind (R := fun deadline w' => deadline = w.timer.armed.delay ∧
    w' = { w with timer := { w.timer with woken := false }.armed })
    (Prog.sat_read.mpr ⟨Timer.delay_armed_asleep _, rfl⟩) ?_
  rintro deadline _ ⟨rfl, rfl⟩
  cases hdelay : w.timer.armed.delay with
  | none => exact Prog.sat_done.mpr (htimer w _ hw)
  | some deadline =>
    dsimp only
    split
    · rename_i hle
      have hfires := Timer.fires_iff.mpr ⟨hdecodes, deadline, hdelay, hle⟩
      exact Prog.sat_bind (hcallback hfires _) fun nextTick w' hw' => sat_rearm htimer hw' nextTick
    · exact Prog.sat_done.mpr (htimer w _ hw)

theorem sat_getNextTick {now : UInt64} {order : RowOrder Subscription} {draws : ℕ → Draw} {P : World → Prop}
    (h : Prog.Sat (svc.renewSubscriptions now order draws) w (fun _ => P) fun _ => P) :
    Prog.Sat (svc.getNextTick now order draws) w (fun _ => P) fun _ => P := by
  refine Prog.sat_bind h fun _ w₁ h₁ => ?_
  refine Prog.sat_bind (R := fun _ => P) (sat_query.mpr h₁) fun expiry w₂ h₂ => ?_
  exact Prog.sat_ofExcept (fun _ _ => h₂) fun _ _ => h₂

theorem active_turn {a : ActiveSubscription} (ha : a ∈ w.db.activeSubscriptions) (turn : Turn) :
    a ∈ (turn.step svc w).db.activeSubscriptions ∨ (turn.step svc w).db.subscriptions.hasKey a.id = false := by
  cases turn with
  | perform op => exact active_step ha op
  | unsubscribeCommand ids => exact (Shrinks.of_delete w _).active a ha
  | poll now order draws =>
    have hpoll : Prog.Sat (Scheduler.poll svc.boot (svc.getNextTick now order draws) now) w
        (fun _ w' => a ∈ w'.db.activeSubscriptions) fun _ w' => a ∈ w'.db.activeSubscriptions := by
      refine sat_poll (P := fun w' => a ∈ w'.db.activeSubscriptions) (fun _ _ h => h) ha fun _ timer => ?_
      refine sat_getNextTick svc (((SameActive.always_renewSubscriptions svc now order draws).sat
        SameActive.refl (fun _ _ _ => SameActive.trans) _).mono ?_ ?_)
      · exact fun _ _ h => h ▸ ha
      · exact fun _ _ h => h ▸ ha
    exact .inl hpoll.run

end Polls

/-! ### Right after the verification -/

section Confirmed

variable {svc : Service} {w : World} {id : Int64} {queryString topic challenge : String}
  {leaseSeconds now : UInt64}

theorem refreshTime_ok {expiresAt tick : UInt64} (h : svc.refreshTime expiresAt = .ok tick) :
    tick = expiresAt - svc.renewalMargin := by
  unfold Service.refreshTime Service.subU64 at h
  split at h
  · cases h
  · exact (Except.ok.inj h).symm

theorem sat_confirm_timer (id : Int64) (topic challenge : String) (leaseSeconds now : UInt64) :
    Prog.Sat (svc.confirm id topic challenge leaseSeconds now) w
      (fun _ w' => w'.timer =
        w.timer.hasten ((expiresAt now leaseSeconds).toUInt64 - svc.renewalMargin)) fun _ _ => True := by
  refine Prog.sat_bind (R := fun tick w' => w = w' ∧
    tick = (expiresAt now leaseSeconds).toUInt64 - svc.renewalMargin)
    (Prog.sat_ofExcept (fun _ h => ⟨rfl, refreshTime_ok h⟩) fun _ _ => trivial) ?_
  rintro tick _ ⟨rfl, rfl⟩
  let tick := (expiresAt now leaseSeconds).toUInt64 - svc.renewalMargin
  refine Prog.sat_bind (R := fun _ w' => w'.timer = w.timer.hasten tick) (sat_onTimer.mpr rfl) ?_
  intro _ w₁ h₁
  have hswitch := (always_switchOver svc id (expiresAt now leaseSeconds) topic challenge).sat
    (fun w => Inserts.refl _ w) (fun _ _ _ h h' => ?_) w₁
  · exact hswitch.mono (fun _ _ h => h.timer.trans h₁) fun _ _ _ => trivial
  · exact ⟨h'.timer.trans h.timer, fun a ha => (h'.active a ha).elim (h.active a) .inr⟩

theorem Confirms.isUnverified (h : Confirms svc w id queryString now topic challenge leaseSeconds) :
    w.db.isUnverified id topic = true := by
  rw [← Bool.not_eq_false]
  intro hnot
  have hanswer := h.answer
  rw [Service.answer, run_verifyIntent_of_not_unverified svc w h.parses hnot] at hanswer
  cases hanswer

theorem Confirms.timer (h : Confirms svc w id queryString now topic challenge leaseSeconds) :
    (Turn.step svc w (.perform (.verifyIntent id queryString now))).timer =
      w.timer.hasten ((expiresAt now leaseSeconds).toUInt64 - svc.renewalMargin) := by
  have hrun : (svc.verifyIntent id queryString now).run w =
      (svc.confirm id topic challenge leaseSeconds now).run w :=
    run_verifyIntent_of_unverified svc h.parses h.isUnverified
  have hanswer := h.answer
  rw [Service.answer, hrun] at hanswer
  show ((Op.verifyIntent id queryString now).step svc w).timer = _
  rw [Op.run_verifyIntent, hrun]
  exact (sat_confirm_timer id topic challenge leaseSeconds now).of_ok hanswer

theorem Confirms.idle (h : Confirms svc w id queryString now topic challenge leaseSeconds) :
    (Turn.step svc w (.perform (.verifyIntent id queryString now))).db.isRenewing id = false := by
  rw [Database.isRenewing_eq_false_iff]
  intro r hr hold
  have hnot : ¬ (Op.verifyIntent id queryString now).Renews := fun hrenews => hrenews
  have hbefore := (Fades.always_prog svc hnot).run Fades.refl (fun _ _ _ => Fades.trans) w r hr
  have hactive := w.db.old_references r hbefore
  have hunverified := h.isUnverified
  unfold Database.isUnverified at hunverified
  rw [← hold, hactive] at hunverified
  simp at hunverified

end Confirmed

/-- **Renewals and time.** A subscription has been confirmed at the time `now`, whatever was done before. A
poll of the scheduler at that time that comes next does not select it for renewal exactly if the lease
outlasts the margin, or the timer, as the verification has hastened it, has not run out. A poll at that time
that comes later, while there still is the subscription, does not select it exactly if the lease outlasts the
margin, the timer has not run out, or the subscription is already being renewed. -/
theorem not_selected_iff (svc : Service) (timer : Timer) (before : List Turn) {id : Int64}
    {queryString topic challenge : String} {leaseSeconds now : UInt64}
    (hconfirms : Confirms svc (Runs.final (Turn.step svc) ⟨.empty, timer, []⟩ before) id queryString now topic
      challenge leaseSeconds) :
    let w : World := Runs.final (Turn.step svc) ⟨.empty, timer, []⟩ before
    let w' := Turn.step svc w (.perform (.verifyIntent id queryString now))
    (¬ svc.PollSelects w' now id ↔ svc.Outlasts now leaseSeconds ∨
      ¬ (w.timer.hasten ((expiresAt now leaseSeconds).toUInt64 - svc.renewalMargin)).Fires svc.boot now) ∧
    ∀ after : List Turn,
      (∀ x ∈ Runs.states (Turn.step svc) w' after, x.db.subscriptions.hasKey id = true) →
      let x := Runs.final (Turn.step svc) w' after
      (¬ svc.PollSelects x now id ↔ svc.Outlasts now leaseSeconds ∨ ¬ x.timer.Fires svc.boot now ∨
        x.db.isRenewing id = true) := by
  intro w w'
  have ha : ⟨id, expiresAt now leaseSeconds⟩ ∈ w'.db.activeSubscriptions := by
    show _ ∈ ((Op.verifyIntent id queryString now).step svc w).db.activeSubscriptions
    rw [Op.run_verifyIntent]
    exact hconfirms.activates.2.1
  have hiff : ∀ x : World, ⟨id, expiresAt now leaseSeconds⟩ ∈ x.db.activeSubscriptions →
      (¬ svc.PollSelects x now id ↔ svc.Outlasts now leaseSeconds ∨ ¬ x.timer.Fires svc.boot now ∨
        x.db.isRenewing id = true) := by
    intro x hx
    unfold Service.PollSelects
    rw [Service.selects_iff_outlasts hx, ← Bool.not_eq_false]
    tauto
  constructor
  · rw [hiff w' ha, hconfirms.idle, hconfirms.timer]
    simp [w]
  · intro after hkept
    refine hiff _ (Runs.final_of_kept (P := fun x : World => _ ∈ x.db.activeSubscriptions) ?_ ha hkept)
    intro x turn hx hkept
    exact (active_turn svc hx turn).resolve_right (by simp [hkept])

/-- There is a subscription that awaits its verification. -/
def granted : List Turn := [.perform (.subscribe ⟨"", [2]⟩ "hub" "other")]

/-- With the margin of 3600 seconds the lease of 10000 seconds is long enough. -/
theorem not_selected_granted :
    Confirms Concurrent.sampleSubscriber (Runs.final (Turn.step Concurrent.sampleSubscriber)
        ⟨.empty, .new none, []⟩ granted) 1 "" 50000 "other" "" 10000 ∧
      ¬ Concurrent.sampleSubscriber.PollSelects (Turn.step Concurrent.sampleSubscriber
        (Runs.final (Turn.step Concurrent.sampleSubscriber) ⟨.empty, .new none, []⟩ granted)
        (.perform (.verifyIntent 1 "" 50000))) 50000 1 := by
  have hconfirms : Confirms Concurrent.sampleSubscriber (Runs.final (Turn.step Concurrent.sampleSubscriber)
      ⟨.empty, .new none, []⟩ granted) 1 "" 50000 "other" "" 10000 := ⟨rfl, by decide⟩
  exact ⟨hconfirms, (not_selected_iff _ (.new none) granted hconfirms).1.mpr (.inl (.inr (by decide)))⟩

/-- The same lease under a margin of 20000 seconds. -/
def wideMargin : Service := { Concurrent.sampleSubscriber with renewalMargin := 20000 }

/-- The subscription is verified, the scheduler polled, and the subscription that renews it verified. -/
def grantedTwice : List Turn :=
  granted ++ [.perform (.verifyIntent 1 "" 50000), .poll 50000 .asStored fun _ => ⟨"", [4]⟩,
    .perform (.verifyIntent 2 "" 50000)]

/-- A lease that is no longer than the margin: the subscription, the one that renews it, and so on are each
selected for renewal at the time at which they are confirmed. -/
theorem selected_wideMargin :
    (Confirms wideMargin (Runs.final (Turn.step wideMargin) ⟨.empty, .new none, []⟩ granted)
        1 "" 50000 "other" "" 10000 ∧
      wideMargin.PollSelects (Runs.final (Turn.step wideMargin) ⟨.empty, .new none, []⟩
        (grantedTwice.take 2)) 50000 1) ∧
    Confirms wideMargin (Runs.final (Turn.step wideMargin) ⟨.empty, .new none, []⟩ (grantedTwice.take 3))
        2 "" 50000 "other" "" 10000 ∧
      wideMargin.PollSelects (Runs.final (Turn.step wideMargin) ⟨.empty, .new none, []⟩ grantedTwice)
        50000 2 := by
  have hthreshold : wideMargin.threshold 50000 = .ok 70001 := by decide
  refine ⟨⟨⟨rfl, by decide⟩, Timer.fires_iff.mpr ⟨by decide, 40000, by decide, by decide⟩, _, hthreshold,
      ⟨1, "hub", "other", ""⟩, ?_, rfl⟩,
    ⟨rfl, by decide⟩, Timer.fires_iff.mpr ⟨by decide, 40000, by decide, by decide⟩, _, hthreshold,
      ⟨2, "hub", "other", ""⟩, ?_, rfl⟩
  · decide
  · decide

end Pipitor.Websub
