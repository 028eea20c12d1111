import Pipitor.Websub.Interleaving

/-!
# Renewal coverage

A subscription is covered where the scheduler's next tick is not after the time at which it is to be
renewed; one that is active, not covered and not being renewed is forgotten. `covered_of_benign` says
in which interleavings every subscription stays covered.

The invariant is about more ticks than the present one: a poll of the scheduler that has asked for the
next expiry holds a tick that it has yet to store, and that tick has to be early enough as well for
whatever happens before the store.
-/

namespace Pipitor.Websub

open Machine Resumption Relational

namespace Service

variable (svc : Service)

/-- `max(0, expires_at - renewal_margin)`. -/
def refreshLimit (expiresAt : Int64) : ℕ := (expiresAt.toInt - svc.renewalMargin.toNat).toNat

/-- The margin can be subtracted from the expiry, or an overflow panics. -/
def Subtracts (expiresAt : Int64) : Prop :=
  svc.overflowChecks = true ∨ svc.renewalMargin ≤ expiresAt.toUInt64

variable {svc}

theorem refreshTime_le {expiresAt : Int64} {tick : UInt64} (hpos : 0 ≤ expiresAt)
    (hsub : svc.Subtracts expiresAt) (h : svc.refreshTime expiresAt.toUInt64 = .ok tick) :
    tick.toNat ≤ svc.refreshLimit expiresAt := by
  have hnat := toNat_toUInt64 hpos
  have hle : svc.renewalMargin ≤ expiresAt.toUInt64 := by
    rcases hsub with hchecks | hle
    · unfold refreshTime subU64 at h
      rw [hchecks] at h
      by_contra hlt
      rw [if_pos (by simpa using hlt)] at h
      cases h
    · exact hle
  have htick : tick = expiresAt.toUInt64 - svc.renewalMargin := by
    unfold refreshTime subU64 at h
    split at h
    · cases h
    · exact (Except.ok.inj h).symm
  rw [htick, UInt64.toNat_sub_of_le _ _ hle]
  rw [UInt64.le_iff_toNat_le] at hle
  unfold refreshLimit
  omega

theorem tickOf_le {expiresAt : Int64} {tick : UInt64}
    (hsub : 0 ≤ expiresAt → svc.Subtracts expiresAt) (h : svc.tickOf expiresAt = .ok tick) :
    tick.toNat ≤ svc.refreshLimit expiresAt := by
  unfold tickOf tryIntoU64 at h
  by_cases hpos : 0 ≤ expiresAt
  · rw [if_pos hpos] at h
    exact refreshTime_le hpos (hsub hpos) h
  · rw [if_neg hpos] at h
    cases h
    exact Nat.zero_le _

theorem tickOf?_some {expiresAt : Int64} {tick? : Option UInt64}
    (h : svc.tickOf? (some expiresAt) = .ok tick?) :
    ∃ tick, svc.tickOf expiresAt = .ok tick ∧ tick? = some tick := by
  unfold tickOf? at h
  dsimp only at h
  split at h
  · rename_i tick htick
    cases h
    exact ⟨tick, htick, rfl⟩
  · cases h

theorem refreshLimit_mono {e e' : Int64} (h : e ≤ e') : svc.refreshLimit e ≤ svc.refreshLimit e' := by
  rw [Int64.le_iff_toInt_le] at h
  unfold refreshLimit
  omega

/-- The tick for the earliest expiry is in time for all of them. -/
theorem tickOf?_min_le {expiries : List Int64} {tick? : Option UInt64} {e : Int64}
    (hsub : ∀ e ∈ expiries.min?, 0 ≤ e → svc.Subtracts e) (h : svc.tickOf? expiries.min? = .ok tick?)
    (he : e ∈ expiries) : (tick?.getD Timer.never).toNat ≤ svc.refreshLimit e := by
  cases hmin : expiries.min? with
  | none =>
    rw [List.min?_eq_none_iff.mp hmin] at he
    cases he
  | some first =>
    have hle : first ≤ e := (List.min?_eq_some_iff.mp hmin).2 e he
    rw [hmin] at h
    obtain ⟨tick, htick, rfl⟩ := tickOf?_some h
    exact (tickOf_le (hsub first hmin) htick).trans (refreshLimit_mono hle)

end Service

theorem expiresAt_nonneg (now leaseSeconds : UInt64) : 0 ≤ expiresAt now leaseSeconds := by
  unfold expiresAt
  cases h : tryIntoI64 (saturatingAdd now leaseSeconds) with
  | none => decide
  | some e =>
    rw [Option.getD_some, Int64.le_iff_toInt_le, tryIntoI64_eq_some h]
    exact Int.natCast_nonneg _

/-- Every active subscription that is not being renewed is renewed in time. -/
def Covered (svc : Service) (w : World) : Prop :=
  ∀ a ∈ w.db.activeSubscriptions, w.db.isRenewing a.id = false →
    w.timer.nextTick.toNat ≤ svc.refreshLimit a.expiresAt

theorem covered_new {svc : Service} {db : Database} {timer : Timer}
    (hsub : ∀ a ∈ db.activeSubscriptions, 0 ≤ a.expiresAt → svc.Subtracts a.expiresAt)
    {now : UInt64} (h : svc.newTimer now db = .ok timer) : Covered svc ⟨db, timer, []⟩ := by
  intro a ha _
  unfold Service.newTimer at h
  split at h
  · rename_i tick? htick?
    obtain rfl := Timer.spawn_eq_ok h
    refine Service.tickOf?_min_le (fun e he => ?_) htick? (List.mem_map.mpr ⟨a, ha, rfl⟩)
    obtain ⟨a', ha', rfl⟩ := List.mem_map.mp (List.min?_mem he)
    exact hsub a' ha'
  · cases h

/-! ### The conditions on the steps -/

namespace Concurrent

/-- A poll of the scheduler has computed this tick and has yet to store it. -/
def Holds (s : Concurrent) (tick : UInt64) : Prop :=
  ∃ boot now tick?, .poll (Scheduler.rearm boot now tick?) ∈ s.threads ∧ tick = tick?.getD Timer.never

/-- The next tick, or one that is to be stored as such. -/
def Ticks (s : Concurrent) (tick : UInt64) : Prop := tick = s.world.timer.nextTick ∨ s.Holds tick

/-- The next action of the thread ends the renewal of a subscription that stays active. -/
def Frees (svc : Service) (s : Concurrent) (i : ℕ) (a : ActiveSubscription) : Prop :=
  a ∈ (s.step svc (.act i)).world.db.activeSubscriptions ∧ s.world.db.isRenewing a.id = true ∧
    (s.step svc (.act i)).world.db.isRenewing a.id = false

/-- An action that forgets no subscription. A renewal ends together with the old subscription or before
that is to be renewed; no verification is between its `hasten` and its end when the scheduler asks for
the next expiry, and none hastens until the scheduler has stored the answer, unless the answer is
early enough for the subscription anyway. -/
structure Heeds (svc : Service) (s : Concurrent) (i : ℕ) : Prop where
  frees : ∀ a, s.Frees svc i a → ∀ tick, s.Ticks tick → tick.toNat ≤ svc.refreshLimit a.expiresAt
  asks : ∀ now, s.threads[i]? = some (.poll (svc.storeNextTick now)) →
    ∀ tick?, svc.tickOf? s.world.db.nextExpiry = .ok tick? →
      ∀ t ∈ s.threads, ∀ expiresAt, t.HasHastened svc expiresAt →
        (tick?.getD Timer.never).toNat ≤ svc.refreshLimit expiresAt
  hastens : ∀ id topic challenge leaseSeconds now,
    s.threads[i]? = some (.verifyIntent (svc.confirm id topic challenge leaseSeconds now)) →
      ∀ tick, s.Holds tick → tick.toNat ≤ svc.refreshLimit (expiresAt now leaseSeconds)

/-- The steps that forget no subscription. The margin can be subtracted from the expiry that a hub
asks for. -/
def Benign (svc : Service) (s : Concurrent) : Event → Prop
  | .start (.verifyIntent _ queryString now) => ∀ topic challenge leaseSeconds,
      svc.lib.parseVerify queryString = some (.subscribe topic challenge leaseSeconds) →
        svc.Subtracts (expiresAt now leaseSeconds)
  | .act i => s.Heeds svc i
  | _ => True

/-- A subscription is forgotten for good. -/
def Forgets (svc : Service) (s : Concurrent) : Prop := s.Quiescent ∧ ¬ Covered svc s.world

end Concurrent

/-! ### One action of one thread -/

/-- What is known of a thread, where `ticks` are the present and the coming ticks. -/
inductive Thread.Sound (svc : Service) (ticks : UInt64 → Prop) : Thread → Prop
  | received {id : Int64} {queryString : String} {now : UInt64}
      (h : ∀ topic challenge leaseSeconds,
        svc.lib.parseVerify queryString = some (.subscribe topic challenge leaseSeconds) →
          svc.Subtracts (expiresAt now leaseSeconds)) :
      Sound svc ticks (.verifyIntent (svc.verifyIntent id queryString now))
  | unverified {id : Int64} {topic challenge : String} {leaseSeconds now : UInt64}
      (h : svc.Subtracts (expiresAt now leaseSeconds)) :
      Sound svc ticks (.verifyIntent (svc.confirm id topic challenge leaseSeconds now))
  | hastened {id expiresAt : Int64} {topic challenge : String} {p : Prog World Abort Response}
      (h : Prog.Residual (svc.switchOver id expiresAt topic challenge) p)
      (hsub : svc.Subtracts expiresAt)
      (hticks : ∀ tick, ticks tick → tick.toNat ≤ svc.refreshLimit expiresAt) :
      Sound svc ticks (.verifyIntent p)
  | ended {p : Prog World Abort Response} (h : ¬ p.UnderWay) : Sound svc ticks (.verifyIntent p)
  | asking {p : Prog World Abort Unit} (h : Prog.Until Quiet svc.Stores p) : Sound svc ticks (.poll p)
  | holding (boot now : UInt64) (tick? : Option UInt64) : Sound svc ticks (.poll (Scheduler.rearm boot now tick?))
  | operation {p : Prog World Abort Unit} (h : Prog.Always Quiet p) : Sound svc ticks (.operation p)

namespace Thread.Sound

variable {svc : Service} {ticks ticks' : UInt64 → Prop} {t : Thread}

/-- The ticks matter to the threads that have hastened the scheduler only. -/
theorem of_ticks (h : t.Sound svc ticks)
    (hticks : ∀ expiresAt, t.HasHastened svc expiresAt →
      (∀ tick, ticks tick → tick.toNat ≤ svc.refreshLimit expiresAt) →
        ∀ tick, ticks' tick → tick.toNat ≤ svc.refreshLimit expiresAt) : t.Sound svc ticks' := by
  cases h with
  | received h => exact .received h
  | unverified h => exact .unverified h
  | @hastened id expiresAt topic challenge p h hsub hle =>
    by_cases hp : p.UnderWay
    · exact .hastened h hsub (hticks expiresAt ⟨hp, id, topic, challenge, h⟩ hle)
    · exact .ended hp
  | ended h => exact .ended h
  | asking h => exact .asking h
  | holding boot now tick? => exact .holding boot now tick?
  | operation h => exact .operation h

theorem ofOp {s : Concurrent} {op : Op} (h : s.Benign svc (.start op)) :
    (Thread.ofOp svc op).Sound svc ticks := by
  cases op with
  | subscribe draw hub topic =>
    exact .operation ((Quiet.permits.always_subscribe svc draw hub topic).bind fun task =>
      Quiet.permits.removes.always_spawn task)
  | renewSubscriptions now order draws =>
    exact .operation (always_renewSubscriptions svc now order draws)
  | verifyIntent id queryString now => exact .received h
  | unsubscribe id hub topic =>
    exact .operation ((Quiet.permits.removes.always_unsubscribe svc id hub topic).bind fun task =>
      Quiet.permits.removes.always_spawn task)
  | unsubscribeAll order topic => exact .operation (Quiet.permits.removes.always_unsubscribeAll svc order topic)
  | removeDanglingSubscriptions => exact .operation (Prog.always_modify fun w => quiet_delete _ w)

theorem act_received (w : World) (id : Int64) {queryString : String} {now : UInt64}
    (h : ∀ topic challenge leaseSeconds,
      svc.lib.parseVerify queryString = some (.subscribe topic challenge leaseSeconds) →
        svc.Subtracts (expiresAt now leaseSeconds)) :
    ((svc.verifyIntent id queryString now).act w).2 = w ∧
      (Thread.verifyIntent ((svc.verifyIntent id queryString now).act w).1).Sound svc ticks := by
  unfold Service.verifyIntent
  split
  · rename_i topic challenge leaseSeconds hparse
    refine ⟨rfl, ?_⟩
    show (Thread.verifyIntent (if w.db.isUnverified id topic = true then _ else _)).Sound svc ticks
    split
    · exact .unverified (h _ _ _ hparse)
    · exact .ended fun h => h
  · rename_i topic challenge hparse
    refine ⟨rfl, .ended ?_⟩
    show ¬ Prog.UnderWay (if (!w.db.isSubscribed id topic) = true then _ else _)
    split
    · exact fun h => h
    · exact fun h => h
  · exact ⟨rfl, .ended fun h => h⟩

theorem act_operation {p : Prog World Abort Unit} (h : Prog.Always Quiet p) (w : World) :
    Quiet w (p.act w).2 ∧ Prog.Always Quiet (p.act w).1 := by
  cases p with
  | done u => exact ⟨Quiet.refl w, h⟩
  | abort e => exact ⟨Quiet.refl w, h⟩
  | step update next => exact h.next w

end Thread.Sound

/-! ### The answer to a verification -/

/-- A verification begins with the `hasten`, where the margin can be subtracted. -/
theorem confirm_cases (svc : Service) (id : Int64) (topic challenge : String)
    (leaseSeconds now : UInt64) :
    (∃ e, svc.confirm id topic challenge leaseSeconds now = .abort e) ∨
      ∃ tick, svc.refreshTime (expiresAt now leaseSeconds).toUInt64 = .ok tick ∧
        svc.confirm id topic challenge leaseSeconds now =
          .step (fun w => { w with timer := w.timer.hasten tick })
            fun _ => svc.switchOver id (expiresAt now leaseSeconds) topic challenge := by
  unfold Service.confirm
  dsimp only
  cases svc.refreshTime (expiresAt now leaseSeconds).toUInt64 with
  | error e => exact Or.inl ⟨e, rfl⟩
  | ok tick => exact Or.inr ⟨tick, rfl, rfl⟩

theorem act_confirm (svc : Service) (w : World) (id : Int64) (topic challenge : String)
    (leaseSeconds now : UInt64) :
    ((svc.confirm id topic challenge leaseSeconds now).act w).2.db = w.db ∧
      ((svc.confirm id topic challenge leaseSeconds now).act w).2.timer.nextTick ≤
        w.timer.nextTick := by
  rcases confirm_cases svc id topic challenge leaseSeconds now with ⟨e, heq⟩ | ⟨tick, -, heq⟩
  · rw [heq]
    exact ⟨rfl, UInt64.le_refl _⟩
  · rw [heq]
    exact ⟨rfl, Std.min_le_left⟩

/-- The `hasten` brings the next tick forward to where the subscription needs it. -/
theorem Thread.Sound.act_unverified {svc : Service} {ticks : UInt64 → Prop} (w : World) (id : Int64)
    (topic challenge : String) {leaseSeconds now : UInt64}
    (h : svc.Subtracts (expiresAt now leaseSeconds))
    (hticks : ∀ tick, ticks tick → tick.toNat ≤ svc.refreshLimit (expiresAt now leaseSeconds) ∨
      tick = ((svc.confirm id topic challenge leaseSeconds now).act w).2.timer.nextTick) :
    (Thread.verifyIntent ((svc.confirm id topic challenge leaseSeconds now).act w).1).Sound svc
      ticks := by
  rcases confirm_cases svc id topic challenge leaseSeconds now with ⟨e, heq⟩ | ⟨tick, htick, heq⟩
  · rw [heq]
    exact .ended fun h => h
  · rw [heq] at hticks ⊢
    refine .hastened .start h fun tick' htick' => ?_
    rcases hticks tick' htick' with hle | rfl
    · exact hle
    · have hmin : min w.timer.nextTick tick ≤ tick := Std.min_le_right
      exact (UInt64.le_iff_toNat_le.mp hmin).trans
        (Service.refreshTime_le (expiresAt_nonneg now leaseSeconds) h htick)

theorem act_hastened {svc : Service} {id expiresAt : Int64} {topic challenge : String}
    {p : Prog World Abort Response} (h : Prog.Residual (svc.switchOver id expiresAt topic challenge) p)
    (w : World) : Inserts expiresAt w (p.act w).2 ∧
      Prog.Residual (svc.switchOver id expiresAt topic challenge) (p.act w).1 := by
  cases p with
  | done r => exact ⟨Inserts.refl expiresAt w, h⟩
  | abort e => exact ⟨Inserts.refl expiresAt w, h⟩
  | step update next =>
    exact ⟨((h.always (always_switchOver svc id expiresAt topic challenge)).next w).1, .next h w⟩

/-! ### The scheduler -/

theorem nextTick_rearm (boot now : UInt64) (tick? : Option UInt64) (w : World) :
    ((Scheduler.rearm boot now tick?).act w).2.timer.nextTick = tick?.getD Timer.never := by
  cases tick? <;> rfl

theorem db_rearm (boot now : UInt64) (tick? : Option UInt64) (w : World) :
    ((Scheduler.rearm boot now tick?).act w).2.db = w.db := by
  cases tick? <;> rfl

/-- After the store of the next tick it stays. -/
theorem asking_act_rearm (svc : Service) (boot now : UInt64) (tick? : Option UInt64) (w : World) :
    Prog.Until Quiet svc.Stores ((Scheduler.rearm boot now tick?).act w).1 := by
  cases tick? with
  | none => exact .step (fun _ => ⟨rfl, fun _ => id⟩) fun _ => .done ()
  | some tick =>
    refine (always_tryTimer fun t t' h => ?_).until
    rw [Timer.nextTick_reset h]

theorem quiet_act_asking {svc : Service} {p : Prog World Abort Unit}
    (h : Prog.Until Quiet svc.Stores p) (w : World) : Quiet w (p.act w).2 := by
  cases h with
  | reached h =>
    obtain ⟨now, rfl⟩ := h
    exact Quiet.refl w
  | done u => exact Quiet.refl w
  | abort e => exact Quiet.refl w
  | step hguar hnext => exact hguar w

/-- A poll that has yet to ask for the next expiry holds no tick. -/
theorem not_asking_rearm {svc : Service} {boot now : UInt64} {tick? : Option UInt64} :
    ¬ Prog.Until Quiet svc.Stores (Scheduler.rearm boot now tick?) := by
  intro h
  have hkeeps : ∀ w : World, tick?.getD Timer.never = w.timer.nextTick := by
    intro w
    rw [← nextTick_rearm boot now tick? w]
    exact (quiet_act_asking h w).nextTick
  have hzero := hkeeps ⟨.empty, .new (some 0), []⟩
  rw [hkeeps ⟨.empty, .new (some 1), []⟩] at hzero
  exact absurd hzero (by decide)

/-! ### Whole runs -/

namespace Concurrent

/-- Every tick is early enough for the active subscriptions that are not being renewed and for those
for which a verification has hastened the scheduler. -/
structure Sound (svc : Service) (s : Concurrent) : Prop where
  subtracts : ∀ a ∈ s.world.db.activeSubscriptions, 0 ≤ a.expiresAt → svc.Subtracts a.expiresAt
  covered : ∀ tick, s.Ticks tick → ∀ a ∈ s.world.db.activeSubscriptions,
    s.world.db.isRenewing a.id = false → tick.toNat ≤ svc.refreshLimit a.expiresAt
  threads : ∀ t ∈ s.threads, t.Sound svc s.Ticks

variable {svc : Service} {s : Concurrent} {t : Thread} {w : World} {i : ℕ}

theorem Holds.of_append {tick : UInt64} (ht : ∀ boot now tick?, t ≠ .poll (Scheduler.rearm boot now tick?))
    (h : Holds ⟨w, s.threads ++ [t]⟩ tick) : s.Holds tick := by
  obtain ⟨boot, now, tick?, hmem, htick⟩ := h
  rcases List.mem_append.mp hmem with hold | hnew
  · exact ⟨boot, now, tick?, hold, htick⟩
  · exact absurd (List.mem_singleton.mp hnew).symm (ht boot now tick?)

theorem Holds.of_set {tick : UInt64} (h : Holds ⟨w, s.threads.set i t⟩ tick) :
    s.Holds tick ∨ ∃ boot now tick?, t = .poll (Scheduler.rearm boot now tick?) ∧ tick = tick?.getD Timer.never := by
  obtain ⟨boot, now, tick?, hmem, htick⟩ := h
  rcases List.mem_or_eq_of_mem_set hmem with hold | hnew
  · exact Or.inl ⟨boot, now, tick?, hold, htick⟩
  · exact Or.inr ⟨boot, now, tick?, hnew.symm, htick⟩

theorem Sound.start {db : Database} {timer : Timer}
    (hsub : ∀ a ∈ db.activeSubscriptions, 0 ≤ a.expiresAt → svc.Subtracts a.expiresAt)
    {now : UInt64} (hnew : svc.newTimer now db = .ok timer) : Sound svc (start db timer) where
  subtracts := hsub
  covered := by
    rintro tick (rfl | ⟨boot, now, tick?, hmem, -⟩) a ha hidle
    · exact covered_new hsub hnew a ha hidle
    · cases hmem
  threads := by
    intro t ht
    cases ht

theorem Sound.spawn (h : Sound svc s) (ht : t.Sound svc s.Ticks)
    (hpoll : ∀ boot now tick?, t ≠ .poll (Scheduler.rearm boot now tick?)) :
    Sound svc { s with threads := s.threads ++ [t] } := by
  have hticks : ∀ tick, Ticks { s with threads := s.threads ++ [t] } tick → s.Ticks tick := by
    rintro tick (rfl | hholds)
    · exact Or.inl rfl
    · exact Or.inr (hholds.of_append hpoll)
  refine ⟨h.subtracts, fun tick htick => h.covered tick (hticks tick htick), fun t' ht' => ?_⟩
  have hsound : t'.Sound svc s.Ticks := by
    rcases List.mem_append.mp ht' with hold | hnew
    · exact h.threads t' hold
    · rwa [List.mem_singleton.mp hnew]
  exact hsound.of_ticks fun expiresAt _ hle tick htick => hle tick (hticks tick htick)

theorem Ticks.of_set {tick : UInt64} (h : Ticks ⟨w, s.threads.set i t⟩ tick)
    (hnext : ∃ tick₀, s.Ticks tick₀ ∧ w.timer.nextTick ≤ tick₀)
    (hpoll : ∀ boot now tick?, t ≠ .poll (Scheduler.rearm boot now tick?)) : ∃ tick₀, s.Ticks tick₀ ∧ tick ≤ tick₀ := by
  rcases h with rfl | hholds
  · exact hnext
  · rcases hholds.of_set with hold | ⟨boot, now, tick?, heq, -⟩
    · exact ⟨tick, Or.inr hold, UInt64.le_refl _⟩
    · exact absurd heq (hpoll boot now tick?)

/-- An action that adds no later tick and only subscriptions for which the ticks are early enough. -/
theorem Sound.of_act (h : Sound svc s) (hheeds : s.Heeds svc i)
    (hstep : s.step svc (.act i) = ⟨w, s.threads.set i t⟩)
    (hnext : ∃ tick₀, s.Ticks tick₀ ∧ w.timer.nextTick ≤ tick₀)
    (hpoll : ∀ boot now tick?, t ≠ .poll (Scheduler.rearm boot now tick?))
    (hactive : ∀ a ∈ w.db.activeSubscriptions, a ∈ s.world.db.activeSubscriptions ∨
      svc.Subtracts a.expiresAt ∧ ∀ tick, s.Ticks tick → tick.toNat ≤ svc.refreshLimit a.expiresAt)
    (ht : t.Sound svc (Ticks ⟨w, s.threads.set i t⟩)) : Sound svc ⟨w, s.threads.set i t⟩ where
  subtracts := by
    intro a ha
    rcases hactive a ha with hold | ⟨hsub, -⟩
    · exact h.subtracts a hold
    · exact fun _ => hsub
  covered := by
    intro tick htick a ha hidle
    obtain ⟨tick₀, htick₀, hle⟩ := htick.of_set hnext hpoll
    refine (UInt64.le_iff_toNat_le.mp hle).trans ?_
    rcases hactive a ha with hold | ⟨-, hearly⟩
    · cases hwas : s.world.db.isRenewing a.id with
      | true =>
        have hfrees : s.Frees svc i a := by
          unfold Frees
          rw [hstep]
          exact ⟨ha, hwas, hidle⟩
        exact hheeds.frees a hfrees tick₀ htick₀
      | false => exact h.covered tick₀ htick₀ a hold hwas
    · exact hearly tick₀ htick₀
  threads := by
    intro t' ht'
    rcases List.mem_or_eq_of_mem_set ht' with hold | rfl
    · refine (h.threads t' hold).of_ticks fun expiresAt _ hbefore tick htick => ?_
      obtain ⟨tick₀, htick₀, hle⟩ := htick.of_set hnext hpoll
      exact (UInt64.le_iff_toNat_le.mp hle).trans (hbefore tick₀ htick₀)
    · exact ht

theorem Sound.of_quiet (h : Sound svc s) (hheeds : s.Heeds svc i)
    (hstep : s.step svc (.act i) = ⟨w, s.threads.set i t⟩) (hquiet : Quiet s.world w)
    (hpoll : ∀ boot now tick?, t ≠ .poll (Scheduler.rearm boot now tick?))
    (ht : t.Sound svc (Ticks ⟨w, s.threads.set i t⟩)) : Sound svc ⟨w, s.threads.set i t⟩ := by
  have hnext : w.timer.nextTick ≤ s.world.timer.nextTick := by
    rw [hquiet.nextTick]
    exact UInt64.le_refl _
  exact h.of_act hheeds hstep ⟨_, Or.inl rfl, hnext⟩ hpoll (fun a ha => Or.inl (hquiet.active a ha)) ht

/-- The scheduler asks for the next expiry: its answer is early enough for the subscriptions that are
there. -/
theorem Sound.ask (h : Sound svc s) {now : UInt64} (hi : s.threads[i]? = some (.poll (svc.storeNextTick now)))
    (hheeds : s.Heeds svc i) {tick? : Option UInt64}
    (htick? : svc.tickOf? s.world.db.nextExpiry = .ok tick?) :
    Sound svc ⟨s.world, s.threads.set i (.poll (Scheduler.rearm svc.boot now tick?))⟩ := by
  have hticks : ∀ tick, Ticks ⟨s.world, s.threads.set i (.poll (Scheduler.rearm svc.boot now tick?))⟩ tick →
      s.Ticks tick ∨ tick = tick?.getD Timer.never := by
    rintro tick (rfl | hholds)
    · exact Or.inl (Or.inl rfl)
    · rcases hholds.of_set with hold | ⟨boot', now', tick?', heq, rfl⟩
      · exact Or.inl (Or.inr hold)
      · right
        have hsame := congrArg (fun p : Prog World Abort Unit => (p.act s.world).2.timer.nextTick)
          (Thread.poll.inj heq)
        simpa only [nextTick_rearm] using hsame.symm
  refine ⟨h.subtracts, fun tick htick a ha hidle => ?_, fun t ht => ?_⟩
  · rcases hticks tick htick with hold | rfl
    · exact h.covered tick hold a ha hidle
    · refine Service.tickOf?_min_le (fun e he => ?_) htick?
        (List.mem_map.mpr ⟨a, List.mem_filter.mpr ⟨ha, by simpa using hidle⟩, rfl⟩)
      obtain ⟨a', ha', rfl⟩ := List.mem_map.mp (List.min?_mem he)
      exact h.subtracts a' (List.mem_filter.mp ha').1
  · rcases List.mem_or_eq_of_mem_set ht with hold | rfl
    · refine (h.threads t hold).of_ticks fun expiresAt hhastened hbefore tick htick => ?_
      rcases hticks tick htick with htick | rfl
      · exact hbefore tick htick
      · exact hheeds.asks now hi tick? htick? t hold expiresAt hhastened
    · exact .holding svc.boot now tick?

/-- A poll that holds no tick adds none, unless it asks for the next expiry. -/
theorem Sound.act_asking (h : Sound svc s) (hheeds : s.Heeds svc i) {p : Prog World Abort Unit}
    (hi : s.threads[i]? = some (.poll p))
    (hstep : s.step svc (.act i) = ⟨(p.act s.world).2, s.threads.set i (.poll (p.act s.world).1)⟩)
    (hask : Prog.Until Quiet svc.Stores p) :
    Sound svc ⟨(p.act s.world).2, s.threads.set i (.poll (p.act s.world).1)⟩ := by
  have hquiet := quiet_act_asking hask s.world
  have hnext : ∀ {q : Prog World Abort Unit}, Prog.Until Quiet svc.Stores q →
      s.step svc (.act i) = ⟨(p.act s.world).2, s.threads.set i (.poll q)⟩ →
        Sound svc ⟨(p.act s.world).2, s.threads.set i (.poll q)⟩ := by
    intro q hq hstep
    exact h.of_quiet hheeds hstep hquiet
      (fun _ _ _ heq => not_asking_rearm (Thread.poll.inj heq ▸ hq)) (.asking hq)
  cases hask with
  | reached heq =>
    obtain ⟨now, rfl⟩ := heq
    cases htick? : svc.tickOf? s.world.db.nextExpiry with
    | error e =>
      have hrest : ((svc.storeNextTick now).act s.world).1 = .abort e := by
        show Prog.ofExcept (svc.tickOf? s.world.db.nextExpiry) >>= Scheduler.rearm svc.boot now = _
        rw [htick?]
        rfl
      rw [hrest] at hstep ⊢
      exact hnext (.abort e) hstep
    | ok tick? =>
      have hrest : ((svc.storeNextTick now).act s.world).1 = Scheduler.rearm svc.boot now tick? := by
        show Prog.ofExcept (svc.tickOf? s.world.db.nextExpiry) >>= Scheduler.rearm svc.boot now = _
        rw [htick?]
        rfl
      rw [hrest]
      exact h.ask hi hheeds htick?
  | done u => exact hnext (.done u) hstep
  | abort e => exact hnext (.abort e) hstep
  | step hguar hrest => exact hnext (hrest s.world) hstep

theorem Sound.act_holding (h : Sound svc s) (hheeds : s.Heeds svc i) {boot now : UInt64} {tick? : Option UInt64}
    (hi : s.threads[i]? = some (.poll (Scheduler.rearm boot now tick?)))
    (hstep : s.step svc (.act i) = ⟨((Scheduler.rearm boot now tick?).act s.world).2,
      s.threads.set i (.poll ((Scheduler.rearm boot now tick?).act s.world).1)⟩) :
    Sound svc ⟨((Scheduler.rearm boot now tick?).act s.world).2,
      s.threads.set i (.poll ((Scheduler.rearm boot now tick?).act s.world).1)⟩ := by
  have hnext := asking_act_rearm svc boot now tick? s.world
  have hle : ((Scheduler.rearm boot now tick?).act s.world).2.timer.nextTick ≤ tick?.getD Timer.never := by
    rw [nextTick_rearm]
    exact UInt64.le_refl _
  refine h.of_act hheeds hstep ⟨_, Or.inr ⟨boot, now, tick?, List.mem_of_getElem? hi, rfl⟩, hle⟩
    (fun _ _ _ heq => not_asking_rearm (Thread.poll.inj heq ▸ hnext)) (fun a ha => Or.inl ?_)
    (.asking hnext)
  rw [← db_rearm boot now tick? s.world]
  exact ha

theorem Sound.act_unverified (h : Sound svc s) (hheeds : s.Heeds svc i) {id : Int64}
    {topic challenge : String} {leaseSeconds now : UInt64}
    (hi : s.threads[i]? =
      some (.verifyIntent (svc.confirm id topic challenge leaseSeconds now)))
    (hstep : s.step svc (.act i) =
      ⟨((svc.confirm id topic challenge leaseSeconds now).act s.world).2, s.threads.set i
        (.verifyIntent ((svc.confirm id topic challenge leaseSeconds now).act s.world).1)⟩)
    (hsub : svc.Subtracts (expiresAt now leaseSeconds)) :
    Sound svc ⟨((svc.confirm id topic challenge leaseSeconds now).act s.world).2, s.threads.set i
      (.verifyIntent ((svc.confirm id topic challenge leaseSeconds now).act s.world).1)⟩ := by
  obtain ⟨hdb, hle⟩ := act_confirm svc s.world id topic challenge leaseSeconds now
  refine h.of_act hheeds hstep ⟨_, Or.inl rfl, hle⟩ (fun _ _ _ => Thread.noConfusion)
    (fun a ha => Or.inl ?_) (Thread.Sound.act_unverified s.world id topic challenge hsub ?_)
  · rw [← hdb]
    exact ha
  · rintro tick (rfl | hholds)
    · exact Or.inr rfl
    · rcases hholds.of_set with hold | ⟨boot', now', tick?, heq, -⟩
      · exact Or.inl (hheeds.hastens id topic challenge leaseSeconds now hi tick hold)
      · cases heq

theorem Sound.act_hastened (h : Sound svc s) (hheeds : s.Heeds svc i) {id expiresAt : Int64}
    {topic challenge : String} {p : Prog World Abort Response}
    (hstep : s.step svc (.act i) =
      ⟨(p.act s.world).2, s.threads.set i (.verifyIntent (p.act s.world).1)⟩)
    (hres : Prog.Residual (svc.switchOver id expiresAt topic challenge) p)
    (hsub : svc.Subtracts expiresAt)
    (hticks : ∀ tick, s.Ticks tick → tick.toNat ≤ svc.refreshLimit expiresAt) :
    Sound svc ⟨(p.act s.world).2, s.threads.set i (.verifyIntent (p.act s.world).1)⟩ := by
  obtain ⟨hinserts, hrest⟩ := Websub.act_hastened hres s.world
  have hnext : (p.act s.world).2.timer.nextTick ≤ s.world.timer.nextTick := by
    rw [hinserts.timer]
    exact UInt64.le_refl _
  refine h.of_act hheeds hstep ⟨_, Or.inl rfl, hnext⟩ (fun _ _ _ => Thread.noConfusion)
    (fun a ha => ?_) (.hastened hrest hsub fun tick htick => ?_)
  · rcases hinserts.active a ha with hold | heq
    · exact Or.inl hold
    · rw [heq]
      exact Or.inr ⟨hsub, hticks⟩
  · obtain ⟨tick₀, htick₀, hle⟩ := htick.of_set ⟨_, Or.inl rfl, hnext⟩ fun _ _ _ => Thread.noConfusion
    exact (UInt64.le_iff_toNat_le.mp hle).trans (hticks tick₀ htick₀)

theorem Sound.act (h : Sound svc s) (hheeds : s.Heeds svc i) : Sound svc (s.step svc (.act i)) := by
  cases hi : s.threads[i]? with
  | none =>
    rw [show s.step svc (.act i) = s by simp [step, hi]]
    exact h
  | some t =>
    have hstep : s.step svc (.act i) = ⟨(t.act s.world).2, s.threads.set i (t.act s.world).1⟩ := by
      simp [step, hi]
    rw [hstep]
    cases h.threads t (List.mem_of_getElem? hi) with
    | @received id queryString now hsub =>
      obtain ⟨hsame, hnext⟩ := Thread.Sound.act_received s.world id hsub
      refine h.of_quiet hheeds hstep ?_ (fun _ _ _ => Thread.noConfusion) hnext
      show Quiet s.world ((svc.verifyIntent id queryString now).act s.world).2
      rw [hsame]
      exact Quiet.refl s.world
    | unverified hsub => exact h.act_unverified hheeds hi hstep hsub
    | hastened hres hsub hticks => exact h.act_hastened hheeds hstep hres hsub hticks
    | @ended p hend =>
      have hsame : Thread.act (.verifyIntent p) s.world = (.verifyIntent p, s.world) := by
        show (Thread.verifyIntent (p.act s.world).1, (p.act s.world).2) = _
        rw [Prog.act_of_not_underWay hend]
      rw [hsame] at hstep ⊢
      exact h.of_quiet hheeds hstep (Quiet.refl s.world) (fun _ _ _ => Thread.noConfusion) (.ended hend)
    | asking hask => exact h.act_asking hheeds hi hstep hask
    | holding boot now tick? => exact h.act_holding hheeds hi hstep
    | operation hop =>
      obtain ⟨hquiet, hnext⟩ := Thread.Sound.act_operation hop s.world
      exact h.of_quiet hheeds hstep hquiet (fun _ _ _ => Thread.noConfusion) (.operation hnext)

theorem Sound.step (h : Sound svc s) (event : Event) (hbenign : s.Benign svc event) :
    Sound svc (s.step svc event) := by
  cases event with
  | start op =>
    refine h.spawn (.ofOp hbenign) fun _ _ tick? heq => ?_
    cases op <;> cases heq
  | unsubscribeCommand ids =>
    exact h.spawn (.operation (Quiet.permits.removes.always_delete _)) fun _ _ _ => Thread.noConfusion
  | poll now order draws =>
    unfold Concurrent.step
    dsimp only
    split
    · exact h
    · have hask := until_poll svc now order draws
      exact h.spawn (.asking hask) fun _ _ _ heq => not_asking_rearm (Thread.poll.inj heq ▸ hask)
  | act i => exact h.act hbenign

/-- **No subscription is forgotten as long as every step is benign**: throughout such a run from the
start of the subscriber every active subscription that is not being renewed is covered by the
scheduler's next tick, whether or not something is half-way. -/
theorem covered_of_benign {db : Database} {timer : Timer} {now : UInt64} (hnew : svc.newTimer now db = .ok timer)
    (hsub : ∀ a ∈ db.activeSubscriptions, 0 ≤ a.expiresAt → svc.Subtracts a.expiresAt)
    {run : List Event}
    (hrun : ∀ m ∈ Runs.moves (Concurrent.step svc) (start db timer) run, m.1.Benign svc m.2) :
    ∀ s ∈ Runs.states (Concurrent.step svc) (start db timer) run, Covered svc s.world := by
  intro s hs a ha hidle
  have hsound := Runs.always_of_moves (I := Sound svc) (fun _ event h hb => h.step event hb)
    (Sound.start hsub hnew) hrun s hs
  exact hsound.covered _ (Or.inl rfl) a ha hidle

/-! ### Two subscriptions -/

/-- A service for which every request asks for a lease of 10000 seconds for the topic `other`. -/
def sampleSubscriber : Service where
  callback := ⟨some "https", some "example.com", some "/"⟩
  renewalMargin := 3600
  overflowChecks := true
  boot := 0
  lib :=
    { base64 := fun _ => ""
      isUri := fun _ => true
      isPathAndQuery := fun _ => true
      isUriParts := fun _ => true
      parseVerify := fun _ => some (.subscribe "other" "" 10000) }

/-- Subscription 2 is to replace subscription 1, which expires at 10000. -/
def renewed : Database where
  subscriptions := ⟨[⟨1, "hub", "topic", ""⟩, ⟨2, "hub", "topic", ""⟩], by decide⟩
  activeSubscriptions := ⟨[⟨1, 10000⟩], by decide⟩
  pendingSubscriptions := ⟨[⟨2⟩], by decide⟩
  renewingSubscriptions := ⟨[⟨1, 2⟩], by decide⟩
  old_unique := by simp [Table.mem_def]
  active_references := by simp [Table.mem_def, Table.hasKey]
  pending_references := by simp [Table.mem_def, Table.hasKey]
  old_references := by simp [Table.mem_def, Table.hasKey]
  new_references := by simp [Table.mem_def, Table.hasKey]

/-- Subscription 1 expires at 10000, subscription 2 to another topic is to be verified. -/
def unverified : Database :=
  { Database.empty with
    subscriptions := ⟨[⟨1, "hub", "topic", ""⟩, ⟨2, "hub", "other", ""⟩], by decide⟩
    activeSubscriptions := ⟨[⟨1, 10000⟩], by decide⟩
    pendingSubscriptions := ⟨[⟨2⟩], by decide⟩
    active_references := by simp [Table.mem_def, Table.hasKey]
    pending_references := by simp [Table.mem_def, Table.hasKey]
    old_references := by simp [Database.empty]
    new_references := by simp [Database.empty] }

/-- The removal of dangling subscriptions comes before the first poll. -/
theorem covered_removedFirst :
    sampleSubscriber.newTimer 0 renewed = .ok (.new (some 6400)) ∧
      ∀ s ∈ Runs.states (Concurrent.step sampleSubscriber) (start renewed (.new (some 6400)))
        [.start .removeDanglingSubscriptions, .act 0], Covered sampleSubscriber s.world := by
  have hnew : sampleSubscriber.newTimer 0 renewed = .ok (.new (some 6400)) := by decide
  refine ⟨hnew, covered_of_benign hnew (fun _ _ _ => Or.inl rfl) ?_⟩
  intro m hm
  rcases List.mem_cons.mp hm with rfl | hm
  · trivial
  · obtain rfl := List.mem_singleton.mp hm
    refine ⟨?_, fun _ h => (nomatch h), fun _ _ _ _ _ h => (nomatch h)⟩
    rintro a ⟨ha, -, -⟩ tick (rfl | ⟨_, _, tick?, hmem, -⟩)
    · obtain rfl : a = ⟨1, 10000⟩ := List.mem_singleton.mp (Database.mem_active_delete.mp ha).1
      decide
    · cases List.mem_singleton.mp hmem

/-- The program starts with a renewal under way, after the time for it: the scheduler looks first and
finds nothing to do, then the renewal is removed as dangling. -/
def danglingRenewal : List Event :=
  .poll 6400 .asStored (fun _ => ⟨"", []⟩) :: List.replicate 7 (.act 0) ++
    [.start .removeDanglingSubscriptions, .act 1]

/-- While the scheduler's callback is between its query and the store of the next tick, the other
subscription is verified. -/
def lostHasten : List Event :=
  .poll 6400 .asStored (fun _ => ⟨"", [6]⟩) :: List.replicate 7 (.act 0) ++
    .start (.verifyIntent 2 "" 6400) :: List.replicate 4 (.act 1) ++ List.replicate 2 (.act 0)

/-- A subscription is forgotten when its renewal is removed, and when a `hasten` is overwritten: nothing
is half-way, it is active and not being renewed, and there is no next tick. -/
theorem not_covered_danglingRenewal :
    (sampleSubscriber.newTimer 0 renewed = .ok (.new (some 6400)) ∧
      Forgets sampleSubscriber (Runs.final (Concurrent.step sampleSubscriber)
        (start renewed (.new (some 6400))) danglingRenewal)) ∧
      sampleSubscriber.newTimer 0 unverified = .ok (.new (some 6400)) ∧
        Forgets sampleSubscriber (Runs.final (Concurrent.step sampleSubscriber)
          (start unverified (.new (some 6400))) lostHasten) := by
  have hlate : ∀ {s : Concurrent} {a : ActiveSubscription}, a ∈ s.world.db.activeSubscriptions.rows →
      s.world.db.isRenewing a.id = false →
        ¬ s.world.timer.nextTick.toNat ≤ sampleSubscriber.refreshLimit a.expiresAt →
          ¬ Covered sampleSubscriber s.world :=
    fun ha hidle hlt hcovered => hlt (hcovered _ ha hidle)
  refine ⟨⟨by decide, ?_, ?_⟩, by decide, ?_, ?_⟩
  · unfold Quiescent
    decide
  · exact hlate (a := ⟨1, 10000⟩) (by decide) (by decide) (by decide)
  · unfold Quiescent
    decide
  · exact hlate (a := ⟨2, 16400⟩) (by decide) (by decide) (by decide)

end Concurrent

end Pipitor.Websub
