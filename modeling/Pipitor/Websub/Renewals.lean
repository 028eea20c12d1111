import Mathlib.Data.List.Perm.Subperm
import Mathlib.Data.List.Dedup
import Pipitor.Websub.Callback
import Pipitor.Websub.Cycle

/-!
# One firing of the scheduler

`renew_subscriptions` and the query for the next tick, as the closure in `Subscriber::new` makes them: which
subscriptions are renewed, what that adds to the tables, and which tick is left. `fires_once` says that nothing
is left out, that nothing is renewed twice, and that the tick lies in the future.

A hub that is not a URI makes `send_request` panic, and with it the closure.
-/

namespace Pipitor.Websub

open Machine Resumption Relational

/-- How many ids the random numbers give. -/
def Draw.distinct (draw : Draw) : ℕ := (draw.ids.map fun r : UInt64 => (r >>> 1).toInt64).dedup.length

/-- Whether the subscription is active, is to expire by `now + renewal_margin + 1` and is not being renewed. -/
def Service.Due (svc : Service) (db : Database) (now : UInt64) (s : Subscription) : Prop :=
  ∃ a ∈ db.activeSubscriptions, a.id = s.id ∧
    a.expiresAt.toInt ≤ now.toNat + svc.renewalMargin.toNat + 1 ∧ ∀ r ∈ db.renewingSubscriptions, r.old ≠ a.id

/-- The tables after some renewals, each of which is an old subscription and the new one. -/
structure Renewals (db db' : Database) (renewals : List (Subscription × Subscription)) : Prop where
  fresh : ∀ p ∈ renewals, db.subscriptions.hasKey p.2.id = false
  same_feed : ∀ p ∈ renewals, p.2.hub = p.1.hub ∧ p.2.topic = p.1.topic
  subscriptions : db'.subscriptions.rows = db.subscriptions.rows ++ renewals.map Prod.snd
  active : db'.activeSubscriptions = db.activeSubscriptions
  pending : db'.pendingSubscriptions.rows = db.pendingSubscriptions.rows ++ renewals.map fun p => ⟨p.2.id⟩
  renewing : db'.renewingSubscriptions.rows =
    db.renewingSubscriptions.rows ++ renewals.map fun p => ⟨p.1.id, p.2.id⟩

/-- The tick is the earliest time at which an active subscription that is not being renewed is to be renewed, and
there is one exactly if there is such a subscription. -/
structure Service.NextTick (svc : Service) (db : Database) (now : UInt64) (tick? : Option UInt64) : Prop where
  none_iff : tick? = none ↔ ∀ a ∈ db.activeSubscriptions, ∃ r ∈ db.renewingSubscriptions, r.old = a.id
  attained : ∀ tick ∈ tick?, ∃ a ∈ db.activeSubscriptions, (∀ r ∈ db.renewingSubscriptions, r.old ≠ a.id) ∧
    (tick.toNat : ℤ) = a.expiresAt.toInt - svc.renewalMargin.toNat
  least : ∀ tick ∈ tick?, ∀ a ∈ db.activeSubscriptions, (∀ r ∈ db.renewingSubscriptions, r.old ≠ a.id) →
    (tick.toNat : ℤ) ≤ a.expiresAt.toInt - svc.renewalMargin.toNat
  later : ∀ tick ∈ tick?, now.toNat + 2 ≤ tick.toNat

theorem Service.NextTick.toNat_lt {svc : Service} {db : Database} {now : UInt64} {tick? : Option UInt64}
    (h : svc.NextTick db now tick?) : ∀ tick ∈ tick?, tick.toNat < 2 ^ 63 := by
  intro tick htick
  obtain ⟨a, -, -, heq⟩ := h.attained tick htick
  have hmax := a.expiresAt.toInt_lt
  omega

/-- What a firing of the scheduler at the time `now` is to do. -/
def Service.FiresOnce (svc : Service) (now : UInt64) (order : RowOrder Subscription) (draws : ℕ → Draw)
    (w : World) : Prop :=
  ∃ tick? w' renewals, (svc.getNextTick now order draws).run w = (.ok tick?, w') ∧
    Renewals w.db w'.db renewals ∧
      ((renewals.map Prod.fst).Nodup ∧ ∀ s, s ∈ renewals.map Prod.fst ↔ s ∈ w.db.subscriptions ∧ svc.Due w.db now s) ∧
        w'.timer = w.timer ∧ svc.NextTick w'.db now tick? ∧
          ∀ order' draws', (svc.getNextTick now order' draws').run w' = (.ok tick?, w')

/-! ### A renewal -/

namespace Renewals

variable {db db' db'' : Database} {renewals : List (Subscription × Subscription)}

theorem nil (db : Database) : Renewals db db [] :=
  ⟨nofun, nofun, (List.append_nil _).symm, rfl, (List.append_nil _).symm, (List.append_nil _).symm⟩

theorem snoc (h : Renewals db db' renewals) {old : Subscription} {new : Int64} {secret : String}
    (hrenewed : Renewed db' old new secret db'') :
    Renewals db db'' (renewals ++ [(old, ⟨new, old.hub, old.topic, secret⟩)]) where
  fresh := by
    intro p hp
    rcases List.mem_append.mp hp with hold | hnew
    · exact h.fresh p hold
    · rw [List.mem_singleton.mp hnew, Table.hasKey_eq_false_iff]
      intro s hs
      refine Table.hasKey_eq_false_iff.mp hrenewed.fresh s ?_
      rw [Table.mem_def, h.subscriptions]
      exact List.mem_append_left _ hs
  same_feed := by
    intro p hp
    rcases List.mem_append.mp hp with hold | hnew
    · exact h.same_feed p hold
    · rw [List.mem_singleton.mp hnew]
      exact ⟨rfl, rfl⟩
  subscriptions := by
    rw [Table.rows_of_insert hrenewed.subscriptions, h.subscriptions]
    simp
  active := hrenewed.active.trans h.active
  pending := by
    rw [Table.rows_of_insert hrenewed.pending, h.pending]
    simp
  renewing := by
    rw [Table.rows_of_insert hrenewed.renewing, h.renewing]
    simp

theorem length (h : Renewals db db' renewals) :
    db'.subscriptions.rows.length = db.subscriptions.rows.length + renewals.length := by
  rw [h.subscriptions, List.length_append, List.length_map]

end Renewals

/-- A table with fewer rows than there are ids leaves one of them free. -/
theorem Draw.not_isUsedUp {draw : Draw} {db : Database} (h : db.subscriptions.rows.length < draw.distinct) :
    ¬ draw.IsUsedUp db := by
  intro hused
  have hsub : (draw.ids.map fun r : UInt64 => (r >>> 1).toInt64).dedup ⊆ db.subscriptions.rows.map (·.id) := by
    intro id hid
    obtain ⟨r, hr, rfl⟩ := List.mem_map.mp (List.mem_dedup.mp hid)
    obtain ⟨s, hs, hkey⟩ := Table.hasKey_iff.mp (hused r hr)
    exact List.mem_map.mpr ⟨s, hs, hkey⟩
  have hle := (List.subperm_of_subset (List.nodup_dedup _) hsub).length_le
  rw [List.length_map] at hle
  unfold Draw.distinct at h
  omega

/-- Where an id is left, the transaction of `renew` does not go on drawing. -/
theorem renewTransaction_of_free {draw : Draw} {db : Database} {old : Subscription} (hold : Renewable db old)
    (hfree : ¬ draw.IsUsedUp db) :
    ∃ new db', renewTransaction draw old.id old.hub old.topic db = .ok ((new, draw.secret), db') ∧
      Renewed db old new draw.secret db' := by
  refine (renewTransaction_cases draw hold).resolve_right fun hstarved => ?_
  unfold renewTransaction at hstarved
  cases hcreate : createSubscription draw old.hub old.topic db with
  | error e =>
    rw [hcreate] at hstarved
    cases hstarved
    exact hfree ((createSubscription_starved_iff old.hub old.topic).mp hcreate)
  | ok created =>
    rw [hcreate] at hstarved
    cases hinsert : created.2.insertRenewing ⟨old.id, created.1.1⟩ with
    | error d =>
      simp only [hinsert, unwrapDb_error] at hstarved
      cases hstarved
    | ok db' =>
      simp only [hinsert, unwrapDb_ok] at hstarved
      cases hstarved

section Firing

variable {svc : Service} {w : World}

theorem sat_renew_once {draw : Draw} {s : Subscription} (hs : Renewable w.db s)
    (hcallback : ∀ id, ∃ uri, makeCallback svc.lib svc.callback id = .ok uri)
    (hhub : svc.lib.isUri s.hub = true) (hfree : ¬ draw.IsUsedUp w.db) :
    Prog.Sat (Hub.renew svc.lib svc.callback draw s.id s.hub s.topic) w
      (fun _ w' => (∃ new, Renewed w.db s new draw.secret w'.db) ∧ w'.timer = w.timer) fun _ _ => False := by
  obtain ⟨new, db', hrun, hrenewed⟩ := renewTransaction_of_free hs hfree
  refine Prog.sat_bind (R := fun _ w' => w' = { w with db := db' }) (sat_transaction_ok hrun rfl) ?_
  rintro ⟨id, secret⟩ _ rfl
  obtain ⟨uri, huri⟩ := hcallback id
  show Prog.Sat (Prog.ofExcept (makeCallback svc.lib svc.callback id) >>= fun callback =>
    Prog.ofExcept (sendRequest svc.lib s.hub (.subscribe callback s.topic secret))) _ _ _
  have hsend : sendRequest svc.lib s.hub (.subscribe uri s.topic secret) =
      .ok (.request s.hub (.subscribe uri s.topic secret)) := if_pos hhub
  rw [huri]
  show Prog.Sat (Prog.ofExcept (sendRequest svc.lib s.hub (.subscribe uri s.topic secret))) _ _ _
  rw [hsend]
  exact Prog.sat_done.mpr ⟨⟨new, hrenewed⟩, rfl⟩

/-! ### The loop -/

/-- In the midst of the renewals of `expiring`, those of `rest` are still to come. -/
structure Midway (w : World) (expiring : List Subscription) (rest : List (Subscription × ℕ)) (w' : World) :
    Prop where
  left : RenewalsLeft rest w'
  made : ∃ renewals, Renewals w.db w'.db renewals ∧ renewals.map Prod.fst ++ rest.map Prod.fst = expiring
  timer : w'.timer = w.timer

theorem Midway.sat_renew {w' : World} {expiring : List Subscription} {rest : List (Subscription × ℕ)}
    {s : Subscription} {i : ℕ} {draw : Draw} (h : Midway w expiring ((s, i) :: rest) w')
    (hcallback : ∀ id, ∃ uri, makeCallback svc.lib svc.callback id = .ok uri)
    (hhubs : ∀ s ∈ expiring, svc.lib.isUri s.hub = true)
    (hdraw : w.db.subscriptions.rows.length + expiring.length ≤ draw.distinct) :
    Prog.Sat (Hub.renew svc.lib svc.callback draw s.id s.hub s.topic) w'
      (fun _ w'' => Midway w expiring rest w'') fun _ _ => False := by
  obtain ⟨renewals, hmade, hexpiring⟩ := h.made
  have hs : Renewable w'.db s := h.left.2.2 (s, i) List.mem_cons_self
  have hmem : s ∈ expiring := by
    rw [← hexpiring]
    exact List.mem_append_right _ List.mem_cons_self
  have hfree : ¬ draw.IsUsedUp w'.db := by
    apply Draw.not_isUsedUp
    have hlength := congrArg List.length hexpiring
    simp only [List.map_cons, List.length_append, List.length_map, List.length_cons] at hlength
    rw [hmade.length]
    omega
  refine ((Websub.sat_renew svc draw h.left).and (sat_renew_once hs hcallback (hhubs s hmem) hfree)).mono ?_ ?_
  · rintro task w'' ⟨hleft, ⟨new, hrenewed⟩, htimer⟩
    refine ⟨hleft, ⟨_, hmade.snoc hrenewed, ?_⟩, htimer.trans h.timer⟩
    rw [← hexpiring]
    simp
  · exact fun _ _ herror => herror.2

/-- `renew_subscriptions` renews the subscriptions that it selects, in the order in which it finds them. -/
theorem sat_renewSubscriptions_each (hw : Coherent w.db) {now : UInt64} {threshold : Int64}
    (hthreshold : svc.threshold now = .ok threshold) (order : RowOrder Subscription) (draws : ℕ → Draw)
    (hcallback : ∀ id, ∃ uri, makeCallback svc.lib svc.callback id = .ok uri)
    (hhubs : ∀ s ∈ w.db.subscriptions.rows.filter (w.db.isExpiring threshold), svc.lib.isUri s.hub = true)
    (hdraws : ∀ i, 2 * w.db.subscriptions.rows.length ≤ (draws i).distinct) :
    Prog.Sat (svc.renewSubscriptions now order draws) w
      (fun _ w' => (∃ renewals, Renewals w.db w'.db renewals ∧ renewals.map Prod.fst =
          order.apply (w.db.subscriptions.rows.filter (w.db.isExpiring threshold))) ∧ w'.timer = w.timer)
      fun _ _ => False := by
  let expiring := order.apply (w.db.subscriptions.rows.filter (w.db.isExpiring threshold))
  have hlength : expiring.length ≤ w.db.subscriptions.rows.length := by
    rw [(order.perm _).length_eq]
    exact List.length_filter_le _ _
  have hstart : Midway w expiring expiring.zipIdx w :=
    ⟨renewalsLeft_start hw threshold order, ⟨[], .nil w.db, by simp⟩, rfl⟩
  unfold Service.renewSubscriptions
  rw [hthreshold]
  refine Prog.sat_bind (R := fun t w' => threshold = t ∧ w = w') (Prog.sat_done.mpr ⟨rfl, rfl⟩) ?_
  rintro _ _ ⟨rfl, rfl⟩
  refine Prog.sat_bind (R := fun found w' => expiring = found ∧ w = w') (sat_query.mpr ⟨rfl, rfl⟩) ?_
  rintro _ _ ⟨rfl, rfl⟩
  refine (Prog.sat_forM (R := Midway w expiring) ?_ _ w hstart).mono ?_ fun _ _ h => h
  · rintro ⟨s, i⟩ rest w'' h
    refine Prog.sat_bind (h.sat_renew hcallback (fun s hs => hhubs s ((order.mem_apply).mp hs)) ?_) ?_
    · have := hdraws i
      omega
    · exact fun task w₁ h₁ => sat_spawn.mpr ⟨h₁.left, h₁.made, h₁.timer⟩
  · rintro _ w'' h
    obtain ⟨renewals, hmade, hexpiring⟩ := h.made
    exact ⟨⟨renewals, hmade, by simpa using hexpiring⟩, h.timer⟩

/-! ### What is due -/

theorem exists_threshold_of_lt {now : UInt64} (hnow : now.toNat + svc.renewalMargin.toNat + 1 < 2 ^ 63) :
    ∃ threshold, svc.threshold now = .ok threshold := by
  apply Service.exists_threshold
  rwa [Service.lookAhead_of_lt hnow]

/-- In the range of the sum, the query selects what is due. -/
theorem isExpiring_iff_due {db : Database} {now : UInt64} {threshold : Int64}
    (hnow : now.toNat + svc.renewalMargin.toNat + 1 < 2 ^ 63) (hthreshold : svc.threshold now = .ok threshold)
    (s : Subscription) : db.isExpiring threshold s = true ↔ svc.Due db now s := by
  have htoInt := (Service.threshold_ok hthreshold).2
  rw [Service.lookAhead_of_lt hnow] at htoInt
  have hle : ∀ e : Int64, e ≤ threshold ↔ e.toInt ≤ now.toNat + svc.renewalMargin.toNat + 1 := by
    intro e
    rw [Int64.le_iff_toInt_le, htoInt]
    omega
  rw [isExpiring_iff]
  constructor
  · rintro ⟨a, ha, hid, hdue, hidle⟩
    rw [← hid] at hidle
    exact ⟨a, ha, hid, (hle _).mp hdue, Database.isRenewing_eq_false_iff.mp hidle⟩
  · rintro ⟨a, ha, hid, hdue, hidle⟩
    refine ⟨a, ha, hid, (hle _).mpr hdue, ?_⟩
    rw [← hid]
    exact Database.isRenewing_eq_false_iff.mpr hidle

/-- Nothing is due: what is not being renewed expires later. -/
def Service.Settled (svc : Service) (db : Database) (now : UInt64) : Prop :=
  ∀ a ∈ db.activeSubscriptions, (∀ r ∈ db.renewingSubscriptions, r.old ≠ a.id) →
    now.toNat + svc.renewalMargin.toNat + 1 < a.expiresAt.toInt

theorem Renewals.settled {db db' : Database} {renewals : List (Subscription × Subscription)} {now : UInt64}
    (h : Renewals db db' renewals)
    (hdue : ∀ s, s ∈ db.subscriptions → svc.Due db now s → s ∈ renewals.map Prod.fst) :
    svc.Settled db' now := by
  intro a ha hidle
  rw [h.active] at ha
  have hbefore : ∀ r ∈ db.renewingSubscriptions, r.old ≠ a.id := by
    intro r hr
    apply hidle r
    rw [Table.mem_def, h.renewing]
    exact List.mem_append_left _ hr
  by_contra hsoon
  obtain ⟨s, hs, hid⟩ := Table.hasKey_iff.mp (db.active_references a ha)
  have hmade := hdue s hs ⟨a, ha, hid.symm, by omega, hbefore⟩
  obtain ⟨p, hp, rfl⟩ := List.mem_map.mp hmade
  refine hidle ⟨p.1.id, p.2.id⟩ ?_ hid
  rw [Table.mem_def, h.renewing]
  exact List.mem_append_right _ (List.mem_map_of_mem hp)

theorem mem_idle {db : Database} {a : ActiveSubscription} :
    a ∈ db.activeSubscriptions.rows.filter (fun a => !db.isRenewing a.id) ↔
      a ∈ db.activeSubscriptions ∧ ∀ r ∈ db.renewingSubscriptions, r.old ≠ a.id := by
  rw [List.mem_filter, Bool.not_eq_true', Database.isRenewing_eq_false_iff]
  rfl

namespace Service.Settled

variable {db : Database} {now : UInt64}

theorem run_renewSubscriptions (h : svc.Settled w.db now)
    (hnow : now.toNat + svc.renewalMargin.toNat + 1 < 2 ^ 63) (order : RowOrder Subscription)
    (draws : ℕ → Draw) : (svc.renewSubscriptions now order draws).run w = (.ok (), w) := by
  obtain ⟨threshold, hthreshold⟩ := exists_threshold_of_lt hnow
  have hnone : w.db.subscriptions.rows.filter (w.db.isExpiring threshold) = [] := by
    rw [List.filter_eq_nil_iff]
    intro s _ hexpiring
    obtain ⟨a, ha, -, hdue, hidle⟩ := (isExpiring_iff_due hnow hthreshold s).mp hexpiring
    have hlater := h a ha hidle
    omega
  have hempty : order.apply (w.db.subscriptions.rows.filter (w.db.isExpiring threshold)) = [] := by
    rw [hnone]
    exact List.perm_nil.mp (order.perm [])
  have hquery : (query fun db => order.apply (db.subscriptions.rows.filter (db.isExpiring threshold))).run w =
      (.ok [], w) := by
    rw [← hempty]
    rfl
  unfold Service.renewSubscriptions
  rw [hthreshold, Prog.run_bind]
  dsimp only [Prog.ofExcept, Prog.run_done]
  rw [Prog.run_bind, hquery]
  rfl

theorem tickOf_of_le {e : Int64} (h : (svc.renewalMargin.toNat : ℤ) ≤ e.toInt) :
    ∃ tick, svc.tickOf e = .ok tick ∧ (tick.toNat : ℤ) = e.toInt - svc.renewalMargin.toNat := by
  have hpos : 0 ≤ e := by
    rw [Int64.le_iff_toInt_le]
    show (0 : ℤ) ≤ e.toInt
    omega
  have hnat := toNat_toUInt64 hpos
  have hle : svc.renewalMargin ≤ e.toUInt64 := by
    rw [UInt64.le_iff_toNat_le]
    omega
  refine ⟨e.toUInt64 - svc.renewalMargin, ?_, ?_⟩
  · unfold Service.tickOf tryIntoU64
    rw [if_pos hpos]
    apply if_neg
    simpa using fun _ => hle
  · rw [UInt64.toNat_sub_of_le _ _ hle]
    rw [UInt64.le_iff_toNat_le] at hle
    omega

theorem nextTick_none (hnone : ∀ a ∈ db.activeSubscriptions, ∃ r ∈ db.renewingSubscriptions, r.old = a.id) :
    svc.NextTick db now none := by
  refine ⟨⟨fun _ => hnone, fun _ => rfl⟩, ?_, ?_, ?_⟩
  · intro tick htick
    cases htick
  · intro tick htick
    cases htick
  · intro tick htick
    cases htick

theorem nextTick_first (h : svc.Settled db now) {a : ActiveSubscription} (ha : a ∈ db.activeSubscriptions)
    (hidle : ∀ r ∈ db.renewingSubscriptions, r.old ≠ a.id)
    (hfirst : ∀ b ∈ db.activeSubscriptions, (∀ r ∈ db.renewingSubscriptions, r.old ≠ b.id) →
      a.expiresAt ≤ b.expiresAt) :
    ∃ tick, svc.tickOf a.expiresAt = .ok tick ∧ svc.NextTick db now (some tick) := by
  have hlater := h a ha hidle
  have hle : (svc.renewalMargin.toNat : ℤ) ≤ a.expiresAt.toInt := by omega
  obtain ⟨tick, htick, htoNat⟩ := tickOf_of_le hle
  refine ⟨tick, htick, ⟨?_, ?_⟩, ?_, ?_, ?_⟩
  · intro hnone
    cases hnone
  · intro hall
    obtain ⟨r, hr, hold⟩ := hall a ha
    exact absurd hold (hidle r hr)
  · intro _ hsome
    cases hsome
    exact ⟨a, ha, hidle, htoNat⟩
  · intro _ hsome b hb hbidle
    cases hsome
    have hle := hfirst b hb hbidle
    rw [Int64.le_iff_toInt_le] at hle
    omega
  · intro _ hsome
    cases hsome
    omega

/-- **The next tick** where nothing is due. -/
theorem nextTick (h : svc.Settled db now) :
    ∃ tick?, svc.tickOf? db.nextExpiry = .ok tick? ∧ svc.NextTick db now tick? := by
  cases hmin : db.nextExpiry with
  | none =>
    have hempty := List.map_eq_nil_iff.mp (List.min?_eq_none_iff.mp hmin)
    refine ⟨none, rfl, nextTick_none fun a ha => ?_⟩
    by_contra hidle
    have hmem := mem_idle.mpr ⟨ha, fun r hr hold => hidle ⟨r, hr, hold⟩⟩
    rw [hempty] at hmem
    cases hmem
  | some e =>
    obtain ⟨hmem, hfirst⟩ := List.min?_eq_some_iff.mp hmin
    obtain ⟨a, ha, rfl⟩ := List.mem_map.mp hmem
    obtain ⟨hactive, hidle⟩ := mem_idle.mp ha
    obtain ⟨tick, htick, hnext⟩ := h.nextTick_first hactive hidle fun b hb hbidle =>
      hfirst _ (List.mem_map_of_mem (mem_idle.mpr ⟨hb, hbidle⟩))
    refine ⟨some tick, ?_, hnext⟩
    unfold Service.tickOf?
    dsimp only
    rw [htick]

end Service.Settled

/-! ### A firing -/

theorem run_getNextTick {now : UInt64} {order : RowOrder Subscription} {draws : ℕ → Draw} {w' : World}
    {tick? : Option UInt64} (hrenew : (svc.renewSubscriptions now order draws).run w = (.ok (), w'))
    (htick : svc.tickOf? w'.db.nextExpiry = .ok tick?) :
    (svc.getNextTick now order draws).run w = (.ok tick?, w') := by
  unfold Service.getNextTick
  rw [Prog.run_bind, hrenew]
  show (Prog.ofExcept (svc.tickOf? w'.db.nextExpiry)).run w' = _
  rw [htick]
  rfl

/-- **A firing of the scheduler** renews every subscription that is due, each once and no other, and leaves the
tables otherwise as they are; the tick that it returns is the earliest at which one that is not being renewed is
to be, which is later; a second firing at the same time changes nothing. The hubs of what is due are URIs, and
the random numbers offer more ids than there can be rows. -/
theorem fires_once {now : UInt64} {decode : String → Option (List UInt8)} {parse : String → Except String Uri}
    {p : String} (hw : Coherent w.db) (hnow : now.toNat + svc.renewalMargin.toNat + 1 < 2 ^ 63)
    (hstart : IsCallbackPrefix svc.lib svc.callback p) (hbase64 : Base64Url svc.lib.base64 decode)
    (hhttp : HttpUri svc.lib parse) (order : RowOrder Subscription) (draws : ℕ → Draw)
    (hdraws : ∀ i, 2 * w.db.subscriptions.rows.length ≤ (draws i).distinct)
    (hhubs : ∀ s ∈ w.db.subscriptions, svc.Due w.db now s → svc.lib.isUri s.hub = true) :
    svc.FiresOnce now order draws w := by
  obtain ⟨threshold, hthreshold⟩ := exists_threshold_of_lt hnow
  have hexpiring : ∀ s, s ∈ w.db.subscriptions.rows.filter (w.db.isExpiring threshold) ↔
      s ∈ w.db.subscriptions ∧ svc.Due w.db now s := by
    intro s
    rw [List.mem_filter, isExpiring_iff_due hnow hthreshold]
    rfl
  have heach := sat_renewSubscriptions_each hw hthreshold order draws
    (fun id => ⟨_, hstart.makeCallback hbase64 hhttp id⟩)
    (fun s hs => hhubs s ((hexpiring s).mp hs).1 ((hexpiring s).mp hs).2) hdraws
  obtain ⟨_, w', hrun, ⟨renewals, hmade, hfst⟩, htimer⟩ := heach.exists_ok
  have hmem : ∀ s, s ∈ renewals.map Prod.fst ↔ s ∈ w.db.subscriptions ∧ svc.Due w.db now s := by
    intro s
    rw [hfst, order.mem_apply]
    exact hexpiring s
  have hnodup : (renewals.map Prod.fst).Nodup := by
    rw [hfst, (order.perm _).nodup_iff]
    exact (List.Nodup.of_map _ w.db.subscriptions.nodup).filter _
  have hsettled : svc.Settled w'.db now := hmade.settled fun s hs hdue => (hmem s).mpr ⟨hs, hdue⟩
  obtain ⟨tick?, htick, hnext⟩ := hsettled.nextTick
  refine ⟨tick?, w', renewals, run_getNextTick hrun htick, hmade, ⟨hnodup, hmem⟩, htimer, hnext, ?_⟩
  intro order' draws'
  exact run_getNextTick (hsettled.run_renewSubscriptions hnow order' draws') htick

end Firing

/-! ### A subscription that is due -/

namespace Renewals

/-- `base64` as it is, and as much of `http` as the URIs below need. -/
def sampleLibraries : Libraries where
  base64 bytes := .ofList (Base64.encode bytes)
  isUri text := !text.toList.contains ' '
  isPathAndQuery text := text.toList.all fun c => c = '/' || decide (Base64.IsUrlSafe c)
  isUriParts uri := uri.scheme.isSome && uri.authority.isSome && uri.pathAndQuery.isSome
  parseVerify _ := none

/-- A service whose callbacks are below the root of a host. -/
def sampleService : Service := ⟨⟨some "https", some "example.com", some "/"⟩, 3600, true, 0, sampleLibraries⟩

/-- `http::Uri` on the callback of this service. -/
def parseCallback (text : String) : Except String Uri :=
  if text = "https://example.com/" then .ok sampleService.callback else .error "invalid uri character"

theorem isCallbackPrefix_sampleService : IsCallbackPrefix sampleLibraries sampleService.callback "/" :=
  ⟨rfl, rfl, rfl, by decide, by simp, by simp⟩

theorem base64Url_sampleLibraries :
    Base64Url sampleLibraries.base64 (fun text => Base64.decode text.toList) where
  alphabet bytes c hc := by
    apply Base64.isUrlSafe_encode bytes c
    simpa [sampleLibraries] using hc
  length := Base64.utf8ByteSize_encode
  decode_encode bytes := by simp [sampleLibraries, Base64.decode_encode]

theorem httpUri_sampleLibraries : HttpUri sampleLibraries parseCallback where
  absolute text uri h _ := by
    unfold parseCallback at h
    split at h
    · cases h
      exact ⟨rfl, "/", rfl, by decide, by decide⟩
    · cases h
  append p t hp ht := by
    simp only [sampleLibraries, String.toList_append, List.all_append, Bool.and_eq_true] at hp ⊢
    refine ⟨hp, List.all_eq_true.mpr fun c hc => ?_⟩
    simpa using ht c hc
  fromParts uri hscheme hauthority hpath := by simp [sampleLibraries, hscheme, hauthority, hpath]

/-- Subscription 1 expires at 10000 and subscription 2 at 20000. -/
def twoActive (hub : String) : World where
  db := { Database.empty with
    subscriptions := ⟨[⟨1, hub, "topic", ""⟩, ⟨2, hub, "other", ""⟩], by simp⟩
    activeSubscriptions := ⟨[⟨1, 10000⟩, ⟨2, 20000⟩], by simp⟩
    active_references := by simp [Table.mem_def, Table.hasKey]
    pending_references := by simp [Database.empty]
    old_references := by simp [Database.empty] }
  timer := .new (some 6400)
  spawned := []

theorem coherent_twoActive (hub : String) : Coherent (twoActive hub).db where
  exclusive := by simp [twoActive, Table.mem_def, Table.hasKey, Database.empty, Table.empty]
  same_feed := by simp [twoActive, Database.empty]

def sampleDraw : Draw := ⟨"", [6, 8, 10, 12]⟩

/-- At 6400 the first is renewed. -/
theorem fires_once_twoActive :
    sampleService.FiresOnce 6400 .asStored (fun _ => sampleDraw) (twoActive "https://example.com/hub") := by
  have hdraw : 2 * (twoActive "https://example.com/hub").db.subscriptions.rows.length ≤ sampleDraw.distinct := by
    decide
  have hhubs : ∀ s ∈ (twoActive "https://example.com/hub").db.subscriptions.rows,
      sampleLibraries.isUri s.hub = true := by decide
  exact fires_once (coherent_twoActive _) (by decide) isCallbackPrefix_sampleService base64Url_sampleLibraries
    httpUri_sampleLibraries .asStored _ (fun _ => hdraw) fun s hs _ => hhubs s hs

/-- Where its hub is not a URI, the closure panics. -/
theorem not_fires_once_badHub :
    Coherent (twoActive "no uri").db ∧ (6400 : UInt64).toNat + sampleService.renewalMargin.toNat + 1 < 2 ^ 63 ∧
      ¬ sampleService.FiresOnce 6400 .asStored (fun _ => sampleDraw) (twoActive "no uri") := by
  refine ⟨coherent_twoActive _, by decide, ?_⟩
  rintro ⟨tick?, w', renewals, hrun, -⟩
  have hpanics : ((sampleService.getNextTick 6400 .asStored fun _ => sampleDraw).run (twoActive "no uri")).1 =
      .error .uri := by decide
  rw [hrun] at hpanics
  cases hpanics

end Renewals

end Pipitor.Websub
