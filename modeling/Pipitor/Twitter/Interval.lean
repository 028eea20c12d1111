import Pipitor.Foundation.Runs
import Pipitor.Twitter.Lists

/-!
# The tasks behind a list timeline

`twitter/list_timeline.rs` and `twitter/list_timeline/interval.rs` with the references to the
`RequestSender`: the `ListTimeline` owns one, and so do a `Backfill`, every regular request under way and a
poll of the `Interval` that has upgraded its `Weak`. Responses may be anything. Times are in nanoseconds.

`no_request_iff` says when `ListTimeline::shutdown` does stop the `Interval`.
-/

namespace Pipitor.Twitter

structure RateLimit where
  remaining : ℕ
  reset : ℕ
deriving DecidableEq

/-- The result of a request: a success, an error that Twitter reports, or another error. -/
inductive Response
  | ok (tweets : List Tweet) (rateLimit : Option RateLimit)
  | twitter (rateLimit : Option RateLimit)
  | failed
deriving DecidableEq

/-- `Poll` of the standard library. -/
inductive Poll (α : Type)
  | ready (a : α)
  | pending
deriving DecidableEq

/-- The task of the `Interval`, with the deadline of its `Sleep`; `polling` is a poll that holds a reference
to the `RequestSender`. -/
inductive Interval
  | waiting (deadline : ℕ)
  | polling (deadline : ℕ)
  | ended
deriving DecidableEq

/-- A `ListTimeline` with its tasks. `owned` says whether it owns the `RequestSender`; `nextTick` is that of
the `interval::Handle`, `yielded` counts what the `Interval` has yielded and numbers the requests, and `put`
is what has ever been put on the channel. -/
structure Timeline where
  sender : RequestSender
  owned : Bool
  sinceId : Int64
  nextTick : ℕ
  interval : Interval
  yielded : ℕ
  requests : List (ℕ × Statuses)
  backfill : Option (Int64 × Statuses)
  channel : List (List Tweet)
  put : List (List Tweet)
deriving DecidableEq

inductive TimelineEvent
  | poll (now : ℕ)
  | response (i : ℕ) (response : Response)
  | backfill (response : Response)
deriving DecidableEq

namespace Timeline

/-- `ListTimeline::new`. -/
def new (sender : RequestSender) (sinceId : Option Int64) (now : ℕ) : Timeline where
  sender
  owned := true
  sinceId := 0
  nextTick := 0
  interval := .waiting now
  yielded := 0
  requests := []
  backfill := sinceId.map fun sinceId => (sinceId, { listId := sender.listId, sinceId := some sinceId })
  channel := []
  put := []

/-- `ListTimeline::shutdown`. -/
def shutdown (t : Timeline) : Timeline := { t with owned := false }

/-- The references to the `RequestSender`. -/
def strongCount (t : Timeline) : ℕ :=
  t.owned.toNat + t.requests.length + t.backfill.isSome.toNat + (t.interval matches .polling _).toNat

def setSinceId (t : Timeline) (id : Int64) : Timeline := { t with sinceId := max t.sinceId id }

def startSend (t : Timeline) (tweets : List Tweet) : Timeline :=
  { t with channel := t.channel ++ [tweets], put := t.put ++ [tweets] }

/-! ### The interval -/

/-- The start of `Interval::poll_next`: `Weak::upgrade`. -/
def upgrade (t : Timeline) : Timeline :=
  match t.interval with
  | .waiting deadline => { t with interval := if 0 < t.strongCount then .polling deadline else .ended }
  | _ => t

/-- The deadline after `decode_next_tick`. -/
def postponed (t : Timeline) (deadline : ℕ) : ℕ :=
  if t.nextTick ≠ 0 ∧ deadline < t.nextTick * 1000000000 then t.nextTick * 1000000000 else deadline

/-- `RequestSender::send` of the reference that was yielded; where it panics, the task ends. -/
def send (t : Timeline) (now : ℕ) : Timeline :=
  match t.sender.send t.sinceId now with
  | some request => { t with requests := t.requests ++ [(t.yielded, request)], yielded := t.yielded + 1 }
  | none => { t with interval := .ended, yielded := t.yielded + 1 }

/-- The rest of `Interval::poll_next`, and `send`. -/
def tick (t : Timeline) (now : ℕ) : Timeline :=
  match t.interval with
  | .polling deadline =>
    let deadline := t.postponed deadline
    let t := { t with nextTick := 0 }
    if deadline ≤ now then { t with interval := .waiting (max (deadline + t.sender.period) now) }.send now
    else { t with interval := .waiting deadline }
  | _ => t

/-! ### Responses -/

/-- `handle.delay`, if there is nothing left to ask for. -/
def limit (t : Timeline) (rateLimit : Option RateLimit) : Timeline :=
  { t with
    nextTick := match rateLimit with
      | some ⟨0, reset⟩ => max t.nextTick reset
      | _ => t.nextTick }

/-- What `send` does with a response. -/
def receive (t : Timeline) : Response → Timeline
  | .ok tweets rateLimit =>
    match tweets.head? with
    | some first => ((t.startSend tweets).setSinceId first.id).limit rateLimit
    | none => t.limit rateLimit
  | .twitter rateLimit => t.limit rateLimit
  | .failed => t

/-- The end of a regular request. -/
def pollRequest (t : Timeline) (i : ℕ) (response : Response) : Timeline :=
  match t.requests[i]? with
  | some _ => { t with requests := t.requests.eraseIdx i }.receive response
  | none => t

/-- What a `Backfill` does with a response. -/
def backfilled (t : Timeline) (sinceId : Int64) : Response → Timeline
  | .ok tweets _ =>
    match tweets.head?, tweets.getLast? with
    | some first, some last =>
      let res : Statuses :=
        { listId := t.sender.listId, sinceId := some sinceId, maxId := some (last.id - 1) }
      { t.setSinceId first.id with backfill := some (sinceId, res) }.startSend tweets
    | _, _ => { t with backfill := none }
  | _ => { t with backfill := none }

/-- `Backfill::poll` with a response. -/
def pollBackfill (t : Timeline) (response : Response) : Timeline :=
  match t.backfill with
  | some (sinceId, _) => t.backfilled sinceId response
  | none => t

def step (t : Timeline) : TimelineEvent → Timeline
  | .poll now => t.upgrade.tick now
  | .response i response => t.pollRequest i response
  | .backfill response => t.pollBackfill response

/-- `ListTimeline::poll_next`. -/
def pollNext (t : Timeline) : Poll (Option (List Tweet)) × Timeline :=
  match t.channel with
  | tweets :: channel => (.ready (some tweets), { t with channel })
  | [] => if t.strongCount = 0 then (.ready none, t) else (.pending, t)

/-! ### What the events do -/

section Step

variable {t : Timeline}

theorem receive_frame (response : Response) :
    (t.receive response).owned = t.owned ∧ (t.receive response).yielded = t.yielded ∧
      (t.receive response).requests = t.requests ∧ (t.receive response).backfill = t.backfill ∧
      (t.receive response).interval = t.interval := by
  cases response with
  | ok tweets rateLimit => cases tweets <;> exact ⟨rfl, rfl, rfl, rfl, rfl⟩
  | twitter rateLimit => exact ⟨rfl, rfl, rfl, rfl, rfl⟩
  | failed => exact ⟨rfl, rfl, rfl, rfl, rfl⟩

theorem pollRequest_frame (i : ℕ) (response : Response) :
    (t.pollRequest i response).owned = t.owned ∧ (t.pollRequest i response).yielded = t.yielded ∧
      (t.pollRequest i response).requests.Sublist t.requests ∧
      (t.pollRequest i response).backfill = t.backfill ∧
      (t.pollRequest i response).interval = t.interval := by
  unfold pollRequest
  cases t.requests[i]? with
  | none => exact ⟨rfl, rfl, List.Sublist.refl _, rfl, rfl⟩
  | some request =>
    obtain ⟨howned, hyielded, hrequests, hbackfill, hinterval⟩ :=
      receive_frame (t := { t with requests := t.requests.eraseIdx i }) response
    exact ⟨howned, hyielded, hrequests ▸ List.eraseIdx_sublist _ _, hbackfill, hinterval⟩

theorem pollBackfill_frame (response : Response) :
    (t.pollBackfill response).owned = t.owned ∧ (t.pollBackfill response).yielded = t.yielded ∧
      (t.pollBackfill response).requests = t.requests ∧
      (t.pollBackfill response).interval = t.interval := by
  unfold pollBackfill
  cases t.backfill with
  | none => exact ⟨rfl, rfl, rfl, rfl⟩
  | some backfill =>
    cases response with
    | ok tweets rateLimit =>
      dsimp only [backfilled]
      split <;> exact ⟨rfl, rfl, rfl, rfl⟩
    | twitter rateLimit => exact ⟨rfl, rfl, rfl, rfl⟩
    | failed => exact ⟨rfl, rfl, rfl, rfl⟩

theorem send_yielded (now : ℕ) : (t.send now).yielded = t.yielded + 1 := by
  unfold send
  split <;> rfl

theorem send_owned (now : ℕ) : (t.send now).owned = t.owned := by
  unfold send
  split <;> rfl

/-- The timer of the `Interval` has run out. -/
def Due (t : Timeline) (now : ℕ) : Prop :=
  ∃ deadline, (t.interval = .waiting deadline ∨ t.interval = .polling deadline) ∧ t.postponed deadline ≤ now

theorem tick_polling {deadline : ℕ} (h : t.interval = .polling deadline) (now : ℕ) :
    (t.postponed deadline ≤ now ∧ t.tick now =
      ({ t with
          nextTick := 0,
          interval := .waiting (max (t.postponed deadline + t.sender.period) now) } : Timeline).send now) ∨
    now < t.postponed deadline ∧
      t.tick now = { t with nextTick := 0, interval := .waiting (t.postponed deadline) } := by
  unfold tick
  rw [h]
  by_cases hdue : t.postponed deadline ≤ now
  · exact .inl ⟨hdue, by simp [hdue]⟩
  · exact .inr ⟨Nat.lt_of_not_le hdue, by simp [hdue]⟩

theorem tick_of_ne (h : ∀ deadline, t.interval ≠ .polling deadline) (now : ℕ) : t.tick now = t := by
  unfold tick
  split
  · rename_i deadline heq
    exact absurd heq (h deadline)
  · rfl

/-- What a poll of the `Interval` does: it yields, or it leaves all but the timer alone. -/
theorem poll_cases (t : Timeline) (now : ℕ) :
    (0 < t.strongCount ∧ t.Due now ∧ (t.step (.poll now)).yielded = t.yielded + 1 ∧
      (t.step (.poll now)).owned = t.owned) ∨
    (t.Due now → t.strongCount = 0) ∧
      ∃ interval nextTick, t.step (.poll now) = { t with interval, nextTick } := by
  have hstep : t.step (.poll now) = t.upgrade.tick now := rfl
  rw [hstep]
  cases hinterval : t.interval with
  | waiting deadline =>
    by_cases hcount : 0 < t.strongCount
    · have hupgrade : t.upgrade = { t with interval := .polling deadline } := by
        simp [upgrade, hinterval, hcount]
      obtain ⟨hdue, heq⟩ | ⟨hlt, heq⟩ := tick_polling (t := t.upgrade) (by rw [hupgrade]) now
      · refine .inl ⟨hcount, ⟨deadline, .inl hinterval, ?_⟩, ?_, ?_⟩
        · rwa [hupgrade] at hdue
        · rw [heq, send_yielded, hupgrade]
        · rw [heq, send_owned, hupgrade]
      · refine .inr ⟨?_, _, _, by rw [heq, hupgrade]⟩
        rintro ⟨deadline', hdeadline, hdue⟩
        obtain rfl : deadline = deadline' := by simpa [hinterval] using hdeadline
        rw [hupgrade] at hlt
        exact absurd hdue (Nat.not_le_of_lt hlt)
    · have hupgrade : t.upgrade = { t with interval := .ended } := by simp [upgrade, hinterval, hcount]
      refine .inr ⟨fun _ => by omega, .ended, t.nextTick, ?_⟩
      rw [tick_of_ne (by simp [hupgrade]), hupgrade]
  | polling deadline =>
    have hupgrade : t.upgrade = t := by simp [upgrade, hinterval]
    have hcount : 0 < t.strongCount := by simp [strongCount, hinterval]
    rw [hupgrade]
    obtain ⟨hdue, heq⟩ | ⟨hlt, heq⟩ := tick_polling hinterval now
    · exact .inl ⟨hcount, ⟨deadline, .inr hinterval, hdue⟩, by rw [heq, send_yielded], by rw [heq, send_owned]⟩
    · refine .inr ⟨?_, _, _, heq⟩
      rintro ⟨deadline', hdeadline, hdue⟩
      obtain rfl : deadline = deadline' := by simpa [hinterval] using hdeadline
      exact absurd hdue (Nat.not_le_of_lt hlt)
  | ended =>
    have hupgrade : t.upgrade = t := by simp [upgrade, hinterval]
    refine .inr ⟨?_, t.interval, t.nextTick, ?_⟩
    · rintro ⟨deadline, hdeadline, -⟩
      simp [hinterval] at hdeadline
    · rw [hupgrade, tick_of_ne (by simp [hinterval])]

end Step

/-! ### The channel -/

/-- Batches are only added at the end of the channel. -/
def Appends (t t' : Timeline) : Prop :=
  ∃ batches, t'.channel = t.channel ++ batches ∧ t'.put = t.put ++ batches

theorem Appends.of_eq {t t' : Timeline} (hchannel : t'.channel = t.channel) (hput : t'.put = t.put) :
    t.Appends t' :=
  ⟨[], by simp [hchannel], by simp [hput]⟩

theorem appends_upgrade (t : Timeline) : t.Appends t.upgrade := by
  unfold upgrade
  split <;> exact .of_eq rfl rfl

theorem appends_send (t : Timeline) (now : ℕ) : t.Appends (t.send now) := by
  unfold send
  split <;> exact .of_eq rfl rfl

theorem appends_tick (t : Timeline) (now : ℕ) : t.Appends (t.tick now) := by
  unfold tick
  split
  · dsimp only
    split
    · exact appends_send _ _
    · exact .of_eq rfl rfl
  · exact .of_eq rfl rfl

theorem appends_receive (t : Timeline) (response : Response) : t.Appends (t.receive response) := by
  cases response with
  | ok tweets rateLimit =>
    cases tweets with
    | nil => exact .of_eq rfl rfl
    | cons first tweets => exact ⟨[first :: tweets], rfl, rfl⟩
  | twitter rateLimit => exact .of_eq rfl rfl
  | failed => exact .of_eq rfl rfl

theorem appends_pollBackfill (t : Timeline) (response : Response) : t.Appends (t.pollBackfill response) := by
  unfold pollBackfill
  split
  · cases response with
    | ok tweets rateLimit =>
      dsimp only [backfilled]
      split
      · exact ⟨[tweets], rfl, rfl⟩
      · exact .of_eq rfl rfl
    | twitter rateLimit => exact .of_eq rfl rfl
    | failed => exact .of_eq rfl rfl
  · exact .of_eq rfl rfl

theorem appends_step (t : Timeline) (event : TimelineEvent) : t.Appends (t.step event) := by
  cases event with
  | poll now =>
    obtain ⟨batches, hchannel, hput⟩ := t.appends_upgrade
    obtain ⟨batches', hchannel', hput'⟩ := t.upgrade.appends_tick now
    refine ⟨batches ++ batches', ?_, ?_⟩
    · rw [← List.append_assoc, ← hchannel]
      exact hchannel'
    · rw [← List.append_assoc, ← hput]
      exact hput'
  | response i response =>
    change t.Appends (t.pollRequest i response)
    unfold pollRequest
    split
    · exact appends_receive _ _
    · exact .of_eq rfl rfl
  | backfill response => exact appends_pollBackfill t response

/-! ### Without a reference -/

theorem strongCount_eq_zero {t : Timeline} : t.strongCount = 0 ↔
    t.owned = false ∧ t.requests = [] ∧ t.backfill = none ∧ ∀ deadline, t.interval ≠ .polling deadline := by
  cases hinterval : t.interval <;> simp [strongCount, hinterval, and_assoc]

/-- When the last reference is gone, the `Interval` only comes to its end. -/
theorem upgrade_of_strongCount {t : Timeline} (h : t.strongCount = 0) :
    t.upgrade.strongCount = 0 ∧ t.upgrade.channel = t.channel := by
  unfold upgrade
  split
  · obtain ⟨howned, hrequests, hbackfill, -⟩ := strongCount_eq_zero.mp h
    refine ⟨strongCount_eq_zero.mpr ⟨howned, hrequests, hbackfill, ?_⟩, rfl⟩
    simp [h]
  · exact ⟨h, rfl⟩

theorem tick_of_strongCount {t : Timeline} (h : t.strongCount = 0) (now : ℕ) :
    (t.tick now).strongCount = 0 ∧ (t.tick now).channel = t.channel := by
  rw [tick_of_ne (strongCount_eq_zero.mp h).2.2.2]
  exact ⟨h, rfl⟩

theorem step_of_strongCount {t : Timeline} (h : t.strongCount = 0) (event : TimelineEvent) :
    (t.step event).strongCount = 0 ∧ (t.step event).channel = t.channel := by
  obtain ⟨-, hrequests, hbackfill, -⟩ := strongCount_eq_zero.mp h
  cases event with
  | poll now =>
    obtain ⟨hcount, hchannel⟩ := upgrade_of_strongCount h
    obtain ⟨hcount', hchannel'⟩ := tick_of_strongCount hcount now
    exact ⟨hcount', hchannel'.trans hchannel⟩
  | response i response =>
    have hsame : t.step (.response i response) = t := by simp [step, pollRequest, hrequests]
    rw [hsame]
    exact ⟨h, rfl⟩
  | backfill response =>
    have hsame : t.step (.backfill response) = t := by simp [step, pollBackfill, hbackfill]
    rw [hsame]
    exact ⟨h, rfl⟩

/-! ### After the shutdown -/

/-- Where the `Interval` is polled with its timer run out, no regular request and no backfill is under way
and no poll is in progress. -/
def Stopped (t : Timeline) : TimelineEvent → Prop
  | .poll now => t.Due now → t.requests = [] ∧ t.backfill = none ∧ ∀ deadline, t.interval ≠ .polling deadline
  | _ => True

theorem stopped_iff {t : Timeline} (h : t.owned = false) (event : TimelineEvent) :
    t.Stopped event ↔ (t.step event).yielded = t.yielded := by
  cases event with
  | poll now =>
    have hcount : t.strongCount = 0 ↔
        t.requests = [] ∧ t.backfill = none ∧ ∀ deadline, t.interval ≠ .polling deadline := by
      simp [strongCount_eq_zero, h]
    rw [Stopped, ← hcount]
    obtain ⟨hpos, hdue, hyielded, -⟩ | ⟨hzero, interval, nextTick, heq⟩ := t.poll_cases now
    · rw [hyielded]
      exact ⟨fun hstopped => absurd (hstopped hdue) (by omega), fun hsame => absurd hsame (by omega)⟩
    · rw [heq]
      exact ⟨fun _ => rfl, fun _ => hzero⟩
  | response i response => exact ⟨fun _ => (pollRequest_frame i response).2.1, fun _ => trivial⟩
  | backfill response => exact ⟨fun _ => (pollBackfill_frame response).2.1, fun _ => trivial⟩

theorem stopped_step {t : Timeline} (h : t.owned = false) {event : TimelineEvent} (hstopped : t.Stopped event) :
    (t.step event).owned = false ∧ (t.step event).requests.Sublist t.requests := by
  cases event with
  | poll now =>
    obtain ⟨hcount, hdue, -, -⟩ | ⟨-, interval, nextTick, heq⟩ := t.poll_cases now
    · have hzero := strongCount_eq_zero.mpr ⟨h, hstopped hdue⟩
      omega
    · rw [heq]
      exact ⟨h, List.Sublist.refl _⟩
  | response i response =>
    obtain ⟨howned, -, hrequests, -, -⟩ := t.pollRequest_frame i response
    exact ⟨howned.trans h, hrequests⟩
  | backfill response =>
    obtain ⟨howned, -, hrequests, -⟩ := t.pollBackfill_frame response
    exact ⟨howned.trans h, hrequests ▸ List.Sublist.refl _⟩

/-- After the shutdown the `Interval` yields nothing, and no request is added, exactly if it is never polled
with its timer run out while a request or the backfill is under way. -/
theorem no_request_iff (t : Timeline) (run : List TimelineEvent) :
    ((∀ x ∈ Runs.states step t.shutdown run, x.yielded = t.yielded) ∧
      (Runs.states step t.shutdown run).Pairwise fun x y => y.requests.Sublist x.requests) ↔
      ∀ m ∈ Runs.moves step t.shutdown run, m.1.Stopped m.2 := by
  have hstart : t.shutdown.owned = false := rfl
  have hiff : (∀ x ∈ Runs.states step t.shutdown run, x.yielded = t.yielded) ↔
      ∀ m ∈ Runs.moves step t.shutdown run, m.1.Stopped m.2 := by
    refine Runs.always_iff_moves (I := fun x : Timeline => x.owned = false)
      (P := fun x => x.yielded = t.yielded) (C := Stopped)
      (fun x event howned _ hstopped => (stopped_step howned hstopped).1) ?_ hstart rfl run
    intro x event howned hsame
    rw [stopped_iff howned, hsame]
  refine ⟨fun h => hiff.mp h.1, fun h => ⟨hiff.mpr h, ?_⟩⟩
  exact Runs.pairwise_states (I := fun x : Timeline => x.owned = false) (fun hxy hyz => hyz.trans hxy)
    (fun x event howned hstopped => stopped_step howned hstopped) hstart h

/-- A list that is polled every ten seconds. -/
def tenSeconds : RequestSender where
  listId := ⟨10, by decide⟩
  delay := 0
  period := 10000000000
  token := ⟨⟨"", ""⟩, 1, ⟨"", ""⟩⟩

/-- The first request takes more than ten seconds, and the timeline is shut down meanwhile. -/
theorem polled_after_shutdown : ¬ ∀ (sender : RequestSender) (sinceId : Option Int64) (now : ℕ)
    (before after : List TimelineEvent),
    (Runs.final step (Runs.final step (new sender sinceId now) before).shutdown after).yielded =
      (Runs.final step (new sender sinceId now) before).yielded := by
  intro h
  exact absurd (h tenSeconds none 0 [.poll 0] [.poll 10000000000]) (by decide)

end Timeline

end Pipitor.Twitter
