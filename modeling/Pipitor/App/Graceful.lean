import Pipitor.App.Sender
import Pipitor.Twitter.Interval

/-!
# The graceful shutdown

`App::shutdown` and `App::poll_shutdown` of `app.rs` among the other tasks: those of the list timeline and
the futures that were wrapped with a handle of the `Shutdown`. One step of `poll_shutdown` takes one batch
from the channel or looks at the handles, so the other tasks may come between any two of them. A receiver
yields `None` when all senders are gone and the channel is empty, and the `Shutdown` is ready when there is
no handle but its own.
-/

namespace Pipitor.App

open Resumption Twitter

/-- Where the future of `App::shutdown` is: there is none, it is not being polled, its poll is in the loop or
at `Core::poll_shutdown`, or it is over, with an `Ok` or otherwise. -/
inductive Progress
  | none
  | asleep
  | drain
  | wait
  | ok
  | failed
deriving DecidableEq

/-- `passed` are the batches of the present timeline that `send_tweets` was called with, and `futures` the
wrapped futures that have not been completed, by their numbers. -/
structure Graceful where
  core : Core
  board : Board
  twitterList : Option Timeline
  passed : List (List Tweet)
  futures : List ℕ
  wrapped : ℕ
  call : Progress

namespace Graceful

/-- A step of a task of the timeline, the end of a wrapped future, a write to the database, what the `App`
does while no shutdown is under way, or a step of the shutdown. -/
inductive Event
  | upgrade
  | tick (now : ℕ)
  | list (event : TimelineEvent)
  | complete (future : ℕ)
  | write (db : Database)
  | wrap
  | pollList (faults : ℕ → Faults)
  | replace (core : Core) (twitterList : Option (RequestSender × Option Int64 × ℕ))
  | shutdown
  | drop
  | poll (faults : ℕ → Faults)

def start (core : Core) (board : Board) (twitterList : Option (RequestSender × Option Int64 × ℕ)) :
    Graceful where
  core
  board
  twitterList := twitterList.map fun list => .new list.1 list.2.1 list.2.2
  passed := []
  futures := []
  wrapped := 0
  call := .none

/-- The futures that have been spawned, by the log. -/
def spawned (log : List LogEntry) : ℕ := log.countP fun entry => entry matches .spawned _ _

/-- `core.shutdown_handle().wrap_future(..)`, so many times. -/
def wrap (s : Graceful) (n : ℕ) : Graceful :=
  { s with futures := s.futures ++ List.range' s.wrapped n, wrapped := s.wrapped + n }

/-- `send_tweets` of a batch. -/
def sendTweets (s : Graceful) (faults : ℕ → Faults) (tweets : List Tweet) :
    Except Failure Unit × Graceful :=
  let (result, board) := (App.sendTweets s.core faults tweets).run s.board
  (result, { s.wrap (spawned board.log - spawned s.board.log) with board, passed := s.passed ++ [tweets] })

/-- `twitter_list.poll_next`. -/
def pollNext (s : Graceful) : Poll (Option (List Tweet)) × Graceful :=
  match s.twitterList with
  | some t =>
    let (polled, t) := t.pollNext
    (polled, { s with twitterList := some t })
  | none => (.ready none, s)

/-- One iteration of the loop in `App::poll`. -/
def pollList (s : Graceful) (faults : ℕ → Faults) : Graceful :=
  match s.pollNext with
  | (.ready (some tweets), s) => (s.sendTweets faults tweets).2
  | (_, s) => s

/-- The next step of `App::poll_shutdown`. -/
def poll (s : Graceful) (faults : ℕ → Faults) : Graceful :=
  match s.call with
  | .asleep => { s with twitterList := s.twitterList.map Timeline.shutdown, call := .drain }
  | .drain =>
    match s.pollNext with
    | (.ready (some tweets), s) =>
      let (result, s) := s.sendTweets faults tweets
      match result with
      | .ok () => s
      | .error _ => { s with call := .failed }
    | (.ready none, s) => { s with call := .wait }
    | (.pending, s) => { s with call := .asleep }
  | .wait => if s.futures = [] then { s with call := .ok } else { s with call := .asleep }
  | _ => s

def mapList (s : Graceful) (f : Timeline → Timeline) : Graceful :=
  { s with twitterList := s.twitterList.map f }

def step (s : Graceful) : Event → Graceful
  | .upgrade => s.mapList Timeline.upgrade
  | .tick now => s.mapList (·.tick now)
  | .list event => s.mapList (·.step event)
  | .complete future => { s with futures := s.futures.erase future }
  | .write db => { s with board := { s.board with db } }
  | .wrap => if s.call = .none then s.wrap 1 else s
  | .pollList faults => if s.call = .none then s.pollList faults else s
  | .replace core twitterList =>
    if s.call = .none then
      { s with core, passed := [], twitterList := twitterList.map fun list => .new list.1 list.2.1 list.2.2 }
    else s
  | .shutdown => if s.call = .none then { s with call := .asleep } else s
  | .drop => if s.call = .asleep ∨ s.call = .ok ∨ s.call = .failed then { s with call := .none } else s
  | .poll faults => s.poll faults

/-! ### What is passed on -/

/-- Everything that was put on the channel has been passed on in order or is still there. When the loop is
over, nothing is left that could put more on it; when the future is over, so are the wrapped futures. -/
structure Sound (s : Graceful) : Prop where
  inOrder : ∀ t, s.twitterList = some t → s.passed ++ t.channel = t.put
  exhausted : s.call = .wait ∨ s.call = .ok →
    ∀ t, s.twitterList = some t → t.channel = [] ∧ t.strongCount = 0
  completed : s.call = .ok → s.futures = []

theorem Sound.start (core : Core) (board : Board)
    (twitterList : Option (RequestSender × Option Int64 × ℕ)) : (start core board twitterList).Sound where
  inOrder t ht := by
    obtain ⟨list, -, rfl⟩ := Option.map_eq_some_iff.mp ht
    rfl
  exhausted h := by simp [Graceful.start] at h
  completed h := by simp [Graceful.start] at h

theorem Sound.mapList {s : Graceful} (h : s.Sound) {f : Timeline → Timeline}
    (hf : ∀ t : Timeline, t.Appends (f t))
    (hspent : ∀ t : Timeline, t.strongCount = 0 → (f t).strongCount = 0 ∧ (f t).channel = t.channel) :
    (s.mapList f).Sound where
  inOrder t' ht' := by
    obtain ⟨t, ht, rfl⟩ := Option.map_eq_some_iff.mp ht'
    obtain ⟨batches, hchannel, hput⟩ := hf t
    show s.passed ++ (f t).channel = (f t).put
    rw [hchannel, hput, ← List.append_assoc, h.inOrder t ht]
  exhausted hcall t' ht' := by
    obtain ⟨t, ht, rfl⟩ := Option.map_eq_some_iff.mp ht'
    obtain ⟨hchannel, hcount⟩ := h.exhausted hcall t ht
    obtain ⟨hcount', hchannel'⟩ := hspent t hcount
    exact ⟨hchannel'.trans hchannel, hcount'⟩
  completed := h.completed

/-- While no shutdown is under way, only the order of the batches matters. -/
theorem Sound.of_call {s : Graceful} (hcall : s.call ≠ .wait ∧ s.call ≠ .ok)
    (h : ∀ t, s.twitterList = some t → s.passed ++ t.channel = t.put) : s.Sound where
  inOrder := h
  exhausted hor := absurd hor (by simp [hcall])
  completed hok := absurd hok hcall.2

@[simp] theorem sendTweets_twitterList (s : Graceful) (faults : ℕ → Faults) (tweets : List Tweet) :
    (s.sendTweets faults tweets).2.twitterList = s.twitterList := rfl

@[simp] theorem sendTweets_passed (s : Graceful) (faults : ℕ → Faults) (tweets : List Tweet) :
    (s.sendTweets faults tweets).2.passed = s.passed ++ [tweets] := rfl

@[simp] theorem sendTweets_call (s : Graceful) (faults : ℕ → Faults) (tweets : List Tweet) :
    (s.sendTweets faults tweets).2.call = s.call := rfl

/-- What a poll of the timeline does: it takes the first batch, or finds that there is none, now or for
good. -/
theorem pollNext_cases (s : Graceful) :
    (∃ t tweets channel, s.twitterList = some t ∧ t.channel = tweets :: channel ∧
      s.pollNext = (.ready (some tweets), { s with twitterList := some { t with channel } })) ∨
    (s.pollNext = (.pending, s)) ∨
    (s.pollNext = (.ready none, s) ∧ ∀ t, s.twitterList = some t → t.channel = [] ∧ t.strongCount = 0) := by
  unfold pollNext
  cases hlist : s.twitterList with
  | none => exact .inr (.inr ⟨rfl, by simp⟩)
  | some t =>
    have hself : ({ s with twitterList := some t } : Graceful) = s := by rw [← hlist]
    cases hchannel : t.channel with
    | cons tweets channel =>
      exact .inl ⟨t, tweets, channel, rfl, hchannel, by simp [Timeline.pollNext, hchannel]⟩
    | nil =>
      by_cases hcount : t.strongCount = 0
      · refine .inr (.inr ⟨by simp [Timeline.pollNext, hchannel, hcount, hself], fun t' ht' => ?_⟩)
        cases ht'
        exact ⟨hchannel, hcount⟩
      · exact .inr (.inl (by simp [Timeline.pollNext, hchannel, hcount, hself]))

theorem inOrder_sendTweets {s : Graceful} {t : Timeline} {tweets : List Tweet} (hlist : s.twitterList = some t)
    (h : s.passed ++ tweets :: t.channel = t.put) (faults : ℕ → Faults) (t' : Timeline)
    (ht' : (s.sendTweets faults tweets).2.twitterList = some t') :
    (s.sendTweets faults tweets).2.passed ++ t'.channel = t'.put := by
  rw [sendTweets_twitterList, hlist] at ht'
  cases ht'
  simpa using h

theorem Sound.pollList {s : Graceful} (h : s.Sound) (hcall : s.call = .none) (faults : ℕ → Faults) :
    (s.pollList faults).Sound := by
  unfold Graceful.pollList
  obtain ⟨t, tweets, channel, hlist, hchannel, heq⟩ | heq | ⟨heq, -⟩ := s.pollNext_cases <;> rw [heq]
  · exact .of_call (by simp [hcall]) (inOrder_sendTweets rfl (hchannel ▸ h.inOrder t hlist) faults)
  · exact h
  · exact h

theorem Sound.poll {s : Graceful} (h : s.Sound) (faults : ℕ → Faults) : (s.poll faults).Sound := by
  unfold Graceful.poll
  cases hcall : s.call with
  | asleep =>
    refine .of_call (by simp) fun t' ht' => ?_
    obtain ⟨t, ht, rfl⟩ := Option.map_eq_some_iff.mp ht'
    exact h.inOrder t ht
  | drain =>
    dsimp only
    obtain ⟨t, tweets, channel, hlist, hchannel, heq⟩ | heq | ⟨heq, hspent⟩ := s.pollNext_cases <;>
      rw [heq] <;> dsimp only
    · have hinOrder := inOrder_sendTweets (s := { s with twitterList := some { t with channel } }) rfl
        (hchannel ▸ h.inOrder t hlist) faults
      split
      · exact .of_call (by simp [hcall]) hinOrder
      · exact .of_call (by simp) hinOrder
    · exact .of_call (by simp) h.inOrder
    · exact ⟨h.inOrder, fun _ => hspent, by simp⟩
  | wait =>
    dsimp only
    split
    · rename_i hfutures
      exact ⟨h.inOrder, fun _ => h.exhausted (.inl hcall), fun _ => hfutures⟩
    · exact .of_call (by simp) h.inOrder
  | none => exact h
  | ok => exact h
  | failed => exact h

theorem Sound.step {s : Graceful} (h : s.Sound) (event : Event) : (s.step event).Sound := by
  cases event with
  | upgrade => exact h.mapList Timeline.appends_upgrade fun _ => Timeline.upgrade_of_strongCount
  | tick now => exact h.mapList (fun t => t.appends_tick now) fun _ ht => Timeline.tick_of_strongCount ht now
  | list event =>
    exact h.mapList (fun t => t.appends_step event) fun _ ht => Timeline.step_of_strongCount ht event
  | complete future =>
    refine ⟨h.inOrder, h.exhausted, fun hok => ?_⟩
    show s.futures.erase future = []
    rw [h.completed hok]
    rfl
  | write db => exact ⟨h.inOrder, h.exhausted, h.completed⟩
  | wrap =>
    unfold Graceful.step
    dsimp only
    split
    · rename_i hcall
      exact .of_call (by simp [Graceful.wrap, hcall]) h.inOrder
    · exact h
  | pollList faults =>
    unfold Graceful.step
    dsimp only
    split
    · rename_i hcall
      exact h.pollList hcall faults
    · exact h
  | replace core twitterList =>
    unfold Graceful.step
    dsimp only
    split
    · rename_i hcall
      refine .of_call (by simp [hcall]) fun t ht => ?_
      obtain ⟨list, -, rfl⟩ := Option.map_eq_some_iff.mp ht
      rfl
    · exact h
  | shutdown =>
    unfold Graceful.step
    dsimp only
    split
    · exact .of_call (by simp) h.inOrder
    · exact h
  | drop =>
    unfold Graceful.step
    dsimp only
    split
    · exact .of_call (by simp) h.inOrder
    · exact h
  | poll faults => exact h.poll faults

/-- When the future of the shutdown is over with an `Ok`, every batch that was ever put on the channel of the
present timeline has been passed to `send_tweets` once and in order, no reference to the `RequestSender` is
left, so that no request and no backfill is under way, and no wrapped future is. -/
theorem shutdown_complete (core : Core) (board : Board)
    (twitterList : Option (RequestSender × Option Int64 × ℕ)) (run : List Event)
    (hok : (Runs.final step (start core board twitterList) run).call = .ok) :
    (∀ t, (Runs.final step (start core board twitterList) run).twitterList = some t →
      (Runs.final step (start core board twitterList) run).passed = t.put ∧ t.owned = false ∧
        t.requests = [] ∧ t.backfill = none ∧ ∀ deadline, t.interval ≠ .polling deadline) ∧
      (Runs.final step (start core board twitterList) run).futures = [] := by
  have h : (Runs.final step (start core board twitterList) run).Sound :=
    Runs.final_induction (I := Sound) (fun _ event hs => hs.step event) (.start core board twitterList) run
  refine ⟨fun t ht => ?_, h.completed hok⟩
  obtain ⟨hchannel, hcount⟩ := h.exhausted (.inr hok) t ht
  have hput := h.inOrder t ht
  rw [hchannel, List.append_nil] at hput
  exact ⟨hput, Timeline.strongCount_eq_zero.mp hcount⟩

def sampleStart : Graceful :=
  start (sampleCore (sampleManifest none [.twitter 10])) ⟨sampleDatabase, [], []⟩
    (some (Timeline.tenSeconds, none, 0))

/-- The shutdown begins while the first request is under way, and its retweet is waited for. -/
def oneRequest : List Event :=
  [.upgrade, .tick 0, .shutdown, .poll fun _ _ => false, .poll fun _ _ => false,
   .list (.response 0 (.ok [⟨7, "tweet", none, none, 10, none, none⟩] none)),
   .poll fun _ _ => false, .poll fun _ _ => false, .poll fun _ _ => false, .poll fun _ _ => false,
   .complete 0, .poll fun _ _ => false, .poll fun _ _ => false, .poll fun _ _ => false]

theorem shutdown_complete_oneRequest :
    (Runs.final step sampleStart oneRequest).wrapped = 1 ∧
      (Runs.final step sampleStart oneRequest).futures = [] :=
  ⟨by decide, (shutdown_complete _ _ _ oneRequest (by decide)).2⟩

end Graceful

end Pipitor.App
