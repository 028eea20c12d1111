import Pipitor.Twitter.Interval

/-!
# The pace of the interval

`twitter/list_timeline/interval.rs` by itself, one atomic action at a time: the clock goes on and other threads
call `Handle::delay` between any two actions of `Interval::poll_next`. Times are in nanoseconds, the arguments
of `delay` in seconds. `paced` is what holds of every such run.
-/

namespace Pipitor.Twitter

open scoped List

/-- How far `poll_next` has got. -/
inductive Stage
  | waiting
  | started
  | armed
  | ready
  | ended
deriving DecidableEq, Repr

/-- What has been done. `armed` is the `swap` of `next_tick`; a yield is dated by the moment at which the timer
is found to have run out, which is not after its return. -/
inductive TickerEntry
  | delayed (after : ℕ)
  | started
  | armed
  | yielded (time : ℕ)
deriving DecidableEq, Repr

/-- An `Interval` with its `Handle`, which is `alive` as long as somebody else has a reference to it. -/
structure Ticker where
  now : ℕ
  nextTick : ℕ
  deadline : ℕ
  stage : Stage
  alive : Bool
  log : List TickerEntry

/-- `act` is the next action of a poll. -/
inductive TickerEvent
  | advance (time : ℕ)
  | delay (after : ℕ)
  | drop
  | act

namespace Ticker

/-- `Interval::at`. -/
def new (deadline now : ℕ) : Ticker := ⟨now, 0, deadline, .waiting, true, []⟩

/-- The deadline after `decode_next_tick`. Instants are unbounded here: `util::instant_from_unix` panics for an
argument of `delay` that is about `2 ^ 63` or more, which ends the task, and with it the yields. -/
def postponed (s : Ticker) : ℕ :=
  if s.nextTick ≠ 0 ∧ s.deadline < s.nextTick * 1000000000 then s.nextTick * 1000000000 else s.deadline

def step (period : ℕ) (s : Ticker) : TickerEvent → Ticker
  | .advance time => { s with now := s.now + time }
  | .delay after => { s with nextTick := max s.nextTick after, log := s.log ++ [.delayed after] }
  | .drop => { s with alive := false }
  | .act =>
    match s.stage with
    | .waiting =>
      if s.alive then { s with stage := .started, log := s.log ++ [.started] } else { s with stage := .ended }
    | .started => { s with nextTick := 0, deadline := s.postponed, stage := .armed, log := s.log ++ [.armed] }
    | .armed =>
      if s.deadline ≤ s.now then { s with stage := .ready, log := s.log ++ [.yielded s.now] }
      else { s with stage := .waiting }
    | .ready => { s with deadline := max (s.deadline + period) s.now, stage := .waiting }
    | .ended => s

/-- When the interval has yielded. -/
def yields (s : Ticker) : List ℕ :=
  s.log.filterMap fun
    | .yielded time => some time
    | _ => none

/-- The largest delay since the last `swap`. -/
def pending (s : Ticker) : ℕ :=
  s.log.foldl (fun largest entry => match entry with
    | .delayed after => max largest after
    | .armed => 0
    | _ => largest) 0

/-- With nothing in between, the rest of a poll is that of a `Timeline`. -/
theorem tick_eq {t : Timeline} {deadline : ℕ} (h : t.interval = .polling deadline) (now : ℕ)
    (log : List TickerEntry) :
    let armed : Ticker := step t.sender.period ⟨now, t.nextTick, deadline, .started, true, log⟩ .act
    let polled := armed.step t.sender.period .act
    let reset := polled.step t.sender.period .act
    polled.stage = .ready ∧ t.tick now =
        ({ t with nextTick := reset.nextTick, interval := .waiting reset.deadline } : Timeline).send now ∨
      polled.stage = .waiting ∧ t.tick now =
        { t with nextTick := polled.nextTick, interval := .waiting polled.deadline } := by
  intro armed polled reset
  rcases Timeline.tick_polling h now with ⟨hdue, htick⟩ | ⟨hlt, htick⟩
  · have hpolled : polled = ⟨now, 0, t.postponed deadline, .ready, true, log ++ [.armed] ++ [.yielded now]⟩ :=
      if_pos hdue
    have hreset : reset = polled.step t.sender.period .act := rfl
    rw [hreset, hpolled]
    exact .inl ⟨rfl, htick⟩
  · have hpolled : polled = ⟨now, 0, t.postponed deadline, .waiting, true, log ++ [.armed]⟩ :=
      if_neg (Nat.not_le_of_lt hlt)
    rw [hpolled]
    exact .inr ⟨rfl, htick⟩

variable {period first : ℕ} {s : Ticker}

theorem postponed_eq (s : Ticker) : s.postponed = max s.deadline (s.nextTick * 1000000000) := by
  unfold postponed
  split
  · omega
  · omega

theorem deadline_le_step (s : Ticker) (event : TickerEvent) : s.deadline ≤ (s.step period event).deadline := by
  cases event with
  | advance time => exact le_rfl
  | delay after => exact le_rfl
  | drop => exact le_rfl
  | act =>
    unfold step
    cases s.stage with
    | waiting =>
      dsimp only
      split
      · exact le_rfl
      · exact le_rfl
    | started =>
      show s.deadline ≤ s.postponed
      rw [postponed_eq]
      exact le_max_left _ _
    | armed =>
      dsimp only
      split
      · exact le_rfl
      · exact le_rfl
    | ready =>
      show s.deadline ≤ max (s.deadline + period) s.now
      omega
    | ended => exact le_rfl

theorem sublist_concat_iff {α : Type} (part : List α) {log : List α} {x entry : α} :
    (part ++ [x]) <+ (log ++ [entry]) ↔ (part ++ [x]) <+ log ∨ x = entry ∧ part <+ log := by
  rw [← List.reverse_sublist, List.reverse_append, List.reverse_append]
  show (x :: part.reverse) <+ (entry :: log.reverse) ↔ _
  rw [List.cons_sublist_cons', List.reverse_sublist, ← List.reverse_concat, List.reverse_sublist]

theorem sublist_pair {log : List TickerEntry} {x y entry : TickerEntry} (h : [x, y] <+ log ++ [entry])
    (hne : y ≠ entry) : [x, y] <+ log :=
  ((sublist_concat_iff [x]).mp h).resolve_right fun heq => hne heq.1

theorem sublist_triple {log : List TickerEntry} {x y z entry : TickerEntry} (h : [x, y, z] <+ log ++ [entry]) :
    [x, y, z] <+ log ∨ z = entry ∧ [x, y] <+ log :=
  (sublist_concat_iff [x, y]).mp h

/-- What holds of an interval whose first deadline is `first`. -/
structure Sound (period first : ℕ) (s : Ticker) : Prop where
  yields : ∀ k time, s.yields[k]? = some time → first + k * period ≤ time
  deadline : first + s.yields.length * period ≤ s.deadline + (if s.stage = .ready then period else 0)
  nextTick : s.nextTick = s.pending
  delayed : ∀ after, .delayed after ∈ s.log → after ≤ s.nextTick ∨ after * 1000000000 ≤ s.deadline
  heard : ∀ after, [.delayed after, .started] <+ s.log → s.stage ≠ .started → after * 1000000000 ≤ s.deadline
  obeyed : ∀ after time, [.delayed after, .started, .yielded time] <+ s.log → after * 1000000000 ≤ time

theorem sound_new (period first now : ℕ) : (new first now).Sound period first where
  yields := nofun
  deadline := by simp [new, Ticker.yields]
  nextTick := rfl
  delayed := nofun
  heard := fun _ h => nomatch h
  obeyed := fun _ _ h => nomatch h

/-- An action that adds nothing to the log keeps what holds, if it keeps the next tick and does not lower the
deadline. -/
theorem Sound.quiet (h : s.Sound period first) {s' : Ticker} (hlog : s'.log = s.log)
    (hnext : s'.nextTick = s.nextTick) (hle : s.deadline ≤ s'.deadline)
    (hready : s.stage = .ready → s'.stage = .ready ∨ s.deadline + period ≤ s'.deadline)
    (hstarted : s.stage = .started → s'.stage = .started) : s'.Sound period first := by
  have hyields : s'.yields = s.yields := congrArg (List.filterMap _) hlog
  refine ⟨?_, ?_, ?_, ?_, ?_, ?_⟩
  · rw [hyields]
    exact h.yields
  · have hdeadline := h.deadline
    rw [hyields]
    by_cases hstage : s.stage = .ready
    · rw [if_pos hstage] at hdeadline
      rcases hready hstage with hstage' | hraised
      · rw [if_pos hstage']
        omega
      · omega
    · rw [if_neg hstage] at hdeadline
      omega
  · rw [hnext, h.nextTick]
    exact congrArg (List.foldl _ 0) hlog.symm
  · intro after hmem
    rw [hlog] at hmem
    rw [hnext]
    exact (h.delayed after hmem).imp_right fun hle' => hle'.trans hle
  · intro after hsub hstage
    rw [hlog] at hsub
    exact (h.heard after hsub fun hs => hstage (hstarted hs)).trans hle
  · rw [hlog]
    exact h.obeyed

theorem Sound.delay (h : s.Sound period first) (after : ℕ) : (s.step period (.delay after)).Sound period first where
  yields := by simpa [Ticker.yields, step] using h.yields
  deadline := by
    have hsame : (s.step period (.delay after)).yields = s.yields := by simp [Ticker.yields, step]
    rw [hsame]
    exact h.deadline
  nextTick := by
    show max s.nextTick after = _
    rw [h.nextTick]
    simp [pending, step]
  delayed := by
    intro after' hmem
    rcases List.mem_append.mp hmem with hmem | hmem
    · exact (h.delayed after' hmem).imp_left fun hle => hle.trans (le_max_left _ _)
    · obtain rfl : after' = after := by simpa using hmem
      exact .inl (le_max_right _ _)
  heard := by
    intro after' hsub hstage
    exact h.heard after' (sublist_pair hsub nofun) hstage
  obeyed := by
    intro after' time hsub
    rcases sublist_triple hsub with hsub | ⟨hne, -⟩
    · exact h.obeyed after' time hsub
    · cases hne

theorem Sound.start (h : s.Sound period first) (hstage : s.stage = .waiting) :
    ({ s with stage := .started, log := s.log ++ [.started] } : Ticker).Sound period first where
  yields := by simpa [Ticker.yields] using h.yields
  deadline := by simpa [Ticker.yields, hstage] using h.deadline
  nextTick := by simpa [pending] using h.nextTick
  delayed := by simpa using h.delayed
  heard := fun _ _ hne => absurd rfl hne
  obeyed := by
    intro after time hsub
    rcases sublist_triple hsub with hsub | ⟨hne, -⟩
    · exact h.obeyed after time hsub
    · cases hne

/-- The `swap`: the delays up to it are in the deadline. -/
theorem Sound.arm (h : s.Sound period first) (hstage : s.stage = .started) :
    ({ s with nextTick := 0, deadline := s.postponed, stage := .armed, log := s.log ++ [.armed] } :
      Ticker).Sound period first := by
  have hle : s.deadline ≤ s.postponed := by
    rw [postponed_eq]
    exact le_max_left _ _
  have hdelayed : ∀ after, .delayed after ∈ s.log → after * 1000000000 ≤ s.postponed := by
    intro after hmem
    have hafter := h.delayed after hmem
    rw [postponed_eq]
    omega
  refine ⟨?_, ?_, ?_, ?_, ?_, ?_⟩
  · simpa [Ticker.yields] using h.yields
  · have hdeadline : first + s.yields.length * period ≤ s.deadline := by simpa [hstage] using h.deadline
    simpa [Ticker.yields] using hdeadline.trans hle
  · simp [pending]
  · intro after hmem
    exact .inr (hdelayed after (by simpa using hmem))
  · intro after hsub _
    exact hdelayed after ((sublist_pair hsub nofun).subset (by simp))
  · intro after time hsub
    rcases sublist_triple hsub with hsub | ⟨hne, -⟩
    · exact h.obeyed after time hsub
    · cases hne

theorem Sound.yield (h : s.Sound period first) (hstage : s.stage = .armed) (hdue : s.deadline ≤ s.now) :
    ({ s with stage := .ready, log := s.log ++ [.yielded s.now] } : Ticker).Sound period first := by
  have hdeadline : first + s.yields.length * period ≤ s.deadline := by simpa [hstage] using h.deadline
  have hyields : ({ s with stage := .ready, log := s.log ++ [.yielded s.now] } : Ticker).yields =
      s.yields ++ [s.now] := by
    simp [Ticker.yields]
  refine ⟨?_, ?_, ?_, ?_, ?_, ?_⟩
  · intro k time hk
    rw [hyields] at hk
    by_cases hlt : k < s.yields.length
    · rw [List.getElem?_append_left hlt] at hk
      exact h.yields k time hk
    · obtain ⟨hk', -⟩ := List.getElem?_eq_some_iff.mp hk
      obtain rfl : k = s.yields.length := by
        rw [List.length_append, List.length_singleton] at hk'
        omega
      obtain rfl : s.now = time := by simpa using hk
      omega
  · rw [hyields, List.length_append, List.length_singleton, if_pos rfl, Nat.add_mul]
    show _ ≤ s.deadline + period
    omega
  · simpa [pending] using h.nextTick
  · simpa using h.delayed
  · intro after hsub _
    exact h.heard after (sublist_pair hsub nofun) (by simp [hstage])
  · intro after time hsub
    rcases sublist_triple hsub with hsub | ⟨heq, hheard⟩
    · exact h.obeyed after time hsub
    · cases heq
      exact (h.heard after hheard (by simp [hstage])).trans hdue

theorem Sound.step (h : s.Sound period first) (event : TickerEvent) : (s.step period event).Sound period first := by
  cases event with
  | advance time => exact h.quiet rfl rfl le_rfl .inl id
  | delay after => exact h.delay after
  | drop => exact h.quiet rfl rfl le_rfl .inl id
  | act =>
    unfold Ticker.step
    cases hstage : s.stage with
    | waiting =>
      dsimp only
      split
      · exact h.start hstage
      · exact h.quiet rfl rfl le_rfl (by simp [hstage]) (by simp [hstage])
    | started => exact h.arm hstage
    | armed =>
      dsimp only
      split
      · rename_i hdue
        exact h.yield hstage hdue
      · exact h.quiet rfl rfl le_rfl (by simp [hstage]) (by simp [hstage])
    | ready =>
      refine h.quiet rfl rfl ?_ (fun _ => .inr (le_max_left _ _)) (by simp [hstage])
      exact (Nat.le_add_right _ _).trans (le_max_left _ _)
    | ended => exact h

theorem Sound.final (h : s.Sound period first) (run : List TickerEvent) :
    (Runs.final (Ticker.step period) s run).Sound period first :=
  Runs.final_induction (fun _ event h => h.step event) h run

/-- Where the `k`-th of some times is not before `first + k * period`, not many are up to a given time. -/
theorem length_filter_le {times : List ℕ} (hperiod : 0 < period)
    (h : ∀ k time, times[k]? = some time → first + k * period ≤ time) (limit : ℕ) :
    (times.filter (· ≤ limit)).length ≤ if first ≤ limit then (limit - first) / period + 1 else 0 := by
  let bound := if first ≤ limit then (limit - first) / period + 1 else 0
  have hlate : ∀ k time, times[k]? = some time → bound ≤ k → limit < time := by
    intro k time hk hbound
    have htime := h k time hk
    by_cases hfirst : first ≤ limit
    · have hk' : (limit - first) / period + 1 ≤ k := by simpa [bound, hfirst] using hbound
      have hlt : limit - first < k * period := by
        calc limit - first < ((limit - first) / period + 1) * period := (Nat.div_lt_iff_lt_mul hperiod).mp (Nat.lt_succ_self _)
          _ ≤ k * period := Nat.mul_le_mul_right _ hk'
      omega
    · omega
  have hdrop : (times.drop bound).filter (· ≤ limit) = [] := by
    rw [List.filter_eq_nil_iff]
    intro time hmem
    obtain ⟨k, hk⟩ := List.mem_iff_getElem?.mp hmem
    rw [List.getElem?_drop] at hk
    have := hlate _ time hk (Nat.le_add_right _ _)
    simpa using this
  calc (times.filter (· ≤ limit)).length
      = (((times.take bound) ++ times.drop bound).filter (· ≤ limit)).length := by rw [List.take_append_drop]
    _ = ((times.take bound).filter (· ≤ limit)).length := by rw [List.filter_append, hdrop, List.append_nil]
    _ ≤ (times.take bound).length := List.length_filter_le _ _
    _ ≤ bound := List.length_take_le _ _

end Ticker

/-- **The interval keeps to its pace**, whatever the polls, the delays and the times at which they come: its
yields are a period apart from the first deadline on; none is before the end of a delay that was called before
its poll; the largest of the delays since the last poll is the one that counts; the deadline is never put
forward. -/
theorem paced (period first now : ℕ) (hperiod : 0 < period) (run : List TickerEvent) :
    let s := Runs.final (Ticker.step period) (.new first now) run
    (∀ k time, s.yields[k]? = some time → first + k * period ≤ time) ∧
      (∀ limit, (s.yields.filter (· ≤ limit)).length ≤
        if first ≤ limit then (limit - first) / period + 1 else 0) ∧
      (∀ after time, [.delayed after, .started, .yielded time] <+ s.log → after * 1000000000 ≤ time) ∧
      (s.stage = .started → (s.step period .act).deadline = max s.deadline (s.pending * 1000000000)) ∧
      ∀ event, s.deadline ≤ (s.step period event).deadline := by
  intro s
  have hsound : s.Sound period first := (Ticker.sound_new period first now).final run
  refine ⟨hsound.yields, Ticker.length_filter_le hperiod hsound.yields, hsound.obeyed, fun hstage => ?_,
    s.deadline_le_step⟩
  rw [← hsound.nextTick, ← Ticker.postponed_eq]
  unfold Ticker.step
  rw [hstage]

/-- A late poll, a delay to 3 s and two polls more. -/
def delayedRun : List TickerEvent :=
  [.advance 1500000000, .act, .act, .act, .act, .delay 3, .act, .act, .act, .advance 1500000000, .act, .act, .act,
    .act]

theorem paced_delayedRun :
    (Runs.final (Ticker.step 1000000000) (.new 0 0) delayedRun).yields = [1500000000, 3000000000] ∧
      ∀ limit, ((Runs.final (Ticker.step 1000000000) (.new 0 0) delayedRun).yields.filter (· ≤ limit)).length ≤
        if 0 ≤ limit then (limit - 0) / 1000000000 + 1 else 0 :=
  ⟨rfl, (paced 1000000000 0 0 (by decide) delayedRun).2.1⟩

end Pipitor.Twitter
