import Pipitor.Foundation.Runs

/-!
# Waiting for the handles

`app/shutdown.rs`: `Shutdown::poll` and the drop of a `Handle`, in the steps in which they look at the
`Arc`'s count and at the `AtomicWaker`. Handles are dropped by tasks that run at the same time, so the steps
of several drops and of a poll may come in any order.
-/

namespace Pipitor

/-- A handle, or how far its drop has come: it has read the count, it has got past the wake, or the `Arc` is
given up. -/
inductive Handle
  | held
  | counted (strongCount : ℕ)
  | woken
  | dropped
deriving DecidableEq

/-- Where the task that polls the `Shutdown` is: before a poll, after the count was read, or after the waker
was registered. `wakes` is the number of times the task had been woken by then. -/
inductive Poller
  | idle
  | counted
  | registered (wakes : ℕ)
deriving DecidableEq

/-- How a poll came out. -/
inductive Polled
  | ready
  | pending (wakes : ℕ)
deriving DecidableEq

/-- `waker` says whether a waker is registered, and `wakes` counts how often the task has been woken. -/
structure Shutdown where
  strongCount : ℕ
  waker : Bool
  wakes : ℕ
  handles : List Handle
  poller : Poller
  last : Option Polled
deriving DecidableEq

/-- The next step of the poll, the next step of the drop of a handle, or a new handle. -/
inductive ShutdownEvent
  | poll
  | drop (i : ℕ)
  | clone
deriving DecidableEq

namespace Shutdown

/-- A `Shutdown` with the given number of handles besides its own. -/
def start (n : ℕ) : Shutdown where
  strongCount := n + 1
  waker := false
  wakes := 0
  handles := List.replicate n .held
  poller := .idle
  last := none

/-- `AtomicWaker::wake`. -/
def wake (s : Shutdown) : Shutdown := if s.waker then { s with waker := false, wakes := s.wakes + 1 } else s

/-- The next step of `Shutdown::poll`. -/
def poll (s : Shutdown) : Shutdown :=
  match s.poller with
  | .idle => if s.strongCount = 1 then { s with last := some .ready } else { s with poller := .counted }
  | .counted => { s with waker := true, poller := .registered s.wakes }
  | .registered wakes => { s with poller := .idle, last := some (.pending wakes) }

/-- The next step of `Handle::drop` and of the drop of the `Arc` after it. -/
def drop (s : Shutdown) (i : ℕ) : Shutdown :=
  match s.handles[i]? with
  | some .held => { s with handles := s.handles.set i (.counted s.strongCount) }
  | some (.counted strongCount) =>
    let s := if strongCount = 2 then s.wake else s
    { s with handles := s.handles.set i .woken }
  | some .woken => { s with strongCount := s.strongCount - 1, handles := s.handles.set i .dropped }
  | _ => s

def step (s : Shutdown) : ShutdownEvent → Shutdown
  | .poll => s.poll
  | .drop i => s.drop i
  | .clone => { s with strongCount := s.strongCount + 1, handles := s.handles ++ [.held] }

/-! ### What a step does -/

section Step

variable {s : Shutdown}

@[simp] theorem wake_strongCount : s.wake.strongCount = s.strongCount := by
  unfold wake
  split <;> rfl

@[simp] theorem wake_handles : s.wake.handles = s.handles := by
  unfold wake
  split <;> rfl

@[simp] theorem wake_poller : s.wake.poller = s.poller := by
  unfold wake
  split <;> rfl

@[simp] theorem wake_last : s.wake.last = s.last := by
  unfold wake
  split <;> rfl

/-- What a poll's step does: it reads the count, registers the waker or returns. -/
theorem poll_cases (s : Shutdown) :
    (s.poller = .idle ∧ s.strongCount = 1 ∧ s.poll = { s with last := some .ready }) ∨
    (s.poller = .idle ∧ s.strongCount ≠ 1 ∧ s.poll = { s with poller := .counted }) ∨
    (s.poller = .counted ∧ s.poll = { s with waker := true, poller := .registered s.wakes }) ∨
    ∃ wakes, s.poller = .registered wakes ∧
      s.poll = { s with poller := .idle, last := some (.pending wakes) } := by
  unfold poll
  cases s.poller with
  | idle => by_cases h : s.strongCount = 1 <;> simp [h]
  | counted => simp
  | registered wakes => simp

/-- What a drop's step does: it reads the count, may wake the task, or gives up the `Arc`. -/
theorem drop_cases (s : Shutdown) (i : ℕ) :
    (s.handles[i]? = some .held ∧ s.drop i = { s with handles := s.handles.set i (.counted s.strongCount) }) ∨
    (∃ n, s.handles[i]? = some (.counted n) ∧
      (s.drop i = { s with handles := s.handles.set i .woken } ∨
        n = 2 ∧ s.drop i = { s.wake with handles := s.handles.set i .woken })) ∨
    (s.handles[i]? = some .woken ∧
      s.drop i = { s with strongCount := s.strongCount - 1, handles := s.handles.set i .dropped }) ∨
    s.drop i = s := by
  unfold drop
  cases s.handles[i]? with
  | none => simp
  | some handle =>
    cases handle with
    | held => simp
    | counted n => by_cases h : n = 2 <;> simp [h]
    | woken => simp
    | dropped => simp

end Step

/-! ### The count -/

/-- The handles that are not completely dropped. -/
def live (s : Shutdown) : ℕ := s.handles.countP (· ≠ .dropped)

theorem live_set {s : Shutdown} {i : ℕ} {handle : Handle} (h : s.handles[i]? = some handle)
    (hlive : handle ≠ .dropped) (handle' : Handle) :
    (s.handles.set i handle').countP (· ≠ .dropped) + 1 = s.live + if handle' ≠ .dropped then 1 else 0 := by
  obtain ⟨hi, hget⟩ := List.getElem?_eq_some_iff.mp h
  have hpos : 0 < s.handles.countP (· ≠ .dropped) :=
    List.countP_pos_iff.mpr ⟨handle, List.mem_of_getElem? h, by simpa using hlive⟩
  rw [List.countP_set hi, hget, live, if_pos (by simpa using hlive)]
  simp only [decide_eq_true_eq]
  omega

/-- The count goes by the handles that are not completely dropped, wherever they are in their drops. -/
theorem strongCount_set {s : Shutdown} (h : s.strongCount = s.live + 1) {i : ℕ} {handle handle' : Handle}
    (hi : s.handles[i]? = some handle) (hlive : handle ≠ .dropped) (hlive' : handle' ≠ .dropped) :
    s.strongCount = (s.handles.set i handle').countP (· ≠ .dropped) + 1 := by
  have hset := live_set hi hlive handle'
  rw [if_pos hlive'] at hset
  omega

theorem strongCount_step {s : Shutdown} (h : s.strongCount = s.live + 1) (l : ShutdownEvent) :
    (s.step l).strongCount = (s.step l).live + 1 := by
  cases l with
  | poll =>
    change s.poll.strongCount = s.poll.live + 1
    obtain ⟨-, -, heq⟩ | ⟨-, -, heq⟩ | ⟨-, heq⟩ | ⟨wakes, -, heq⟩ := s.poll_cases <;>
      (rw [heq]; exact h)
  | drop i =>
    change (s.drop i).strongCount = (s.drop i).live + 1
    obtain ⟨hi, heq⟩ | ⟨n, hi, heq | ⟨-, heq⟩⟩ | ⟨hi, heq⟩ | heq := s.drop_cases i <;> rw [heq]
    · exact strongCount_set h hi (by simp) (by simp)
    · exact strongCount_set h hi (by simp) (by simp)
    · exact s.wake_strongCount.trans (strongCount_set h hi (by simp) (by simp))
    · have hset := live_set hi (by simp) .dropped
      rw [if_neg (by simp), Nat.add_zero] at hset
      show s.strongCount - 1 = (s.handles.set i .dropped).countP (· ≠ .dropped) + 1
      omega
    · exact h
  | clone => simp [step, live, List.countP_append] at h ⊢; omega

/-- The count is the number of the handles and one. -/
theorem strongCount_final (n : ℕ) (run : List ShutdownEvent) :
    (Runs.final step (start n) run).strongCount = (Runs.final step (start n) run).live + 1 :=
  Runs.final_induction (I := fun s : Shutdown => s.strongCount = s.live + 1) (fun _ l h => strongCount_step h l)
    (by simp [start, live, List.countP_replicate]) run

theorem strongCount_eq_one_iff {s : Shutdown} (h : s.strongCount = s.live + 1) :
    s.strongCount = 1 ↔ ∀ handle ∈ s.handles, handle = .dropped := by
  rw [h, Nat.add_eq_right, live, List.countP_eq_zero]
  simp

/-! ### Wake-ups -/

/-- If every handle is dropped and the last poll that came to its end was pending, the task has been woken
since the poll registered its waker. -/
def NotLost (s : Shutdown) : Prop :=
  (∀ handle ∈ s.handles, handle = .dropped) → ∀ wakes, s.last = some (.pending wakes) → wakes < s.wakes

/-- When the last handle gives up its `Arc`, no waker is registered and no poll has read the count without
having registered its waker. -/
def Heeds (s : Shutdown) : ShutdownEvent → Prop
  | .drop i => s.handles[i]? = some .woken → s.strongCount = 2 → s.waker = false ∧ s.poller ≠ .counted
  | _ => True

/-- A waker that was registered when the task had been woken so often has woken it since, or is still there. -/
def Awaited (s : Shutdown) (wakes : ℕ) : Prop := wakes < s.wakes ∨ s.waker = true ∧ wakes = s.wakes

/-- Every waker is awaited; once the handles are gone, none is registered. -/
structure Sound (s : Shutdown) : Prop where
  strongCount : s.strongCount = s.live + 1
  registered : ∀ wakes, s.poller = .registered wakes → s.Awaited wakes
  last : ∀ wakes, s.last = some (.pending wakes) → s.Awaited wakes
  done : s.strongCount = 1 → s.waker = false ∧ s.poller ≠ .counted

theorem sound_start (n : ℕ) : (start n).Sound where
  strongCount := by simp [start, live, List.countP_replicate]
  registered := by simp [start]
  last := by simp [start]
  done := by simp [start]

theorem Sound.notLost {s : Shutdown} (h : s.Sound) : s.NotLost := by
  intro hdropped wakes hlast
  have hwaker := (h.done ((strongCount_eq_one_iff h.strongCount).mpr hdropped)).1
  exact (h.last wakes hlast).resolve_right (by simp [hwaker])

theorem Awaited.wake {s : Shutdown} {wakes : ℕ} (h : s.Awaited wakes) : s.wake.Awaited wakes := by
  unfold Shutdown.wake
  split
  · rcases h with h | ⟨-, rfl⟩
    · exact .inl (Nat.lt_succ_of_lt h)
    · exact .inl (Nat.lt_succ_self _)
  · exact h

theorem Sound.poll {s : Shutdown} (h : s.Sound) : s.poll.Sound := by
  have hcount : s.poll.strongCount = s.poll.live + 1 := strongCount_step h.strongCount .poll
  obtain ⟨-, -, heq⟩ | ⟨-, hne, heq⟩ | ⟨hpoller, heq⟩ | ⟨wakes, hpoller, heq⟩ := s.poll_cases <;> rw [heq] at hcount ⊢
  · exact ⟨hcount, h.registered, by simp, h.done⟩
  · exact ⟨hcount, by simp, h.last, fun hone => absurd hone hne⟩
  · refine ⟨hcount, fun wakes hwakes => ?_, fun wakes hlast => ?_, fun hone => absurd hpoller (h.done hone).2⟩
    · cases hwakes
      exact .inr ⟨rfl, rfl⟩
    · exact (h.last wakes hlast).imp_right fun hw => ⟨rfl, hw.2⟩
  · refine ⟨hcount, by simp, fun wakes' hlast => ?_, fun hone => ⟨(h.done hone).1, by simp⟩⟩
    cases hlast
    exact h.registered wakes hpoller

theorem Sound.drop {s : Shutdown} (h : s.Sound) {i : ℕ} (hheeds : s.Heeds (.drop i)) : (s.drop i).Sound := by
  have hcount : (s.drop i).strongCount = (s.drop i).live + 1 := strongCount_step h.strongCount (.drop i)
  obtain ⟨hi, heq⟩ | ⟨n, hi, heq | ⟨-, heq⟩⟩ | ⟨hi, heq⟩ | heq := s.drop_cases i <;> rw [heq] at hcount ⊢
  · exact ⟨hcount, h.registered, h.last, h.done⟩
  · exact ⟨hcount, h.registered, h.last, h.done⟩
  · refine ⟨hcount, fun wakes hwakes => ?_, fun wakes hlast => ?_, fun hone => ?_⟩
    · exact (h.registered wakes (by simpa using hwakes)).wake
    · exact (h.last wakes (by simpa using hlast)).wake
    · obtain ⟨hwaker, hpoller⟩ := h.done (by simpa using hone)
      exact ⟨by simp [Shutdown.wake, hwaker], by simpa using hpoller⟩
  · refine ⟨hcount, h.registered, h.last, fun hone => hheeds hi ?_⟩
    have hlive : 0 < s.live :=
      List.countP_pos_iff.mpr ⟨_, List.mem_of_getElem? hi, by simp⟩
    have := h.strongCount
    simp only at hone
    omega
  · exact h

theorem Sound.step {s : Shutdown} (h : s.Sound) {l : ShutdownEvent} (hheeds : s.Heeds l) : (s.step l).Sound := by
  cases l with
  | poll => exact h.poll
  | drop i => exact h.drop hheeds
  | clone =>
    refine ⟨strongCount_step h.strongCount .clone, h.registered, h.last, fun hone => ?_⟩
    have := h.strongCount
    simp only [Shutdown.step] at hone
    omega

/-! ### Where a wake-up is lost -/

/-- A registered waker is that of the last poll. -/
structure Recent (s : Shutdown) : Prop where
  registered : s.waker = true → ∀ wakes, s.poller = .registered wakes → wakes = s.wakes
  last : s.waker = true → (∀ wakes, s.poller ≠ .registered wakes) → s.last = some (.pending s.wakes)

theorem recent_start (n : ℕ) : (start n).Recent := ⟨by simp [start], by simp [start]⟩

theorem Recent.wake {s : Shutdown} (h : s.Recent) : s.wake.Recent := by
  unfold Shutdown.wake
  split
  · exact ⟨by simp, by simp⟩
  · exact h

theorem Recent.poll {s : Shutdown} (h : s.Recent) (hcount : s.strongCount = s.live + 1) (hlost : s.NotLost) :
    s.poll.Recent := by
  obtain ⟨hpoller, hone, heq⟩ | ⟨hpoller, -, heq⟩ | ⟨-, heq⟩ | ⟨wakes, hpoller, heq⟩ := s.poll_cases <;> rw [heq]
  · -- the poll is ready, so the waker of the poll before it was used
    have hwaker : s.waker ≠ true := fun hwaker =>
      Nat.lt_irrefl _ (hlost ((strongCount_eq_one_iff hcount).mp hone) _ (h.last hwaker (by simp [hpoller])))
    exact ⟨fun hw => absurd hw hwaker, fun hw => absurd hw hwaker⟩
  · exact ⟨by simp, fun hwaker _ => h.last hwaker (by simp [hpoller])⟩
  · exact ⟨fun _ wakes hwakes => (Poller.registered.inj hwakes).symm, fun _ hnot => absurd rfl (hnot s.wakes)⟩
  · exact ⟨by simp, fun hwaker _ => by rw [h.registered hwaker wakes hpoller]⟩

theorem Recent.step {s : Shutdown} (h : s.Recent) (hcount : s.strongCount = s.live + 1) (hlost : s.NotLost)
    (l : ShutdownEvent) : (s.step l).Recent := by
  cases l with
  | poll => exact h.poll hcount hlost
  | drop i =>
    change (s.drop i).Recent
    obtain ⟨-, heq⟩ | ⟨n, -, heq | ⟨-, heq⟩⟩ | ⟨-, heq⟩ | heq := s.drop_cases i <;> rw [heq]
    · exact ⟨h.registered, h.last⟩
    · exact ⟨h.registered, h.last⟩
    · exact ⟨h.wake.registered, h.wake.last⟩
    · exact ⟨h.registered, h.last⟩
    · exact h
  | clone => exact ⟨h.registered, h.last⟩

/-- After such a drop the poll in progress, or the last one, sleeps on. -/
theorem exists_lost {s : Shutdown} {l : ShutdownEvent} (hcount : s.strongCount = s.live + 1) (h : s.Recent)
    (hheeds : ¬ s.Heeds l) : ∃ polls, ¬ (Runs.final step (s.step l) (List.replicate polls .poll)).NotLost := by
  cases l with
  | poll => exact absurd trivial hheeds
  | clone => exact absurd trivial hheeds
  | drop i =>
    simp only [Heeds, Classical.not_imp] at hheeds
    obtain ⟨hi, htwo, hnot⟩ := hheeds
    have hstep : s.step (.drop i) = { s with strongCount := 1, handles := s.handles.set i .dropped } := by
      simp [step, Shutdown.drop, hi, htwo]
    have hdropped : ∀ handle ∈ s.handles.set i .dropped, handle = .dropped := by
      have hone := strongCount_step hcount (.drop i)
      rw [hstep] at hone
      exact (strongCount_eq_one_iff hone).mp rfl
    -- the steps that bring the poll in progress to its end
    cases hpoller : s.poller with
    | counted =>
      refine ⟨2, fun hlost => Nat.lt_irrefl s.wakes ?_⟩
      have hfinal : Runs.final step (s.step (.drop i)) (List.replicate 2 .poll) =
          { s with
            strongCount := 1, handles := s.handles.set i .dropped, waker := true, poller := .idle,
            last := some (.pending s.wakes) } := by
        rw [hstep]
        simp [Runs.final, step, Shutdown.poll, hpoller]
      rw [hfinal] at hlost
      exact hlost hdropped _ rfl
    | idle =>
      have hwaker : s.waker = true := by simpa [hpoller] using hnot
      refine ⟨0, fun hlost => Nat.lt_irrefl s.wakes ?_⟩
      have hfinal : Runs.final step (s.step (.drop i)) (List.replicate 0 .poll) =
          { s with strongCount := 1, handles := s.handles.set i .dropped } := hstep
      rw [hfinal] at hlost
      exact hlost hdropped _ (h.last hwaker (by simp [hpoller]))
    | registered wakes =>
      have hwaker : s.waker = true := by simpa [hpoller] using hnot
      refine ⟨1, fun hlost => Nat.lt_irrefl s.wakes ?_⟩
      have hfinal : Runs.final step (s.step (.drop i)) (List.replicate 1 .poll) =
          { s with
            strongCount := 1, handles := s.handles.set i .dropped, poller := .idle,
            last := some (.pending s.wakes) } := by
        rw [hstep]
        simp [Runs.final, step, Shutdown.poll, hpoller, h.registered hwaker wakes hpoller]
      rw [hfinal] at hlost
      exact hlost hdropped _ rfl

theorem heeds_polls (s : Shutdown) (polls : ℕ) :
    ∀ m ∈ Runs.moves step s (List.replicate polls .poll), m.1.Heeds m.2 := by
  induction polls generalizing s with
  | zero => simp [Runs.moves]
  | succ polls ih =>
    intro m hm
    rcases List.mem_cons.mp hm with rfl | hm
    · trivial
    · exact ih _ m hm

theorem sound_final {s : Shutdown} (h : s.Sound) {run : List ShutdownEvent}
    (hrun : ∀ m ∈ Runs.moves step s run, m.1.Heeds m.2) : (Runs.final step s run).Sound :=
  Runs.always_of_moves (fun _ _ hsound hheeds => hsound.step hheeds) h hrun _ (Runs.final_mem_states _ _ _)

/-- No wake-up is lost in a run, however the poll that is in progress at any point of it goes on, exactly if
the last handle is given up with no waker registered and no poll about to register one. -/
theorem notLost_iff (n : ℕ) (run : List ShutdownEvent) :
    (∀ run' : List ShutdownEvent, run' <+: run → ∀ polls,
      (Runs.final step (start n) (run' ++ List.replicate polls .poll)).NotLost) ↔
      ∀ m ∈ Runs.moves step (start n) run, m.1.Heeds m.2 := by
  constructor
  · intro hrun m hm
    obtain ⟨run', hpre, hfinal⟩ := Runs.mem_moves_iff.mp hm
    have hlost : ∀ m' ∈ Runs.moves step (start n) run', m'.1.NotLost := by
      intro m' hm'
      obtain ⟨run'', hpre', hfinal'⟩ := Runs.mem_moves_iff.mp hm'
      have hpre'' : run'' <+: run :=
        ((List.prefix_append _ _).trans hpre').trans ((List.prefix_append _ _).trans hpre)
      simpa [hfinal'] using hrun run'' hpre'' 0
    have hrecent : (Runs.final step (start n) run').strongCount = (Runs.final step (start n) run').live + 1 ∧
        (Runs.final step (start n) run').Recent :=
      Runs.always_of_moves (I := fun s : Shutdown => s.strongCount = s.live + 1 ∧ s.Recent)
        (C := fun s _ => s.NotLost)
        (fun _ l h hlost => ⟨strongCount_step h.1 l, h.2.step h.1 hlost l⟩)
        ⟨(sound_start n).strongCount, recent_start n⟩ hlost _ (Runs.final_mem_states _ _ _)
    rw [hfinal] at hrecent
    by_contra hheeds
    obtain ⟨polls, hpolls⟩ := exists_lost hrecent.1 hrecent.2 hheeds
    have hrun' := hrun (run' ++ [m.2]) hpre polls
    rw [Runs.final_append, Runs.final_append, hfinal] at hrun'
    exact hpolls hrun'
  · intro hrun run' hpre polls
    have hsound : (Runs.final step (start n) run').Sound := by
      refine sound_final (sound_start n) fun m hm => hrun m ?_
      obtain ⟨run'', hpre', hfinal⟩ := Runs.mem_moves_iff.mp hm
      exact Runs.mem_moves_iff.mpr ⟨run'', hpre'.trans hpre, hfinal⟩
    rw [Runs.final_append]
    exact (sound_final hsound (heeds_polls _ _)).notLost

/-- The drop of the only handle wakes nobody, and then a poll that has read the count before registers its
waker. -/
theorem notLost_checkThenRegister : ¬ ∀ (n : ℕ) (run : List ShutdownEvent),
    (Runs.final step (start n) run).NotLost := by
  intro h
  have hlost := h 1 [.poll, .drop 0, .drop 0, .drop 0, .poll, .poll]
  exact absurd (hlost (by decide) 0 (by decide)) (by decide)

end Shutdown

end Pipitor
