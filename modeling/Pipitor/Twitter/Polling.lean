import Mathlib.Data.List.Chain
import Pipitor.Foundation.Runs
import Pipitor.Foundation.Table
import Pipitor.Twitter.Lists

/-!
# Polls of a list

`RequestSender::send` of `twitter/list_timeline.rs`, with the requests answered at once. A tweet has an
id and a time from which the list shows it, and the ids are only roughly in the order of these times;
the `delay` that is subtracted from the present time is there to catch the tweets that come late.

`complete_iff` says for which tweets and request times nothing is missed, and `complete_of_delay` that
this is so where the `delay` covers the lateness of the tweets and the time between two requests.
-/

namespace Pipitor.Twitter

open Machine Relational

/-- A tweet, and the time from which the list shows it. -/
structure Post where
  id : Int64
  visible : ℕ
  pos : 0 < id
deriving DecidableEq

/-- Tweets whose `visible` is at most `lag` after the time in their ids. -/
def KSorted (lag : Duration) (posts : Table Post.id) : Prop :=
  ∀ p ∈ posts, p.visible ≤ snowflakeToSystemTime p.id.toUInt64 + lag

/-- The shared `since_id`, the times of the requests that have been sent and the tweets of the
responses. -/
structure Polling where
  sinceId : Int64
  asked : List ℕ
  received : List Post

namespace Polling

/-- Before the first request. -/
def start (sinceId : Int64) : Polling := ⟨sinceId, [], []⟩

/-- `set_since_id`. -/
def setSinceId (s : Polling) (id : Int64) : Polling := { s with sinceId := max s.sinceId id }

/-- The list as it is at a time. -/
def shown (posts : Table Post.id) (now : ℕ) : List Post :=
  posts.rows.filter fun p => decide (p.visible ≤ now)

/-- The response has come. -/
def receive (s : Polling) (now : ℕ) (tweets : List Post) : Polling :=
  let s := { s with asked := s.asked ++ [now], received := s.received ++ tweets }
  match tweets.head? with
  | some t => s.setSinceId t.id
  | none => s

/-- A call of `send` at the given time. -/
def step (sender : RequestSender) (posts : Table Post.id) (s : Polling) (now : ℕ) : Polling :=
  match sender.send s.sinceId now with
  | some request => s.receive now (request.answer Post.id (shown posts now))
  | none => s

variable {sender : RequestSender} {posts : Table Post.id} {s : Polling} {now : ℕ} {X : Int64}

@[simp] theorem mem_shown {p : Post} : p ∈ shown posts now ↔ p ∈ posts ∧ p.visible ≤ now := by
  unfold shown
  rw [List.mem_filter, decide_eq_true_eq]
  rfl

/-- With a `since_id` the request asks for 200 tweets after the smaller of the two bounds. -/
theorem send_eq (hs : s.sinceId ≠ 0) : sender.send s.sinceId now = (sender.minId now).map fun minId =>
    { listId := sender.listId, count := some 200, includeRts := some false,
      sinceId := some (min s.sinceId minId) } := by
  unfold RequestSender.send
  rw [if_pos hs]
  cases sender.minId now <;> rfl

/-! ### What is received -/

@[simp] theorem asked_receive (tweets : List Post) :
    (s.receive now tweets).asked = s.asked ++ [now] := by
  unfold receive
  cases tweets <;> rfl

@[simp] theorem received_receive (tweets : List Post) :
    (s.receive now tweets).received = s.received ++ tweets := by
  unfold receive
  cases tweets <;> rfl

/-- The stored `since_id` is the largest of `X` and the ids of the tweets received. -/
structure Tracked (posts : Table Post.id) (X : Int64) (s : Polling) : Prop where
  ne_zero : s.sinceId ≠ 0
  seen : ∀ p ∈ s.received, p ∈ posts ∧ ∃ u ∈ s.asked, p.visible ≤ u
  largest : ∀ id, s.sinceId < id ↔ X < id ∧ ∀ p ∈ s.received, p.id < id

theorem Tracked.start (hX : X ≠ 0) : Tracked posts X (start X) where
  ne_zero := hX
  seen := by simp [Polling.start]
  largest := by simp [Polling.start]

theorem Tracked.receive (h : Tracked posts X s) {tweets : List Post}
    (hsorted : tweets.Pairwise fun p q => q.id ≤ p.id)
    (hshown : ∀ p ∈ tweets, p ∈ posts ∧ p.visible ≤ now) : Tracked posts X (s.receive now tweets) where
  ne_zero := by
    cases tweets with
    | nil => exact h.ne_zero
    | cons t tweets =>
      show max s.sinceId t.id ≠ 0
      intro hzero
      have hle : t.id ≤ 0 := hzero ▸ le_max_right _ _
      exact absurd t.pos (not_lt.mpr hle)
  seen := by
    intro p hp
    rw [received_receive] at hp
    rw [asked_receive]
    rcases List.mem_append.mp hp with hold | hnew
    · obtain ⟨hmem, u, hu, hvisible⟩ := h.seen p hold
      exact ⟨hmem, u, List.mem_append_left _ hu, hvisible⟩
    · exact ⟨(hshown p hnew).1, now, by simp, (hshown p hnew).2⟩
  largest := by
    intro id
    cases tweets with
    | nil =>
      rw [received_receive, List.append_nil]
      exact h.largest id
    | cons t tweets =>
      have hfirst : t.id < id ↔ ∀ p ∈ t :: tweets, p.id < id := by
        rw [List.forall_mem_cons]
        constructor
        · intro ht
          exact ⟨ht, fun p hp => lt_of_le_of_lt (List.rel_of_pairwise_cons hsorted hp) ht⟩
        · exact And.left
      have hmax : (s.receive now (t :: tweets)).sinceId = max s.sinceId t.id := rfl
      rw [hmax, max_lt_iff, h.largest, hfirst, received_receive, List.forall_mem_append, and_assoc]

/-- Every tweet above `X` that was visible at a request has been in a response. -/
def Complete (posts : Table Post.id) (X : Int64) (s : Polling) : Prop :=
  ∀ u ∈ s.asked, ∀ p ∈ posts, p.visible ≤ u → X < p.id → p ∈ s.received

instance : Decidable (Complete posts X s) :=
  inferInstanceAs (Decidable (∀ u ∈ s.asked, ∀ p ∈ posts.rows, _))

/-- The tweets that a request asks for fit in one response. -/
def Fits (sender : RequestSender) (posts : Table Post.id) (s : Polling) (now : ℕ) : Prop :=
  ∀ request ∈ sender.send s.sinceId now,
    (Listing.matching Post.id request.sinceId request.maxId (shown posts now)).length < 200

instance : Decidable (Fits sender posts s now) :=
  inferInstanceAs (Decidable (∀ request ∈ sender.send s.sinceId now, _))

/-- Every tweet above `X` that is visible at `now` for the first time is above the snowflake of
`now - delay` or above every tweet that was visible before. -/
def Caught (sender : RequestSender) (posts : Table Post.id) (X : Int64) (asked : List ℕ) (now : ℕ) :
    Prop :=
  ∀ minId ∈ sender.minId now, ∀ p ∈ posts, X < p.id → p.visible ≤ now → (∀ u ∈ asked, u < p.visible) →
    minId < p.id ∨ ∀ u ∈ asked, ∀ q ∈ posts, q.visible ≤ u → q.id < p.id

instance {asked : List ℕ} : Decidable (Caught sender posts X asked now) :=
  -- What is inferred may be the instance of a finite type, which goes through all of `Int64`.
  @Option.decidableForallMem _ (fun minId => ∀ p ∈ posts.rows, X < p.id → p.visible ≤ now →
    (∀ u ∈ asked, u < p.visible) → minId < p.id ∨ ∀ u ∈ asked, ∀ q ∈ posts.rows, q.visible ≤ u → q.id < p.id)
    (fun _ => inferInstance) (sender.minId now)

/-- What a call of `send` does: nothing where it panics, else the response has all that is shown above
the smaller of the two bounds. -/
theorem step_cases (hs : s.sinceId ≠ 0) (hfits : Fits sender posts s now) :
    (sender.minId now = none ∧ step sender posts s now = s) ∨
      ∃ minId tweets, sender.minId now = some minId ∧ step sender posts s now = s.receive now tweets ∧
        (tweets.Pairwise fun p q => q.id ≤ p.id) ∧
        ∀ p, p ∈ tweets ↔ (p ∈ posts ∧ p.visible ≤ now) ∧ min s.sinceId minId < p.id := by
  unfold step
  unfold Fits at hfits
  rw [send_eq hs] at hfits ⊢
  cases hmin : sender.minId now with
  | none => exact Or.inl ⟨rfl, rfl⟩
  | some minId =>
    rw [hmin] at hfits
    refine Or.inr ⟨minId, _, rfl, rfl, Listing.page_sorted _ _ _ _ _, ?_⟩
    intro p
    have hlength := hfits _ rfl
    unfold Statuses.answer
    rw [Listing.mem_page_of_length_le (by exact hlength.le), mem_shown]
    simp [Listing.Within]

theorem Tracked.step (h : Tracked posts X s) (hfits : Fits sender posts s now) :
    Tracked posts X (step sender posts s now) := by
  rcases step_cases h.ne_zero hfits with ⟨-, heq⟩ | ⟨minId, tweets, -, heq, hsorted, hmem⟩
  · rwa [heq]
  · rw [heq]
    exact h.receive hsorted fun p hp => ((hmem p).mp hp).1

/-- While nothing has been missed, the tweets above `since_id` are those above all that were visible at
an earlier request. -/
theorem Tracked.sinceId_lt_iff (h : Tracked posts X s) (hcomplete : Complete posts X s) {p : Post}
    (hp : X < p.id) :
    s.sinceId < p.id ↔ ∀ u ∈ s.asked, ∀ q ∈ posts, q.visible ≤ u → q.id < p.id := by
  rw [h.largest]
  constructor
  · rintro ⟨-, hall⟩ u hu q hq hvisible
    by_cases hqX : X < q.id
    · exact hall q (hcomplete u hu q hq hvisible hqX)
    · exact lt_of_le_of_lt (not_lt.mp hqX) hp
  · intro hall
    refine ⟨hp, fun q hq => ?_⟩
    obtain ⟨hmem, u, hu, hvisible⟩ := h.seen q hq
    exact hall u hu q hmem hvisible

/-- While nothing has been missed, a call of `send` misses nothing exactly when all tweets that have
become visible are caught. -/
theorem complete_step (h : Tracked posts X s) (hfits : Fits sender posts s now)
    (hcomplete : Complete posts X s) :
    Complete posts X (step sender posts s now) ↔ Caught sender posts X s.asked now := by
  rcases step_cases h.ne_zero hfits with ⟨hnone, heq⟩ | ⟨minId, tweets, hsome, heq, -, hmem⟩
  · rw [heq]
    simp [hcomplete, Caught, hnone]
  rw [heq]
  unfold Complete Caught
  rw [asked_receive, received_receive, hsome]
  constructor
  · rintro hall _ ⟨⟩ p hp hpX hvisible hnew
    have hreceived := hall now (by simp) p hp hvisible hpX
    have hin : p ∈ tweets := by
      rcases List.mem_append.mp hreceived with hold | hin
      · obtain ⟨-, u, hu, hle⟩ := h.seen p hold
        exact absurd (hnew u hu) (not_lt.mpr hle)
      · exact hin
    have hlt := ((hmem p).mp hin).2
    rw [min_lt_iff, h.sinceId_lt_iff hcomplete hpX] at hlt
    exact hlt.symm
  · intro hcaught u hu p hp hvisible hpX
    rw [List.mem_append]
    by_cases hold : ∃ u ∈ s.asked, p.visible ≤ u
    · obtain ⟨u', hu', hle⟩ := hold
      exact Or.inl (hcomplete u' hu' p hp hle hpX)
    · have hnew : ∀ u ∈ s.asked, u < p.visible := by
        intro u' hu'
        by_contra hle
        exact hold ⟨u', hu', not_lt.mp hle⟩
      have hunow : u = now := by
        rcases List.mem_append.mp hu with hmemu | hmemu
        · exact absurd hvisible (not_le.mpr (hnew u hmemu))
        · exact List.mem_singleton.mp hmemu
      subst hunow
      have hlt := hcaught minId rfl p hp hpX hvisible hnew
      rw [← h.sinceId_lt_iff hcomplete hpX] at hlt
      exact Or.inr ((hmem p).mpr ⟨⟨hp, hvisible⟩, min_lt_iff.mpr hlt.symm⟩)

/-! ### Runs -/

/-- The times at which a call of `send` sends a request. -/
def sent (sender : RequestSender) (times : List ℕ) : List ℕ :=
  times.filter fun now => (sender.minId now).isSome

section Runs

variable {times : List ℕ}

theorem asked_final (h : Tracked posts X s)
    (hfits : ∀ m ∈ Runs.moves (step sender posts) s times, Fits sender posts m.1 m.2) :
    (Runs.final (step sender posts) s times).asked = s.asked ++ sent sender times := by
  induction times generalizing s with
  | nil => simp [sent]
  | cons now times ih =>
    obtain ⟨hnow, htimes⟩ := List.forall_mem_cons.mp hfits
    rw [Runs.final_cons, ih (h.step hnow) htimes]
    unfold sent
    rcases step_cases h.ne_zero hnow with ⟨hnone, heq⟩ | ⟨minId, tweets, hsome, heq, -⟩
    · rw [heq, List.filter_cons_of_neg (by simp [hnone])]
    · rw [heq, asked_receive, List.filter_cons_of_pos (by simp [hsome]), List.append_assoc]
      rfl

/-- From a `since_id` other than 0 nothing is missed at any request exactly when every tweet is caught at
the first request that could return it. -/
theorem complete_iff (hX : X ≠ 0)
    (hfits : ∀ m ∈ Runs.moves (step sender posts) (start X) times, Fits sender posts m.1 m.2) :
    (∀ s ∈ Runs.states (step sender posts) (start X) times, Complete posts X s) ↔
      ∀ before now, before ++ [now] <+: times → Caught sender posts X (sent sender before) now := by
  have hmoves : ∀ before now, before ++ [now] <+: times →
      (Runs.final (step sender posts) (start X) before, now) ∈
        Runs.moves (step sender posts) (start X) times := by
    intro before now hpre
    exact Runs.mem_moves_iff.mpr ⟨before, hpre, rfl⟩
  have hasked : ∀ before now, before ++ [now] <+: times →
      (Runs.final (step sender posts) (start X) before).asked = sent sender before := by
    intro before now hpre
    refine asked_final (.start hX) fun m hm => hfits m ?_
    obtain ⟨run', hrun', hfinal⟩ := Runs.mem_moves_iff.mp hm
    exact Runs.mem_moves_iff.mpr
      ⟨run', hrun'.trans ((List.prefix_append before [now]).trans hpre), hfinal⟩
  rw [Runs.always_iff_moves_amid (I := Tracked posts X) (fun s now hs _ hfit _ => hs.step hfit)
    (fun s now hs hcomplete hfit => complete_step hs hfit hcomplete) (Tracked.start hX)
    (by simp [Complete, start]) hfits]
  constructor
  · intro hall before now hpre
    have hcaught := hall _ (hmoves before now hpre)
    rwa [hasked before now hpre] at hcaught
  · rintro hall ⟨s, now⟩ hm
    obtain ⟨before, hpre, rfl⟩ := Runs.mem_moves_iff.mp hm
    dsimp only
    rw [hasked before now hpre]
    exact hall before now hpre

/-- The tweets made after `now - delay` are above its snowflake. -/
theorem minId_lt {minId : Int64} {p : Post} (h : sender.minId now = some minId)
    (hid : now < snowflakeToSystemTime p.id.toUInt64 + sender.delay) : minId < p.id := by
  obtain ⟨snowflake, hsnowflake, htry⟩ := Option.bind_eq_some_iff.mp h
  have hlt : snowflake < p.id.toUInt64 := by
    refine lt_of_snowflakeToSystemTime hsnowflake ?_
    have hmillis := (systemTimeToSnowflake_eq_some hsnowflake).1
    unfold twepoch at hmillis
    omega
  rw [Int64.lt_iff_toInt_lt, tryIntoI64_eq_some htry, ← toNat_toUInt64 p.pos.le]
  exact_mod_cast UInt64.lt_iff_toNat_lt.mp hlt

/-- A `delay` that covers the lateness of the tweets and the time between two requests is enough. -/
theorem complete_of_delay {lag gap : Duration} (hX : X ≠ 0)
    (hfits : ∀ m ∈ Runs.moves (step sender posts) (start X) times, Fits sender posts m.1 m.2)
    (hsent : sent sender times = times) (hgap : times.IsChain fun u v => v ≤ u + gap)
    (hlag : KSorted lag posts) (hdelay : gap + lag ≤ sender.delay) :
    ∀ s ∈ Runs.states (step sender posts) (start X) times, Complete posts X s := by
  rw [complete_iff hX hfits]
  intro before now hpre minId hmin p hp hpX hvisible hnew
  rcases List.eq_nil_or_concat before with rfl | ⟨init, u, rfl⟩
  · exact Or.inr (by simp [sent])
  refine Or.inl (minId_lt hmin ?_)
  rw [List.concat_eq_append] at hpre hnew
  have hu : u ∈ sent sender (init ++ [u]) := by
    refine List.mem_filter.mpr ⟨by simp, List.filter_eq_self.mp hsent u (hpre.subset (by simp))⟩
  have hlate : u < p.visible := hnew u hu
  have hnext : now ≤ u + gap := by
    obtain ⟨rest, rfl⟩ := hpre
    rw [List.append_assoc, List.append_assoc] at hgap
    exact (List.isChain_cons_cons.mp (List.isChain_append.mp hgap).2.1).1
  have hbound := hlag p hp
  unfold Duration at *
  omega

end Runs

/-! ### A tweet that is missed -/

def sampleSender : RequestSender := ⟨⟨1, by decide⟩, 1000000000, 1000000000, ⟨⟨"", ""⟩, 1, ⟨"", ""⟩⟩⟩

/-- The time that is some milliseconds after `twepoch`. -/
def sampleTime (millis : ℕ) : ℕ := (twepoch + millis) * 1000000

/-- Two requests, the `interval` apart. -/
def sampleTimes : List ℕ := [sampleTime 11000, sampleTime 12000]

/-- Three requests, the second sooner than the `delay` after the first. -/
def closeTimes : List ℕ := [sampleTime 11000, sampleTime 11500, sampleTime 12500]

/-- The second tweet is older than the first by its id, and is shown after the first request. -/
def threePosts : Table Post.id :=
  ⟨[⟨45717913600, sampleTime 11000, by decide⟩, ⟨44879052800, sampleTime 11400, by decide⟩,
    ⟨47395635200, sampleTime 12000, by decide⟩], by decide⟩

/-- The `delay` catches the second tweet. -/
theorem complete_threePosts :
    (∀ m ∈ Runs.moves (step sampleSender threePosts) (start 1) closeTimes,
        Fits sampleSender threePosts m.1 m.2) ∧
      ∀ s ∈ Runs.states (step sampleSender threePosts) (start 1) closeTimes, Complete threePosts 1 s := by
  refine ⟨by decide, (complete_iff (by decide) (by decide)).mpr ?_⟩
  intro before now hpre
  have hcases : (before, now) ∈ [([], sampleTime 11000), ([sampleTime 11000], sampleTime 11500),
      ([sampleTime 11000, sampleTime 11500], sampleTime 12500)] := by
    rcases before with _ | ⟨t₁, _ | ⟨t₂, _ | ⟨t₃, before⟩⟩⟩ <;>
      simp_all [closeTimes, List.cons_prefix_cons]
  have hcaught : ∀ m ∈ [([], sampleTime 11000), ([sampleTime 11000], sampleTime 11500),
      ([sampleTime 11000, sampleTime 11500], sampleTime 12500)],
      Caught sampleSender threePosts 1 (sent sampleSender m.1) m.2 := by decide
  exact hcaught (before, now) hcases

/-- Two tweets, of which the second is older by its id and is shown later. -/
def twoPosts : Table Post.id :=
  ⟨[⟨45717913600, sampleTime 11000, by decide⟩, ⟨44040192000, sampleTime 11400, by decide⟩], by decide⟩

/-- With the defaults, a second each for `interval` and `delay`, a tweet that the list shows within a
second of its making is in no response. -/
theorem not_complete_twoPosts :
    KSorted sampleSender.delay twoPosts ∧
      (sampleTimes.IsChain fun u v => v = u + sampleSender.period) ∧
      (∀ m ∈ Runs.moves (step sampleSender twoPosts) (start 1) sampleTimes,
        Fits sampleSender twoPosts m.1 m.2) ∧
      ¬ ∀ s ∈ Runs.states (step sampleSender twoPosts) (start 1) sampleTimes, Complete twoPosts 1 s := by
  refine ⟨by unfold KSorted; decide, by decide, by decide, by decide⟩

end Polling

end Pipitor.Twitter
