import Pipitor.Foundation.Runs
import Pipitor.Twitter.Backfill

/-!
# From the backfill to the polls

A list timeline that was started with a `since_id`: its tasks, the server and the list, to which tweets are
added in the order of their ids. The first poll has no `since_id` and asks for one tweet only; which tweets
it passes over depends on when the server looked at the first request of the backfill.

`handedOver_of_oneNew` says that no tweet is lost as long as such a poll does not pass over one.
-/

namespace Pipitor.Twitter

/-- The request, if the server has not looked at it. -/
def Exchange.request? : Exchange → Option Statuses
  | .asked request => some request
  | .answered _ => none

/-- `posted` is what the list shows. `first` is what it showed when the server looked at the first request of
the backfill, and `polls` what it showed when the server looked at a poll with a `since_id`; `seen` are the
tweets of all answers. `loaded` has the `since_id` that each of `tasks.responses` has loaded. -/
structure Handover where
  posted : List Tweet
  tasks : Tasks
  first : Option (List Tweet)
  loaded : List Int64
  polls : List (List Tweet)
  seen : List Tweet

namespace Handover

inductive Event
  | post (tweet : Tweet)
  | task (event : TaskEvent)

/-- `ListTimeline::new` with a `since_id`. -/
def start (sender : RequestSender) (posted : List Tweet) (S : Int64) : Handover :=
  ⟨posted, .new sender (some S), none, [], [], []⟩

/-- The request that the server looks at. -/
def asked (s : Handover) : TaskEvent → Option Statuses
  | .answerBackfill => s.tasks.backfill.bind (·.response.request?)
  | .answer i => s.tasks.responses[i]?.bind (·.request?)
  | _ => none

def first' (s : Handover) : TaskEvent → Option (List Tweet)
  | .answerBackfill => if (s.asked .answerBackfill).isSome then s.first <|> some s.posted else s.first
  | _ => s.first

def loaded' (sender : RequestSender) (s : Handover) : TaskEvent → List Int64
  | .interval now =>
    if (sender.send s.tasks.sinceId now).isSome then s.loaded ++ [s.tasks.sinceId] else s.loaded
  | .response i => match s.tasks.responses[i]? with
    | some (.answered _) => s.loaded.eraseIdx i
    | _ => s.loaded
  | _ => s.loaded

def polls' (s : Handover) : TaskEvent → List (List Tweet)
  | .answer i => if (s.asked (.answer i)).any (·.sinceId.isSome) then s.polls ++ [s.posted] else s.polls
  | _ => s.polls

def seen' (s : Handover) (event : TaskEvent) : List Tweet :=
  s.seen ++ (s.asked event).toList.flatMap (·.answer Tweet.id s.posted)

def step (sender : RequestSender) (s : Handover) : Event → Handover
  | .post tweet => { s with posted := tweet :: s.posted }
  | .task event =>
    { s with
      tasks := s.tasks.step sender s.posted event
      first := s.first' event
      loaded := s.loaded' sender event
      polls := s.polls' event
      seen := s.seen' event }

/-- Once the backfill has completed, every tweet after `S` that was visible to a poll with a `since_id` has
been in an answer. -/
def HandedOver (S : Int64) (s : Handover) : Prop :=
  s.tasks.backfill = none → ∀ shown ∈ s.polls, ∀ t ∈ shown, S < t.id → t ∈ s.seen

/-- The ids increase in the order in which the tweets become visible, and fewer than 200 visible tweets are
after the `since_id` that a poll has loaded. -/
def Usual (s : Handover) : Event → Prop
  | .post tweet => ∀ t ∈ s.posted, t.id < tweet.id
  | .task (.answer i) => ∀ request ∈ s.asked (.answer i), request.sinceId.isSome = true →
      ∀ since ∈ s.loaded[i]?, (s.posted.filter fun t => decide (since < t.id)).length < 200
  | .task _ => True

/-- When the server looks at a poll without a `since_id` after it has looked at the first request of the
backfill, every visible tweet after `S`, but for the newest, was visible then or has been in an answer. -/
def OneNew (S : Int64) (s : Handover) : Event → Prop
  | .task (.answer i) => ∀ request ∈ s.asked (.answer i), request.sinceId = none →
      ∀ shown ∈ s.first, ∀ t ∈ s.posted, S < t.id → (∃ u ∈ s.posted, t.id < u.id) → t ∈ shown ∨ t ∈ s.seen
  | _ => True

/-! ### Two lists in step -/

section Forall₂

variable {α β : Type} {R : α → β → Prop} {l : List α} {l' : List β}

theorem forall₂_eraseIdx (h : List.Forall₂ R l l') (i : ℕ) :
    List.Forall₂ R (l.eraseIdx i) (l'.eraseIdx i) := by
  induction h generalizing i with
  | nil => exact .nil
  | cons hab hrest ih =>
    cases i with
    | zero => exact hrest
    | succ i => exact .cons hab (ih i)

theorem forall₂_getElem? (h : List.Forall₂ R l l') {i : ℕ} {b : β} (hb : l'[i]? = some b) :
    ∃ a, l[i]? = some a ∧ R a b := by
  induction h generalizing i with
  | nil => cases hb
  | @cons a b' l l' hab hrest ih =>
    cases i with
    | zero =>
      cases hb
      exact ⟨a, rfl, hab⟩
    | succ i => exact ih hb

theorem forall₂_modify (h : List.Forall₂ R l l') (i : ℕ) {f : β → β}
    (hf : ∀ a b, l[i]? = some a → l'[i]? = some b → R a b → R a (f b)) :
    List.Forall₂ R l (l'.modify i f) := by
  induction h generalizing i with
  | nil =>
    rw [List.modify_nil]
    exact .nil
  | @cons a b l l' hab hrest ih =>
    cases i with
    | zero => exact .cons (hf a b rfl rfl hab) hrest
    | succ i => exact .cons hab (ih i hf)

end Forall₂

/-! ### What stays as it was -/

/-- The list grows at its end, answers are not taken back, and the first request of the backfill is looked at
once. -/
structure Grows (s s' : Handover) : Prop where
  posted : ∀ t ∈ s.posted, t ∈ s'.posted
  newer : ∀ t ∈ s'.posted, t ∈ s.posted ∨ ∀ u ∈ s.posted, u.id < t.id
  seen : ∀ t ∈ s.seen, t ∈ s'.seen
  first : s'.first = s.first ∨ s.first = none ∧ s'.first = some s.posted

/-- The tweet was visible to the first request of the backfill, or has been in an answer, if the server has
looked at the former. -/
def Caught (s : Handover) (t : Tweet) : Prop := ∀ shown ∈ s.first, t ∈ shown ∨ t ∈ s.seen

/-- A bound up to which nothing of the list is passed over. -/
structure Level (S : Int64) (s : Handover) (bound : Int64) : Prop where
  reached : ∃ t ∈ s.posted, bound ≤ t.id
  caught : ∀ t ∈ s.posted, S < t.id → t.id ≤ bound → s.Caught t

section Grows

variable {s s' : Handover} {S bound : Int64}

theorem Caught.grows {t : Tweet} (h : s.Caught t) (hgrows : Grows s s') (ht : t ∈ s.posted) :
    s'.Caught t := by
  intro shown hshown
  rcases hgrows.first with heq | ⟨-, heq⟩
  · rw [heq] at hshown
    exact (h shown hshown).imp_right (hgrows.seen t)
  · rw [heq] at hshown
    cases hshown
    exact Or.inl ht

theorem Level.grows (h : Level S s bound) (hgrows : Grows s s') : Level S s' bound where
  reached := h.reached.imp fun t ht => ⟨hgrows.posted t ht.1, ht.2⟩
  caught := by
    intro t ht hS hle
    obtain ⟨u, hu, hbound⟩ := h.reached
    rcases hgrows.newer t ht with hold | hnew
    · exact (h.caught t hold hS hle).grows hgrows hold
    · exact absurd (hnew u hu) (not_lt.mpr (hle.trans hbound))

theorem Level.max {bound' : Int64} (h : bound ≠ 0 → Level S s bound) (h' : Level S s bound')
    (hne : max bound bound' ≠ 0) : Level S s (max bound bound') := by
  rcases max_choice bound bound' with heq | heq
  · rw [heq] at hne ⊢
    exact h hne
  · rwa [heq]

theorem grows_task (sender : RequestSender) (s : Handover) (event : TaskEvent) :
    Grows s (s.step sender (.task event)) where
  posted := fun _ => id
  newer := fun _ => Or.inl
  seen := fun _ => List.mem_append_left _
  first := by
    show s.first' event = s.first ∨ s.first = none ∧ s.first' event = some s.posted
    cases event with
    | answerBackfill =>
      unfold first'
      dsimp only
      split
      · cases s.first with
        | none => exact Or.inr ⟨rfl, rfl⟩
        | some shown => exact Or.inl rfl
      · exact Or.inl rfl
    | _ => exact Or.inl rfl

theorem grows_post (sender : RequestSender) {tweet : Tweet} (h : ∀ t ∈ s.posted, t.id < tweet.id) :
    Grows s (s.step sender (.post tweet)) where
  posted := fun _ => List.mem_cons_of_mem _
  newer := by
    intro t ht
    rcases List.mem_cons.mp ht with rfl | ht
    · exact Or.inr h
    · exact Or.inl ht
  seen := fun _ => id
  first := Or.inl rfl

end Grows

/-! ### Requests and answers -/

section Requests

variable {sender : RequestSender} {since : Int64} {now : ℕ} {request : Statuses}

/-- What a poll asks for: one tweet, or 200 tweets after at most the `since_id` that it has loaded. -/
def IsPoll (since : Int64) (request : Statuses) : Prop :=
  request.maxId = none ∧ ((request.sinceId = none ∧ request.count = some 1) ∨
    since ≠ 0 ∧ request.count = some 200 ∧ ∃ bound ≤ since, request.sinceId = some bound)

theorem isPoll_of_send (h : sender.send since now = some request) : IsPoll since request := by
  unfold RequestSender.send at h
  by_cases hzero : since = 0
  · rw [if_neg (not_not.mpr hzero)] at h
    cases h
    exact ⟨rfl, Or.inl ⟨rfl, rfl⟩⟩
  · rw [if_pos hzero] at h
    cases hmin : sender.minId now with
    | none =>
      rw [hmin] at h
      cases h
    | some minId =>
      rw [hmin] at h
      cases h
      exact ⟨rfl, Or.inr ⟨hzero, rfl, _, min_le_left _ _, rfl⟩⟩

end Requests

/-! ### The invariant -/

/-- The responses of the polls, with the `since_id` that each has loaded. -/
def PollSound (S : Int64) (s : Handover) (since : Int64) : Exchange → Prop
  | .asked request => IsPoll since request ∧ (since ≠ 0 → Level S s since)
  | .answered tweets => ∀ t ∈ tweets.head?, Level S s t.id

/-- What the backfill has fetched of the tweets that were visible to its first request. -/
def BackfillSound (S : Int64) (s : Handover) : Option Backfill → Prop
  | none => ∃ shown, s.first = some shown ∧ ∀ t ∈ shown, S < t.id → t ∈ s.seen
  | some ⟨sinceId, .asked request⟩ =>
    sinceId = S ∧ request.sinceId = some S ∧ request.count = some 200 ∧
      ((s.first = none ∧ request.maxId = none) ∨
        ∃ shown max, s.first = some shown ∧ request.maxId = some max ∧ (∃ u ∈ shown, max < u.id) ∧
          ∀ t ∈ shown, S < t.id → max < t.id → t ∈ s.seen)
  | some ⟨sinceId, .answered tweets⟩ =>
    sinceId = S ∧ ∃ shown, s.first = some shown ∧ (∀ t ∈ tweets, t ∈ shown ∧ S < t.id) ∧
      ∀ t ∈ shown, S < t.id → t ∈ s.seen ∨ ∃ last, tweets.getLast? = some last ∧ t.id < last.id

structure Sound (S : Int64) (s : Handover) : Prop where
  inj : ∀ a ∈ s.posted, ∀ b ∈ s.posted, a.id = b.id → a = b
  first_subset : ∀ shown ∈ s.first, ∀ t ∈ shown, t ∈ s.posted
  first_closed : ∀ shown ∈ s.first, ∀ t ∈ s.posted, ∀ u ∈ shown, t.id ≤ u.id → t ∈ shown
  since : s.tasks.sinceId ≠ 0 → Level S s s.tasks.sinceId
  responses : List.Forall₂ (PollSound S s) s.loaded s.tasks.responses
  polls : ∀ shown ∈ s.polls, ∀ t ∈ shown, t ∈ s.posted ∧ (S < t.id → s.Caught t)
  backfill : BackfillSound S s s.tasks.backfill

section Sound

variable {sender : RequestSender} {s s' : Handover} {S : Int64}

theorem sound_start (sender : RequestSender) {posted : List Tweet}
    (hinj : ∀ a ∈ posted, ∀ b ∈ posted, a.id = b.id → a = b) (S : Int64) : Sound S (start sender posted S) where
  inj := hinj
  first_subset := nofun
  first_closed := nofun
  since h := absurd rfl h
  responses := .nil
  polls := nofun
  backfill := ⟨rfl, rfl, rfl, Or.inl ⟨rfl, rfl⟩⟩

/-- Once the backfill has completed, what has been caught is there. -/
theorem Sound.handedOver (h : Sound S s) : s.HandedOver S := by
  intro hnone shown hshown t ht hS
  have hbackfill := h.backfill
  rw [hnone] at hbackfill
  obtain ⟨first, hfirst, hall⟩ := hbackfill
  rcases (h.polls shown hshown t ht).2 hS first hfirst with hmem | hseen
  · exact hall t hmem hS
  · exact hseen

theorem PollSound.grows {since : Int64} {exchange : Exchange} (h : PollSound S s since exchange)
    (hgrows : Grows s s') : PollSound S s' since exchange := by
  cases exchange with
  | asked request => exact ⟨h.1, fun hne => (h.2 hne).grows hgrows⟩
  | answered tweets => exact fun t ht => (h t ht).grows hgrows

theorem BackfillSound.grows {backfill : Option Backfill} (h : BackfillSound S s backfill)
    (hseen : ∀ t ∈ s.seen, t ∈ s'.seen) (hfirst : s'.first = s.first) : BackfillSound S s' backfill := by
  match backfill with
  | none =>
    obtain ⟨shown, hshown, hall⟩ := h
    exact ⟨shown, hfirst.trans hshown, fun t ht hS => hseen t (hall t ht hS)⟩
  | some ⟨sinceId, .asked request⟩ =>
    obtain ⟨rfl, hsince, hcount, hmax⟩ := h
    refine ⟨rfl, hsince, hcount, ?_⟩
    rcases hmax with ⟨hnone, hmax⟩ | ⟨shown, max, hshown, hmax, hbelow, hall⟩
    · exact Or.inl ⟨hfirst.trans hnone, hmax⟩
    · exact Or.inr ⟨shown, max, hfirst.trans hshown, hmax, hbelow,
        fun t ht hS hlt => hseen t (hall t ht hS hlt)⟩
  | some ⟨sinceId, .answered tweets⟩ =>
    obtain ⟨rfl, shown, hshown, hsub, hall⟩ := h
    exact ⟨rfl, shown, hfirst.trans hshown, hsub, fun t ht hS => (hall t ht hS).imp_left (hseen t)⟩

/-- What an event leaves of the invariant when the tasks' own parts of it are seen to. -/
theorem Sound.task {event : TaskEvent} (h : Sound S s)
    (hsince : (s.tasks.step sender s.posted event).sinceId ≠ 0 →
      Level S (s.step sender (.task event)) (s.tasks.step sender s.posted event).sinceId)
    (hresponses : List.Forall₂ (PollSound S (s.step sender (.task event))) (s.loaded' sender event)
      (s.tasks.step sender s.posted event).responses)
    (hpolls : ∀ shown ∈ s.polls' event, shown ∈ s.polls ∨
      shown = s.posted ∧ ∀ t ∈ s.posted, S < t.id → (s.step sender (.task event)).Caught t)
    (hbackfill : BackfillSound S (s.step sender (.task event)) (s.tasks.step sender s.posted event).backfill) :
    Sound S (s.step sender (.task event)) where
  inj := h.inj
  first_subset := by
    intro shown hshown
    rcases (grows_task sender s event).first with heq | ⟨-, heq⟩
    · rw [heq] at hshown
      exact h.first_subset shown hshown
    · rw [heq] at hshown
      cases hshown
      exact fun t => id
  first_closed := by
    intro shown hshown
    rcases (grows_task sender s event).first with heq | ⟨-, heq⟩
    · rw [heq] at hshown
      exact h.first_closed shown hshown
    · rw [heq] at hshown
      cases hshown
      exact fun t ht _ _ _ => ht
  since := hsince
  responses := hresponses
  polls := by
    intro shown hshown t ht
    rcases hpolls shown hshown with hold | ⟨rfl, hall⟩
    · obtain ⟨hmem, hcaught⟩ := h.polls shown hold t ht
      exact ⟨hmem, fun hS => (hcaught hS).grows (grows_task sender s event) hmem⟩
    · exact ⟨ht, hall t ht⟩
  backfill := hbackfill

theorem Sound.post (h : Sound S s) {tweet : Tweet} (hnew : ∀ t ∈ s.posted, t.id < tweet.id) :
    Sound S (s.step sender (.post tweet)) := by
  have hgrows := grows_post sender hnew
  refine ⟨?_, ?_, ?_, fun hne => (h.since hne).grows hgrows, ?_, ?_, h.backfill.grows (fun _ => id) rfl⟩
  · intro a ha b hb heq
    rcases List.mem_cons.mp ha with rfl | ha'
    · rcases List.mem_cons.mp hb with rfl | hb'
      · rfl
      · exact absurd (hnew b hb') (by rw [heq]; exact lt_irrefl _)
    · rcases List.mem_cons.mp hb with rfl | hb'
      · exact absurd (hnew a ha') (by rw [heq]; exact lt_irrefl _)
      · exact h.inj a ha' b hb' heq
  · exact fun shown hshown t ht => List.mem_cons_of_mem _ (h.first_subset shown hshown t ht)
  · intro shown hshown t ht u hu hle
    rcases List.mem_cons.mp ht with rfl | ht
    · exact absurd (hnew u (h.first_subset shown hshown u hu)) (not_lt.mpr hle)
    · exact h.first_closed shown hshown t ht u hu hle
  · exact h.responses.imp fun _ _ hsound => hsound.grows hgrows
  · intro shown hshown t ht
    obtain ⟨hmem, hcaught⟩ := h.polls shown hshown t ht
    exact ⟨List.mem_cons_of_mem _ hmem, fun hS => (hcaught hS).grows hgrows hmem⟩

theorem Sound.idle {event : TaskEvent} (h : Sound S s) (htasks : s.tasks.step sender s.posted event = s.tasks)
    (hloaded : s.loaded' sender event = s.loaded) (hpolls : s.polls' event = s.polls)
    (hfirst : s.first' event = s.first) : Sound S (s.step sender (.task event)) := by
  have hgrows := grows_task sender s event
  refine h.task ?_ ?_ ?_ ?_
  · rw [htasks]
    exact fun hne => (h.since hne).grows hgrows
  · rw [htasks, hloaded]
    exact h.responses.imp fun _ _ hsound => hsound.grows hgrows
  · rw [hpolls]
    exact fun shown => Or.inl
  · rw [htasks]
    exact h.backfill.grows hgrows.seen hfirst

theorem Sound.interval (h : Sound S s) (now : ℕ) : Sound S (s.step sender (.task (.interval now))) := by
  have hgrows := grows_task sender s (.interval now)
  cases hsend : sender.send s.tasks.sinceId now with
  | none => exact h.idle (Tasks.step_interval_of_none hsend) (by simp [loaded', hsend]) rfl rfl
  | some request =>
    have hloaded : s.loaded' sender (.interval now) = s.loaded ++ [s.tasks.sinceId] := by
      simp [loaded', hsend]
    refine h.task ?_ ?_ (fun shown => Or.inl) ?_
    · rw [Tasks.step_interval hsend]
      exact fun hne => (h.since hne).grows hgrows
    · rw [Tasks.step_interval hsend, hloaded]
      refine List.rel_append (h.responses.imp fun _ _ hsound => hsound.grows hgrows) (.cons ?_ .nil)
      exact ⟨isPoll_of_send hsend, fun hne => (h.since hne).grows hgrows⟩
    · rw [Tasks.step_interval hsend]
      exact h.backfill.grows hgrows.seen rfl

/-- A tweet that the backfill asks for is in the answer, or older than all of it. -/
theorem mem_answer_or_lt (hinj : ∀ a ∈ s.posted, ∀ b ∈ s.posted, a.id = b.id → a = b) {request : Statuses}
    (hsince : request.sinceId = some S) (hcount : request.count = some 200) {t : Tweet} (ht : t ∈ s.posted)
    (hS : S < t.id) (hmax : ∀ max ∈ request.maxId, t.id ≤ max) :
    t ∈ request.answer Tweet.id s.posted ∨
      ∃ last, (request.answer Tweet.id s.posted).getLast? = some last ∧ t.id < last.id := by
  have hwithin : Listing.Within Tweet.id request.sinceId request.maxId t := by
    refine ⟨fun k hk => ?_, hmax⟩
    rw [hsince] at hk
    cases hk
    exact hS
  have hpos : 0 < min (request.count.getD maxCount) maxCount := by rw [hcount]; decide
  rcases Listing.mem_page_or_last hpos ht hwithin with hpage | ⟨last, hlast, hle⟩
  · exact Or.inl hpage
  · rcases hle.lt_or_eq with hlt | heq
    · exact Or.inr ⟨last, hlast, hlt⟩
    · have hmem := List.mem_of_getLast? hlast
      exact Or.inl (hinj t ht last (Listing.of_mem_page hmem).1 heq ▸ hmem)

/-- The tweets above the `maxId` of the backfill's request have been in its answers before. -/
theorem Sound.shown_answerBackfill (h : Sound S s) {request : Statuses}
    (hb : s.tasks.backfill = some ⟨S, .asked request⟩) :
    ∃ shown, s.first' .answerBackfill = some shown ∧ (∀ t ∈ shown, t ∈ s.posted) ∧
      (∀ t ∈ s.posted, (∀ max ∈ request.maxId, t.id ≤ max) → t ∈ shown) ∧
      ∀ t ∈ shown, S < t.id → (∀ max ∈ request.maxId, t.id ≤ max) ∨ t ∈ s.seen := by
  have hbackfill := h.backfill
  rw [hb] at hbackfill
  obtain ⟨-, -, -, hmax⟩ := hbackfill
  have hfirst : s.first' .answerBackfill = (s.first <|> some s.posted) := by
    simp [first', asked, hb, Exchange.request?]
  rcases hmax with ⟨hnone, hmax⟩ | ⟨shown, max, hshown, hmax, ⟨u, hu, hlt⟩, hall⟩
  · refine ⟨s.posted, by rw [hfirst, hnone]; rfl, fun t => id, fun t ht _ => ht, ?_⟩
    rw [hmax]
    exact fun t _ _ => Or.inl fun max hmax => absurd hmax (Option.not_mem_none max)
  · refine ⟨shown, by rw [hfirst, hshown]; rfl, h.first_subset shown hshown, ?_, ?_⟩
    · intro t ht hle
      exact h.first_closed shown hshown t ht u hu ((hle max hmax).trans hlt.le)
    · intro t ht hS
      rcases le_or_gt t.id max with hle | hgt
      · refine Or.inl fun max' hmax' => ?_
        rw [hmax] at hmax'
        cases hmax'
        exact hle
      · exact Or.inr (hall t ht hS hgt)

theorem Sound.answerBackfill (h : Sound S s) : Sound S (s.step sender (.task .answerBackfill)) := by
  have hgrows := grows_task sender s .answerBackfill
  by_cases hb : ∃ sinceId request, s.tasks.backfill = some ⟨sinceId, .asked request⟩
  · obtain ⟨sinceId, request, hb⟩ := hb
    have hbackfill := h.backfill
    rw [hb] at hbackfill
    obtain ⟨rfl, hsince, hcount, -⟩ := hbackfill
    have htasks : (s.tasks.step sender s.posted .answerBackfill).backfill =
        some ⟨sinceId, .answered (request.answer Tweet.id s.posted)⟩ := by
      simp [Tasks.step, hb, Exchange.answer]
    refine h.task (fun hne => (h.since hne).grows hgrows)
      (h.responses.imp fun _ _ hsound => hsound.grows hgrows) (fun shown => Or.inl) ?_
    rw [htasks]
    obtain ⟨shown, hfirst, hsub, hclosed, hrest⟩ := h.shown_answerBackfill hb
    refine ⟨rfl, shown, hfirst, fun t ht => ?_, fun t ht hS => ?_⟩
    · obtain ⟨hmem, hwithin⟩ := Listing.of_mem_page ht
      exact ⟨hclosed t hmem hwithin.2, hwithin.1 sinceId hsince⟩
    · have hseen : (s.step sender (.task .answerBackfill)).seen =
          s.seen ++ request.answer Tweet.id s.posted := by
        show s.seen' .answerBackfill = _
        simp [seen', asked, hb, Exchange.request?]
      rw [hseen]
      rcases hrest t ht hS with hle | hold
      · exact (mem_answer_or_lt h.inj hsince hcount (hsub t ht) hS hle).imp_left (List.mem_append_right _)
      · exact Or.inl (List.mem_append_left _ hold)
  · have hne : ∀ sinceId request, s.tasks.backfill ≠ some ⟨sinceId, .asked request⟩ :=
      fun sinceId request heq => hb ⟨sinceId, request, heq⟩
    refine h.idle (Tasks.step_answerBackfill_of_ne hne) rfl rfl ?_
    unfold first' asked
    cases hb' : s.tasks.backfill with
    | none => rfl
    | some backfill =>
      obtain ⟨sinceId, exchange⟩ := backfill
      cases exchange with
      | asked request => exact absurd hb' (hne sinceId request)
      | answered tweets => rfl

/-- With a `since_id` a poll catches all that is visible to it. -/
theorem Sound.caught_poll (h : Sound S s) {i : ℕ} (husual : s.Usual (.task (.answer i))) {request : Statuses}
    (hi : s.tasks.responses[i]? = some (.asked request)) (hsome : request.sinceId.isSome = true) {t : Tweet}
    (ht : t ∈ s.posted) (hS : S < t.id) : (s.step sender (.task (.answer i))).Caught t := by
  have hgrows := grows_task sender s (.answer i)
  have hasked : s.asked (.answer i) = some request := by simp [asked, hi, Exchange.request?]
  obtain ⟨since, hloaded, ⟨hmax, hpoll⟩, hlevel⟩ := forall₂_getElem? h.responses hi
  rcases hpoll with ⟨hnone, -⟩ | ⟨hne, hcount, bound, hbound, hsince⟩
  · rw [hnone] at hsome
    cases hsome
  · rcases le_or_gt t.id since with hle | hlt
    · exact ((hlevel hne).caught t ht hS hle).grows hgrows ht
    · have hwithin : Listing.Within Tweet.id request.sinceId request.maxId t := by
        rw [hsince, hmax]
        refine ⟨fun k hk => ?_, nofun⟩
        cases hk
        exact hbound.trans_lt hlt
      have hfew := husual request hasked hsome since hloaded
      have hpage : t ∈ request.answer Tweet.id s.posted := by
        refine Listing.mem_page_of_few ?_ ht hwithin hlt
        have hmin : min (request.count.getD maxCount) maxCount = 200 := by rw [hcount]; rfl
        rw [hmin]
        convert hfew
      refine fun _ _ => Or.inr ?_
      show t ∈ s.seen' (.answer i)
      simp [seen', hasked, hpage]

theorem Sound.level_answer (h : Sound S s) {i : ℕ} (husual : s.Usual (.task (.answer i)))
    (hnew : s.OneNew S (.task (.answer i))) {request : Statuses}
    (hi : s.tasks.responses[i]? = some (.asked request)) {t : Tweet}
    (ht : t ∈ (request.answer Tweet.id s.posted).head?) : Level S (s.step sender (.task (.answer i))) t.id := by
  have hgrows := grows_task sender s (.answer i)
  have hasked : s.asked (.answer i) = some request := by simp [asked, hi, Exchange.request?]
  have hmem := List.mem_of_mem_head? ht
  refine ⟨⟨t, (Listing.of_mem_page hmem).1, le_rfl⟩, fun u hu hS hle => ?_⟩
  cases hsince : request.sinceId with
  | some bound => exact h.caught_poll husual hi (by rw [hsince]; rfl) hu hS
  | none =>
    by_cases hbelow : ∃ v ∈ s.posted, u.id < v.id
    · have hcaught : s.Caught u := fun shown hshown => hnew request hasked hsince shown hshown u hu hS hbelow
      exact hcaught.grows hgrows hu
    · push Not at hbelow
      have hposted := (Listing.of_mem_page hmem).1
      obtain rfl := h.inj u hu t hposted (le_antisymm hle (hbelow t hposted))
      refine fun _ _ => Or.inr ?_
      show u ∈ s.seen' (.answer i)
      simp [seen', hasked, hmem]

theorem Sound.answer (h : Sound S s) {i : ℕ} (husual : s.Usual (.task (.answer i)))
    (hnew : s.OneNew S (.task (.answer i))) : Sound S (s.step sender (.task (.answer i))) := by
  have hgrows := grows_task sender s (.answer i)
  by_cases hi : ∃ request, s.tasks.responses[i]? = some (.asked request)
  · obtain ⟨request, hi⟩ := hi
    have hasked : s.asked (.answer i) = some request := by simp [asked, hi, Exchange.request?]
    refine h.task (fun hne => (h.since hne).grows hgrows) ?_ ?_ (h.backfill.grows hgrows.seen rfl)
    · refine forall₂_modify (h.responses.imp fun _ _ hsound => hsound.grows hgrows) i ?_
      intro since exchange _ hexchange _
      obtain rfl := Option.some.inj (hi.symm.trans hexchange)
      exact fun t ht => h.level_answer husual hnew hi ht
    · intro shown hshown
      unfold polls' at hshown
      dsimp only at hshown
      rw [hasked, Option.any_some] at hshown
      split at hshown
      · rename_i hsome
        rcases List.mem_append.mp hshown with hold | hnow
        · exact Or.inl hold
        · exact Or.inr ⟨List.mem_singleton.mp hnow, fun t ht hS => h.caught_poll husual hi hsome ht hS⟩
      · exact Or.inl hshown
  · have hne : ∀ request, s.tasks.responses[i]? ≠ some (.asked request) := fun request heq => hi ⟨request, heq⟩
    have hasked : s.asked (.answer i) = none := by
      show s.tasks.responses[i]?.bind (·.request?) = none
      cases hi' : s.tasks.responses[i]? with
      | none => rfl
      | some exchange =>
        cases exchange with
        | asked request => exact absurd hi' (hne request)
        | answered tweets => rfl
    exact h.idle (Tasks.step_answer_of_ne hne) rfl (by simp [polls', hasked]) rfl

theorem Sound.pollBackfill (h : Sound S s) : Sound S (s.step sender (.task .pollBackfill)) := by
  have hgrows := grows_task sender s .pollBackfill
  by_cases hb : ∃ sinceId tweets, s.tasks.backfill = some ⟨sinceId, .answered tweets⟩
  · obtain ⟨sinceId, tweets, hb⟩ := hb
    have hbackfill := h.backfill
    rw [hb] at hbackfill
    obtain ⟨rfl, shown, hshown, hsub, hall⟩ := hbackfill
    have htasks : s.tasks.step sender s.posted .pollBackfill = s.tasks.pollBackfill sender sinceId tweets :=
      Tasks.step_pollBackfill hb
    have hresponses := h.responses.imp fun _ _ hsound => PollSound.grows hsound hgrows
    cases tweets with
    | nil =>
      rw [Tasks.pollBackfill_nil] at htasks
      refine h.task ?_ ?_ (fun _ => Or.inl) ?_
      · rw [htasks]
        exact fun hne => (h.since hne).grows hgrows
      · rw [htasks]
        exact hresponses
      · rw [htasks]
        refine ⟨shown, hshown, fun t ht hS => hgrows.seen t ?_⟩
        exact (hall t ht hS).resolve_right (by simp)
    | cons first tweets =>
      obtain ⟨last, hlast⟩ : ∃ last, (first :: tweets).getLast? = some last :=
        ⟨_, List.getLast?_eq_some_getLast (List.cons_ne_nil first tweets)⟩
      obtain ⟨hmem, hS⟩ := hsub last (List.mem_of_getLast? hlast)
      rw [Tasks.pollBackfill_cons hlast] at htasks
      refine h.task ?_ ?_ (fun _ => Or.inl) ?_
      · rw [htasks]
        -- all of the list up to the newest tweet of the answer was visible to the first request
        have hlevel : Level sinceId s first.id := by
          have hfirst := (hsub first List.mem_cons_self).1
          refine ⟨⟨first, h.first_subset shown hshown first hfirst, le_rfl⟩, ?_⟩
          intro t ht _ hle shown' hshown'
          obtain rfl := Option.some.inj (hshown.symm.trans hshown')
          exact Or.inl (h.first_closed shown hshown t ht first hfirst hle)
        exact Level.max (fun hne => (h.since hne).grows hgrows) (hlevel.grows hgrows)
      · rw [htasks]
        exact hresponses
      · rw [htasks]
        refine ⟨rfl, rfl, rfl, Or.inr ⟨shown, last.id - 1, hshown, rfl, ⟨last, hmem, ?_⟩, ?_⟩⟩
        · exact (Machine.sub_one_lt_iff hS).mpr le_rfl
        · intro t ht hS' hlt
          refine hgrows.seen t ((hall t ht hS').resolve_right ?_)
          rintro ⟨last', hlast', hbelow⟩
          obtain rfl := Option.some.inj (hlast.symm.trans hlast')
          exact absurd ((Machine.sub_one_lt_iff hS).mp hlt) (not_le.mpr hbelow)
  · have hne : ∀ sinceId tweets, s.tasks.backfill ≠ some ⟨sinceId, .answered tweets⟩ :=
      fun sinceId tweets heq => hb ⟨sinceId, tweets, heq⟩
    exact h.idle (Tasks.step_pollBackfill_of_ne hne) rfl rfl rfl

theorem Sound.response (h : Sound S s) (i : ℕ) : Sound S (s.step sender (.task (.response i))) := by
  have hgrows := grows_task sender s (.response i)
  by_cases hi : ∃ tweets, s.tasks.responses[i]? = some (.answered tweets)
  · obtain ⟨tweets, hi⟩ := hi
    have hloaded : s.loaded' sender (.response i) = s.loaded.eraseIdx i := by simp [loaded', hi]
    have hresponses := h.responses.imp fun _ _ hsound => PollSound.grows hsound hgrows
    refine h.task ?_ ?_ (fun shown => Or.inl) ?_
    · rw [Tasks.step_response hi, Tasks.receive_sinceId]
      cases htweet : tweets.head? with
      | none => exact fun hne => (h.since hne).grows hgrows
      | some t =>
        refine Level.max (fun hne => (h.since hne).grows hgrows) ?_
        obtain ⟨since, -, hsound⟩ := forall₂_getElem? hresponses hi
        exact hsound t htweet
    · rw [Tasks.step_response hi, hloaded, Tasks.receive_responses]
      exact forall₂_eraseIdx hresponses i
    · rw [Tasks.step_response hi, Tasks.receive_backfill]
      exact h.backfill.grows hgrows.seen rfl
  · have hne : ∀ tweets, s.tasks.responses[i]? ≠ some (.answered tweets) := fun tweets heq => hi ⟨tweets, heq⟩
    refine h.idle (Tasks.step_response_of_ne hne) ?_ rfl rfl
    unfold loaded'
    dsimp only
    split
    · rename_i heq
      exact absurd heq (hne _)
    · rfl

theorem Sound.step (h : Sound S s) {event : Event} (husual : s.Usual event) (hnew : s.OneNew S event) :
    Sound S (s.step sender event) := by
  match event with
  | .post tweet => exact h.post husual
  | .task (.interval now) => exact h.interval now
  | .task .answerBackfill => exact h.answerBackfill
  | .task (.answer i) => exact h.answer husual hnew
  | .task .pollBackfill => exact h.pollBackfill
  | .task (.response i) => exact h.response i

/-- If no poll passes over a tweet that has come after the first request of the backfill, every tweet is
handed over. -/
theorem handedOver_of_oneNew (sender : RequestSender) {posted : List Tweet}
    (hinj : ∀ a ∈ posted, ∀ b ∈ posted, a.id = b.id → a = b) (S : Int64) (run : List Event)
    (husual : ∀ m ∈ Runs.moves (Handover.step sender) (start sender posted S) run, m.1.Usual m.2)
    (hnew : ∀ m ∈ Runs.moves (Handover.step sender) (start sender posted S) run, m.1.OneNew S m.2) :
    ∀ s ∈ Runs.states (Handover.step sender) (start sender posted S) run, s.HandedOver S := by
  have hsound : ∀ s ∈ Runs.states (Handover.step sender) (start sender posted S) run, Sound S s :=
    Runs.always_of_moves (I := Sound S) (C := fun s event => s.Usual event ∧ s.OneNew S event)
      (fun _ _ hs hc => Sound.step hs hc.1 hc.2) (sound_start sender hinj S)
      (fun m hm => ⟨husual m hm, hnew m hm⟩)
  exact fun s hs => (hsound s hs).handedOver

end Sound

/-! ### Tweets between the backfill and the first poll -/

instance decidableHandedOver (S : Int64) (s : Handover) : Decidable (s.HandedOver S) :=
  inferInstanceAs (Decidable (s.tasks.backfill = none → _))

instance decidableUsual (s : Handover) (event : Event) : Decidable (s.Usual event) :=
  match event with
  | .post tweet => inferInstanceAs (Decidable (∀ t ∈ s.posted, t.id < tweet.id))
  | .task (.answer i) =>
    decidable_of_iff (∀ request ∈ s.asked (.answer i), request.sinceId.isSome = true →
      (s.loaded[i]?.all fun since =>
        decide ((s.posted.filter fun t => decide (since < t.id)).length < 200)) = true)
      (by simp only [Usual, Option.all_eq_true, Option.mem_def, decide_eq_true_eq])
  | .task (.interval _) | .task .answerBackfill | .task .pollBackfill | .task (.response _) =>
    .isTrue trivial

instance decidableOneNew (S : Int64) (s : Handover) (event : Event) : Decidable (s.OneNew S event) :=
  match event with
  | .task (.answer i) => inferInstanceAs (Decidable (∀ request ∈ s.asked (.answer i), _))
  | .post _ | .task (.interval _) | .task .answerBackfill | .task .pollBackfill | .task (.response _) =>
    .isTrue trivial

def sampleTweet (id : Int64) : Tweet := ⟨id, "", none, none, 10, none, none⟩

/-- A list that is polled every second, without a delay. -/
def samplePolls : RequestSender :=
  ⟨⟨7, by decide⟩, 0, 1000000000, ⟨⟨"key", "secret"⟩, 1, ⟨"token", "secret"⟩⟩⟩

/-- The tweets `ids` come between the first answers to the backfill and to a poll. -/
def between (ids : List Int64) : List Event :=
  [.task .answerBackfill] ++ ids.map (fun id => .post (sampleTweet id)) ++
    [.task (.interval 1288834975657000000), .task (.answer 0), .task (.response 0), .task .pollBackfill,
      .task .answerBackfill, .task .pollBackfill, .task (.interval 1288834976657000000), .task (.answer 0)]

theorem handedOver_between_one :
    (∀ m ∈ Runs.moves (step samplePolls) (start samplePolls [sampleTweet 2] 1) (between [3]),
      m.1.Usual m.2) ∧
      ∀ s ∈ Runs.states (step samplePolls) (start samplePolls [sampleTweet 2] 1) (between [3]),
        s.HandedOver 1 := by
  have husual : ∀ m ∈ Runs.moves (step samplePolls) (start samplePolls [sampleTweet 2] 1) (between [3]),
      m.1.Usual m.2 := by decide
  exact ⟨husual, handedOver_of_oneNew samplePolls (by decide) 1 (between [3]) husual (by decide)⟩

/-- The older of two tweets is in no answer. -/
theorem not_handedOver_between_two :
    (∀ m ∈ Runs.moves (step samplePolls) (start samplePolls [sampleTweet 2] 1) (between [3, 4]),
      m.1.Usual m.2) ∧
      ¬ ∀ s ∈ Runs.states (step samplePolls) (start samplePolls [sampleTweet 2] 1) (between [3, 4]),
        s.HandedOver 1 := by
  decide

end Handover

end Pipitor.Twitter
