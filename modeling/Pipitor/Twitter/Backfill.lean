import Pipitor.Twitter.Lists

/-!
# The tasks of a list timeline

`ListTimeline::new` of `twitter/list_timeline.rs` spawns a `Backfill`, where there is a `since_id`, and
an `Interval` that calls `RequestSender::send`. They share the stored `since_id` and the channel; a
response may be on the way for any time, and the server looks at a request at some moment in between.
-/

namespace Pipitor.Twitter

/-- A request that the server has not looked at, or the response to it, on the way. -/
inductive Exchange
  | asked (request : Statuses)
  | answered (tweets : List Tweet)
deriving DecidableEq

/-- The server looks at the request. -/
def Exchange.answer (posted : List Tweet) : Exchange → Exchange
  | .asked request => .answered (request.answer Tweet.id posted)
  | .answered tweets => .answered tweets

structure Backfill where
  sinceId : Int64
  response : Exchange
deriving DecidableEq

/-- `sinceId` is that of the `RequestSender`; `responses` are the requests of `send` that are under
way, and `channel` holds the batches that the `ListTimeline` has not yielded. -/
structure Tasks where
  sinceId : Int64
  backfill : Option Backfill
  responses : List Exchange
  channel : List (List Tweet)

/-- What may happen to the tasks. -/
inductive TaskEvent
  | interval (now : ℕ)
  | answerBackfill
  | answer (i : ℕ)
  | pollBackfill
  | response (i : ℕ)

namespace Tasks

/-- What `ListTimeline::new` spawns. -/
def new (sender : RequestSender) (sinceId : Option Int64) : Tasks where
  sinceId := 0
  backfill := sinceId.map fun sinceId =>
    ⟨sinceId, .asked { listId := sender.listId, sinceId := some sinceId }⟩
  responses := []
  channel := []

def setSinceId (tasks : Tasks) (id : Int64) : Tasks := { tasks with sinceId := max tasks.sinceId id }

def startSend (tasks : Tasks) (tweets : List Tweet) : Tasks :=
  { tasks with channel := tasks.channel ++ [tweets] }

/-- `Backfill::poll` with the response at hand. -/
def pollBackfill (sender : RequestSender) (tasks : Tasks) (sinceId : Int64) (tweets : List Tweet) :
    Tasks :=
  match tweets.head?, tweets.getLast? with
  | some first, some last =>
    let tasks := tasks.setSinceId first.id
    let res : Statuses := { listId := sender.listId, sinceId := some sinceId, maxId := some (last.id - 1) }
    let tasks := { tasks with backfill := some ⟨sinceId, .asked res⟩ }
    tasks.startSend tweets
  | _, _ => { tasks with backfill := none }

/-- The rest of `RequestSender::send` when the response is there. -/
def receive (tasks : Tasks) (tweets : List Tweet) : Tasks :=
  match tweets.head? with
  | some t => (tasks.startSend tweets).setSinceId t.id
  | none => tasks

def step (sender : RequestSender) (posted : List Tweet) (tasks : Tasks) : TaskEvent → Tasks
  | .interval now =>
    match sender.send tasks.sinceId now with
    | some request => { tasks with responses := tasks.responses ++ [.asked request] }
    | none => tasks
  | .answerBackfill =>
    { tasks with backfill := tasks.backfill.map fun b => { b with response := b.response.answer posted } }
  | .answer i => { tasks with responses := tasks.responses.modify i (·.answer posted) }
  | .pollBackfill =>
    match tasks.backfill with
    | some ⟨sinceId, .answered tweets⟩ => tasks.pollBackfill sender sinceId tweets
    | _ => tasks
  | .response i =>
    match tasks.responses[i]? with
    | some (.answered tweets) => { tasks with responses := tasks.responses.eraseIdx i }.receive tweets
    | _ => tasks

/-! What each event does. -/

section Step

variable {sender : RequestSender} {posted : List Tweet} {tasks : Tasks}

theorem step_interval {now : ℕ} {request : Statuses} (h : sender.send tasks.sinceId now = some request) :
    tasks.step sender posted (.interval now) =
      { tasks with responses := tasks.responses ++ [.asked request] } := by
  unfold step
  simp only [h]

theorem step_interval_of_none {now : ℕ} (h : sender.send tasks.sinceId now = none) :
    tasks.step sender posted (.interval now) = tasks := by
  unfold step
  simp only [h]

theorem step_answerBackfill_of_ne (h : ∀ sinceId request, tasks.backfill ≠ some ⟨sinceId, .asked request⟩) :
    tasks.step sender posted .answerBackfill = tasks := by
  obtain ⟨since, backfill, responses, channel⟩ := tasks
  match backfill with
  | none => rfl
  | some ⟨sinceId, .answered tweets⟩ => rfl
  | some ⟨sinceId, .asked request⟩ => exact absurd rfl (h sinceId request)

theorem step_answer_of_ne {i : ℕ} (h : ∀ request, tasks.responses[i]? ≠ some (.asked request)) :
    tasks.step sender posted (.answer i) = tasks := by
  have hsame : tasks.responses.modify i (·.answer posted) = tasks.responses := by
    refine List.ext_getElem? fun j => ?_
    rw [List.getElem?_modify]
    split
    · rename_i heq
      subst heq
      cases hi : tasks.responses[i]? with
      | none => rfl
      | some exchange =>
        cases exchange with
        | asked request => exact absurd hi (h request)
        | answered tweets => rfl
    · exact Option.map_id_apply
  unfold step
  dsimp only
  rw [hsame]

theorem step_pollBackfill {sinceId : Int64} {tweets : List Tweet}
    (h : tasks.backfill = some ⟨sinceId, .answered tweets⟩) :
    tasks.step sender posted .pollBackfill = tasks.pollBackfill sender sinceId tweets := by
  unfold step
  simp only [h]

theorem pollBackfill_nil (sinceId : Int64) :
    tasks.pollBackfill sender sinceId [] = { tasks with backfill := none } := rfl

theorem pollBackfill_cons {sinceId : Int64} {t last : Tweet} {tweets : List Tweet}
    (h : (t :: tweets).getLast? = some last) : tasks.pollBackfill sender sinceId (t :: tweets) =
      { tasks with
        sinceId := max tasks.sinceId t.id
        backfill := some ⟨sinceId,
          .asked { listId := sender.listId, sinceId := some sinceId, maxId := some (last.id - 1) }⟩
        channel := tasks.channel ++ [t :: tweets] } := by
  unfold pollBackfill
  rw [h]
  rfl

theorem step_pollBackfill_of_ne (h : ∀ sinceId tweets, tasks.backfill ≠ some ⟨sinceId, .answered tweets⟩) :
    tasks.step sender posted .pollBackfill = tasks := by
  unfold step
  dsimp only
  split
  · rename_i hb
    exact absurd hb (h _ _)
  · rfl

theorem step_response {i : ℕ} {tweets : List Tweet} (h : tasks.responses[i]? = some (.answered tweets)) :
    tasks.step sender posted (.response i) =
      { tasks with responses := tasks.responses.eraseIdx i }.receive tweets := by
  unfold step
  simp only [h]

theorem step_response_of_ne {i : ℕ} (h : ∀ tweets, tasks.responses[i]? ≠ some (.answered tweets)) :
    tasks.step sender posted (.response i) = tasks := by
  unfold step
  dsimp only
  split
  · rename_i hi
    exact absurd hi (h _)
  · rfl

@[simp] theorem receive_responses (tweets : List Tweet) :
    (tasks.receive tweets).responses = tasks.responses := by
  unfold receive
  cases tweets <;> rfl

@[simp] theorem receive_backfill (tweets : List Tweet) :
    (tasks.receive tweets).backfill = tasks.backfill := by
  unfold receive
  cases tweets <;> rfl

theorem receive_sinceId (tweets : List Tweet) : (tasks.receive tweets).sinceId =
    (tweets.head?.map fun t => max tasks.sinceId t.id).getD tasks.sinceId := by
  unfold receive
  cases tweets <;> rfl

end Step

/-! ### What is on the way -/

/-- The batches that are on the way, in a response or in the channel. -/
def OnTheWay (tasks : Tasks) (tweets : List Tweet) : Prop :=
  tweets ∈ tasks.channel ∨ .answered tweets ∈ tasks.responses ∨
    ∃ sinceId, tasks.backfill = some ⟨sinceId, .answered tweets⟩

variable {sender : RequestSender} {posted : List Tweet} {tasks : Tasks}

theorem not_onTheWay_new {sinceId : Option Int64} {tweets : List Tweet} :
    ¬ (new sender sinceId).OnTheWay tweets := by
  unfold OnTheWay new
  cases sinceId <;> simp

theorem onTheWay_pollBackfill {sinceId : Int64} {tweets batch : List Tweet}
    (h : (tasks.pollBackfill sender sinceId tweets).OnTheWay batch) :
    tasks.OnTheWay batch ∨ batch = tweets := by
  unfold pollBackfill at h
  split at h
  · rcases h with hchannel | hresponse | ⟨_, hbackfill⟩
    · rcases List.mem_append.mp hchannel with hold | hnew
      · exact Or.inl (Or.inl hold)
      · exact Or.inr (List.mem_singleton.mp hnew)
    · exact Or.inl (Or.inr (Or.inl hresponse))
    · simp [startSend] at hbackfill
  · rcases h with hchannel | hresponse | ⟨_, hbackfill⟩
    · exact Or.inl (Or.inl hchannel)
    · exact Or.inl (Or.inr (Or.inl hresponse))
    · simp at hbackfill

theorem onTheWay_receive {tweets batch : List Tweet} (h : (tasks.receive tweets).OnTheWay batch) :
    tasks.OnTheWay batch ∨ batch = tweets := by
  unfold receive at h
  split at h
  · rcases h with hchannel | hrest
    · rcases List.mem_append.mp hchannel with hold | hnew
      · exact Or.inl (Or.inl hold)
      · exact Or.inr (List.mem_singleton.mp hnew)
    · exact Or.inl (Or.inr hrest)
  · exact Or.inl h

/-- What is on the way after an answer was so before, or is the answer. -/
theorem answered_answer {exchange : Exchange} {batch : List Tweet}
    (h : exchange.answer posted = .answered batch) :
    exchange = .answered batch ∨ ∃ request : Statuses, batch = request.answer Tweet.id posted := by
  cases exchange with
  | asked request =>
    cases h
    exact Or.inr ⟨request, rfl⟩
  | answered tweets => exact Or.inl h

theorem mem_of_modify_answer {responses : List Exchange} {i : ℕ} {batch : List Tweet}
    (h : .answered batch ∈ responses.modify i (·.answer posted)) :
    .answered batch ∈ responses ∨ ∃ request : Statuses, batch = request.answer Tweet.id posted := by
  obtain ⟨j, hj⟩ := List.mem_iff_getElem?.mp h
  rw [List.getElem?_modify] at hj
  obtain ⟨exchange, hexchange, heq⟩ := Option.map_eq_some_iff.mp hj
  have hmem := List.mem_of_getElem? hexchange
  by_cases hij : i = j
  · rw [if_pos hij] at heq
    rcases answered_answer heq with rfl | hnew
    · exact Or.inl hmem
    · exact Or.inr hnew
  · rw [if_neg hij] at heq
    subst heq
    exact Or.inl hmem

/-- A batch that is on the way after an event was so before, or is an answer of the server. -/
theorem onTheWay_step {event : TaskEvent} {batch : List Tweet}
    (h : (tasks.step sender posted event).OnTheWay batch) :
    tasks.OnTheWay batch ∨ ∃ request : Statuses, batch = request.answer Tweet.id posted := by
  cases event with
  | interval now =>
    unfold step at h
    dsimp only at h
    split at h
    · rcases h with hchannel | hresponse | hbackfill
      · exact Or.inl (Or.inl hchannel)
      · rcases List.mem_append.mp hresponse with hold | hnew
        · exact Or.inl (Or.inr (Or.inl hold))
        · cases List.mem_singleton.mp hnew
      · exact Or.inl (Or.inr (Or.inr hbackfill))
    · exact Or.inl h
  | answerBackfill =>
    rcases h with hchannel | hresponse | ⟨sinceId, hbackfill⟩
    · exact Or.inl (Or.inl hchannel)
    · exact Or.inl (Or.inr (Or.inl hresponse))
    · obtain ⟨⟨sinceId', exchange⟩, hb, heq⟩ := Option.map_eq_some_iff.mp hbackfill
      have hanswer : exchange.answer posted = .answered batch := congrArg Backfill.response heq
      rcases answered_answer hanswer with rfl | hnew
      · exact Or.inl (Or.inr (Or.inr ⟨_, hb⟩))
      · exact Or.inr hnew
  | answer i =>
    rcases h with hchannel | hresponse | hbackfill
    · exact Or.inl (Or.inl hchannel)
    · rcases mem_of_modify_answer hresponse with hold | hnew
      · exact Or.inl (Or.inr (Or.inl hold))
      · exact Or.inr hnew
    · exact Or.inl (Or.inr (Or.inr hbackfill))
  | pollBackfill =>
    unfold step at h
    dsimp only at h
    split at h
    · rename_i sinceId tweets hb
      rcases onTheWay_pollBackfill h with hold | rfl
      · exact Or.inl hold
      · exact Or.inl (Or.inr (Or.inr ⟨_, hb⟩))
    · exact Or.inl h
  | response i =>
    unfold step at h
    dsimp only at h
    split at h
    · rename_i tweets hi
      have hmem := List.mem_of_getElem? hi
      rcases onTheWay_receive h with hold | rfl
      · rcases hold with hchannel | hresponse | hbackfill
        · exact Or.inl (Or.inl hchannel)
        · exact Or.inl (Or.inr (Or.inl (List.mem_of_mem_eraseIdx hresponse)))
        · exact Or.inl (Or.inr (Or.inr hbackfill))
      · exact Or.inl (Or.inr (Or.inl hmem))
    · exact Or.inl h

end Tasks

end Pipitor.Twitter
