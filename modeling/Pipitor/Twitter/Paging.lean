import Pipitor.Twitter.Interval

/-!
# The pages of a backfill

`Backfill::poll` of `twitter/list_timeline.rs` asks for page after page, each time for what is older than the
last tweet of the page before, among the polls of the interval and the responses to the regular requests.
`backfill_complete` says that it comes to its end and what it has sent by then, if the API answers without
errors and the list only gets newer tweets meanwhile.
-/

namespace Pipitor.Twitter

namespace Timeline

/-- What the `Backfill` puts on the channel in a step. -/
def sentBy (m : Timeline × TimelineEvent) : List (List Tweet) :=
  match m.2 with
  | .backfill _ => (m.1.step m.2).put.drop m.1.put.length
  | _ => []

/-- A request of the `Backfill` is answered. -/
def isAnswer (m : Timeline × TimelineEvent) : Bool :=
  match m.2 with
  | .backfill _ => m.1.backfill.isSome
  | _ => false

def sent (t : Timeline) (run : List TimelineEvent) : List (List Tweet) := (Runs.moves step t run).flatMap sentBy

def answered (t : Timeline) (run : List TimelineEvent) : ℕ := (Runs.moves step t run).countP isAnswer

/-- A request of the `Backfill` is answered with a page of what the list shows at that time. `first` is what it
shows when the first of them is answered. -/
def Served (first : List Tweet) (t : Timeline) : TimelineEvent → Prop
  | .backfill response => ∀ sinceId request, t.backfill = some (sinceId, request) →
    ∃ page rateLimit shown, response = .ok page rateLimit ∧ Listing.Later Tweet.id first shown ∧
      (request.maxId = none → shown = first) ∧
        Listing.Answer Tweet.id request.sinceId request.maxId shown page
  | _ => True

/-- What `lists/statuses` answers, where the ids tell the tweets apart, is such a page. -/
theorem answer_answer (request : Statuses) (hcount : 0 < request.count.getD maxCount) {shown : List Tweet}
    (hnodup : (shown.map Tweet.id).Nodup) :
    Listing.Answer Tweet.id request.sinceId request.maxId shown (request.answer Tweet.id shown) :=
  Listing.answer_page (lt_min hcount (by decide)) hnodup

/-- What the `Backfill` has sent when `answers` of its requests have been answered. -/
structure Paging (first : List Tweet) (since : Int64) (t : Timeline) (pages : List (List Tweet)) (answers : ℕ) :
    Prop where
  shared : ∀ x ∈ pages.flatten, x.id ≤ t.sinceId
  nonempty : ∀ page ∈ pages, page ≠ []
  pending : ∀ sinceId request, t.backfill = some (sinceId, request) → sinceId = since ∧
    request.sinceId = some since ∧ answers = pages.length ∧
      Listing.Gathered Tweet.id since request.maxId first pages.flatten
  ended : t.backfill = none → answers = pages.length + 1 ∧
    (∃ max, Listing.Gathered Tweet.id since max first pages.flatten) ∧
      ∀ x ∈ first, since < x.id → x ∈ pages.flatten

variable {first : List Tweet} {since : Int64} {t : Timeline} {pages : List (List Tweet)} {answers : ℕ}

theorem paging_new (sender : RequestSender) (first : List Tweet) (since : Int64) (now : ℕ) :
    Paging first since (new sender (some since) now) [] 0 where
  shared := nofun
  nonempty := nofun
  pending := by
    rintro _ _ ⟨⟩
    exact ⟨rfl, rfl, rfl, .nil⟩
  ended := nofun

/-- The other tasks leave the `Backfill` alone, and the shared `since_id` grows. -/
theorem Paging.other (h : Paging first since t pages answers) {t' : Timeline} (hbackfill : t'.backfill = t.backfill)
    (hsince : t.sinceId ≤ t'.sinceId) : Paging first since t' pages answers where
  shared := fun x hx => (h.shared x hx).trans hsince
  nonempty := h.nonempty
  pending := by
    rw [hbackfill]
    exact h.pending
  ended := by
    rw [hbackfill]
    exact h.ended

theorem sinceId_poll (t : Timeline) (now : ℕ) :
    (t.step (.poll now)).backfill = t.backfill ∧ (t.step (.poll now)).sinceId = t.sinceId := by
  have hupgrade : t.upgrade.backfill = t.backfill ∧ t.upgrade.sinceId = t.sinceId := by
    unfold upgrade
    split
    · exact ⟨rfl, rfl⟩
    · exact ⟨rfl, rfl⟩
  have hsend : ∀ t : Timeline, (t.send now).backfill = t.backfill ∧ (t.send now).sinceId = t.sinceId := by
    intro t
    unfold send
    split
    · exact ⟨rfl, rfl⟩
    · exact ⟨rfl, rfl⟩
  show (t.upgrade.tick now).backfill = _ ∧ (t.upgrade.tick now).sinceId = _
  rw [← hupgrade.1, ← hupgrade.2]
  unfold tick
  split
  · dsimp only
    split
    · exact hsend _
    · exact ⟨rfl, rfl⟩
  · exact ⟨rfl, rfl⟩

theorem le_sinceId_receive (t : Timeline) (response : Response) : t.sinceId ≤ (t.receive response).sinceId := by
  cases response with
  | ok tweets rateLimit =>
    cases tweets with
    | nil => exact le_rfl
    | cons first tweets => exact le_max_left _ _
  | twitter rateLimit => exact le_rfl
  | failed => exact le_rfl

theorem le_sinceId_pollRequest (t : Timeline) (i : ℕ) (response : Response) :
    t.sinceId ≤ (t.pollRequest i response).sinceId := by
  unfold pollRequest
  split
  · exact le_sinceId_receive { t with requests := t.requests.eraseIdx i } response
  · exact le_rfl

/-- A page with tweets is sent, and the next one asked for. -/
theorem step_backfill_cons {sinceId : Int64} {request : Statuses} (hbackfill : t.backfill = some (sinceId, request))
    {x last : Tweet} {page : List Tweet} (hlast : (x :: page).getLast? = some last) (rateLimit : Option RateLimit) :
    t.step (.backfill (.ok (x :: page) rateLimit)) =
      { t with
        sinceId := max t.sinceId x.id
        backfill := some (sinceId,
          { listId := t.sender.listId, sinceId := some sinceId, maxId := some (last.id - 1) })
        channel := t.channel ++ [x :: page]
        put := t.put ++ [x :: page] } := by
  show t.pollBackfill _ = _
  unfold pollBackfill
  rw [hbackfill]
  show t.backfilled sinceId _ = _
  unfold backfilled
  dsimp only [List.head?_cons]
  rw [hlast]
  rfl

theorem step_backfill_nil {sinceId : Int64} {request : Statuses} (hbackfill : t.backfill = some (sinceId, request))
    (rateLimit : Option RateLimit) : t.step (.backfill (.ok [] rateLimit)) = { t with backfill := none } := by
  show t.pollBackfill _ = _
  unfold pollBackfill
  rw [hbackfill]
  rfl

theorem Paging.answer_nil (h : Paging first since t pages answers) {sinceId : Int64} {request : Statuses}
    (hbackfill : t.backfill = some (sinceId, request)) {shown : List Tweet}
    (hlater : Listing.Later Tweet.id first shown)
    (hanswer : Listing.Answer Tweet.id request.sinceId request.maxId shown []) (rateLimit : Option RateLimit) :
    Paging first since (t.step (.backfill (.ok [] rateLimit))) (pages ++ sentBy (t, .backfill (.ok [] rateLimit)))
      (answers + 1) := by
  obtain ⟨rfl, hsince, hanswers, hgathered⟩ := h.pending sinceId request hbackfill
  rw [hsince] at hanswer
  have hsent : sentBy (t, .backfill (.ok [] rateLimit)) = [] := by
    show (t.step (.backfill (.ok [] rateLimit))).put.drop t.put.length = []
    rw [step_backfill_nil hbackfill]
    simp
  rw [hsent, List.append_nil, step_backfill_nil hbackfill]
  refine ⟨h.shared, h.nonempty, nofun, fun _ => ⟨by rw [hanswers], ⟨_, hgathered⟩, fun x hx hlt => ?_⟩⟩
  exact (hgathered.complete hlater hanswer).mpr ⟨hx, hlt⟩

theorem Paging.answer_cons (h : Paging first since t pages answers) {sinceId : Int64} {request : Statuses}
    (hbackfill : t.backfill = some (sinceId, request)) {x : Tweet} {page shown : List Tweet}
    (hlater : Listing.Later Tweet.id first shown) (hfirst : request.maxId = none → shown = first)
    (hanswer : Listing.Answer Tweet.id request.sinceId request.maxId shown (x :: page))
    (rateLimit : Option RateLimit) :
    Paging first since (t.step (.backfill (.ok (x :: page) rateLimit)))
      (pages ++ sentBy (t, .backfill (.ok (x :: page) rateLimit))) (answers + 1) := by
  obtain ⟨rfl, hsince, hanswers, hgathered⟩ := h.pending sinceId request hbackfill
  rw [hsince] at hanswer
  obtain ⟨last, hlast⟩ : ∃ last, (x :: page).getLast? = some last := by simp [List.getLast?_cons]
  have hmem : last ∈ x :: page := List.mem_of_getLast? hlast
  have hlow : sinceId < last.id := (hanswer.within last hmem).2.1 sinceId rfl
  have hgathered' : Listing.Gathered Tweet.id sinceId (some (last.id - 1)) first (pages.flatten ++ x :: page) := by
    refine hgathered.append hlater hfirst hanswer hlast (fun y _ => ?_) ?_
    · rw [← not_lt, Machine.sub_one_lt_iff hlow, not_le]
    · exact (Machine.sub_one_lt_iff hlow).mpr le_rfl
  have hsent : sentBy (t, .backfill (.ok (x :: page) rateLimit)) = [x :: page] := by
    show (t.step (.backfill (.ok (x :: page) rateLimit))).put.drop t.put.length = _
    rw [step_backfill_cons hbackfill hlast]
    simp
  have hflatten : (pages ++ [x :: page]).flatten = pages.flatten ++ x :: page := by simp
  rw [hsent, step_backfill_cons hbackfill hlast]
  refine ⟨?_, ?_, ?_, nofun⟩
  · intro y hy
    rw [hflatten] at hy
    rcases List.mem_append.mp hy with hold | hnew
    · exact (h.shared y hold).trans (le_max_left _ _)
    · refine le_trans ?_ (le_max_right _ _)
      rcases List.mem_cons.mp hnew with rfl | hrest
      · exact le_rfl
      · exact ((List.pairwise_cons.mp hanswer.sorted).1 y hrest).le
  · intro page' hpage'
    rcases List.mem_append.mp hpage' with hold | hnew
    · exact h.nonempty page' hold
    · rw [List.mem_singleton.mp hnew]
      exact List.cons_ne_nil _ _
  · rintro _ _ ⟨⟩
    refine ⟨rfl, rfl, ?_, ?_⟩
    · rw [List.length_append, List.length_singleton, hanswers]
    · rw [hflatten]
      exact hgathered'

theorem Paging.answer (h : Paging first since t pages answers) {sinceId : Int64} {request : Statuses}
    (hbackfill : t.backfill = some (sinceId, request)) {response : Response}
    (hserved : t.Served first (.backfill response)) :
    Paging first since (t.step (.backfill response)) (pages ++ sentBy (t, .backfill response)) (answers + 1) := by
  obtain ⟨page, rateLimit, shown, rfl, hlater, hfirst, hanswer⟩ := hserved sinceId request hbackfill
  cases page with
  | nil => exact h.answer_nil hbackfill hlater hanswer rateLimit
  | cons x page => exact h.answer_cons hbackfill hlater hfirst hanswer rateLimit

theorem Paging.step (h : Paging first since t pages answers) {event : TimelineEvent}
    (hserved : t.Served first event) : Paging first since (t.step event) (pages ++ sentBy (t, event))
      (answers + if isAnswer (t, event) then 1 else 0) := by
  cases event with
  | poll now =>
    rw [show sentBy (t, .poll now) = [] from rfl, List.append_nil]
    obtain ⟨hbackfill, hsince⟩ := t.sinceId_poll now
    exact h.other hbackfill hsince.ge
  | response i response =>
    rw [show sentBy (t, .response i response) = [] from rfl, List.append_nil]
    obtain ⟨-, -, -, hbackfill, -⟩ := t.pollRequest_frame i response
    exact h.other hbackfill (t.le_sinceId_pollRequest i response)
  | backfill response =>
    cases hbackfill : t.backfill with
    | some backfill =>
      have hanswer : isAnswer (t, .backfill response) = true := by
        show t.backfill.isSome = true
        rw [hbackfill]
        rfl
      rw [hanswer]
      exact @Paging.answer _ _ _ _ _ h backfill.1 backfill.2 hbackfill response hserved
    | none =>
      have hsame : t.step (.backfill response) = t := by simp [Timeline.step, pollBackfill, hbackfill]
      have hsent : sentBy (t, .backfill response) = [] := by
        show (t.step (.backfill response)).put.drop t.put.length = []
        rw [hsame]
        simp
      have hanswer : isAnswer (t, .backfill response) = false := by
        show t.backfill.isSome = false
        rw [hbackfill]
        rfl
      rw [hsame, hsent, hanswer, List.append_nil]
      exact h

theorem Paging.final (h : Paging first since t pages answers) {run : List TimelineEvent}
    (hserved : ∀ m ∈ Runs.moves Timeline.step t run, m.1.Served first m.2) :
    Paging first since (Runs.final Timeline.step t run) (pages ++ sent t run) (answers + answered t run) := by
  induction run generalizing t pages answers with
  | nil =>
    rw [show sent t [] = [] from rfl, List.append_nil]
    exact h
  | cons event run ih =>
    obtain ⟨hevent, hrun⟩ := List.forall_mem_cons.mp hserved
    have hnext := ih (h.step hevent) hrun
    have hsent : sent t (event :: run) = sentBy (t, event) ++ sent (t.step event) run := rfl
    have hanswered : answered t (event :: run) =
        (if isAnswer (t, event) then 1 else 0) + answered (t.step event) run := by
      unfold answered
      rw [Runs.moves, List.countP_cons, Nat.add_comm]
    rw [hsent, hanswered, ← List.append_assoc, ← Nat.add_assoc]
    exact hnext

theorem Paging.length_le (h : Paging first since t pages answers) {max : Option Int64}
    (hgathered : Listing.Gathered Tweet.id since max first pages.flatten) : pages.length ≤ first.length := by
  have hle : pages.length ≤ pages.flatten.length := by
    have hnonempty := h.nonempty
    clear hgathered h
    induction pages with
    | nil => exact le_rfl
    | cons page pages ih =>
      have hpos : 0 < page.length := List.length_pos_of_ne_nil (hnonempty page List.mem_cons_self)
      have hrest := ih fun page' hpage' => hnonempty page' (List.mem_cons_of_mem _ hpage')
      rw [List.flatten_cons, List.length_append, List.length_cons]
      omega
  exact hle.trans hgathered.length_le

end Timeline

open Timeline

/-- **A backfill is complete and ends**, whatever happens in between: it makes at most one request more than
there are tweets, so that it has ended when that many are answered; and when it has ended, its pages are the
tweets of the list above its `since_id`, in descending order, and the shared `since_id` is not below them. -/
theorem backfill_complete (sender : RequestSender) (since : Int64) (now : ℕ) (first : List Tweet)
    (run : List TimelineEvent)
    (hserved : ∀ m ∈ Runs.moves step (new sender (some since) now) run, m.1.Served first m.2) :
    let start := new sender (some since) now
    let t := Runs.final step start run
    answered start run + t.backfill.isSome.toNat ≤ first.length + 1 ∧
      (first.length < answered start run → t.backfill = none) ∧
      (t.backfill = none →
        (sent start run).flatten.Pairwise (fun a b => b.id < a.id) ∧
          (∀ x, x ∈ (sent start run).flatten ↔ x ∈ first ∧ since < x.id) ∧
            ∀ x ∈ (sent start run).flatten, x.id ≤ t.sinceId) := by
  intro start t
  have hpaging : Paging first since t (sent start run) (answered start run) := by
    have hfinal := (paging_new sender first since now).final hserved
    rwa [List.nil_append, Nat.zero_add] at hfinal
  have hcount : answered start run + t.backfill.isSome.toNat ≤ first.length + 1 := by
    cases hbackfill : t.backfill with
    | some backfill =>
      obtain ⟨-, -, hanswers, hgathered⟩ := hpaging.pending backfill.1 backfill.2 hbackfill
      have hle := hpaging.length_le hgathered
      rw [hanswers]
      exact Nat.add_le_add_right hle 1
    | none =>
      obtain ⟨hanswers, ⟨max, hgathered⟩, -⟩ := hpaging.ended hbackfill
      have hle := hpaging.length_le hgathered
      rw [hanswers]
      exact Nat.add_le_add_right hle 1
  refine ⟨hcount, fun hlt => ?_, fun hended => ?_⟩
  · cases hbackfill : t.backfill with
    | none => rfl
    | some backfill =>
      rw [hbackfill, show (some backfill).isSome.toNat = 1 from rfl] at hcount
      omega
  · obtain ⟨-, ⟨max, hgathered⟩, hall⟩ := hpaging.ended hended
    refine ⟨hgathered.sorted, fun x => ⟨hgathered.mem x, fun ⟨hx, hlt⟩ => hall x hx hlt⟩, hpaging.shared⟩

def pagedTweet (id : Int64) : Tweet := ⟨id, "text", none, none, 10, none, none⟩

/-- What the API answers to the three requests of a backfill of the tweets 5, 6 and 7, while tweet 8 comes. -/
def threePages : List TimelineEvent :=
  [.backfill (.ok [pagedTweet 7, pagedTweet 6] none), .backfill (.ok [pagedTweet 5] none), .backfill (.ok [] none)]

theorem backfill_complete_threePages :
    (Runs.final step (new tenSeconds (some 0) 0) threePages).backfill = none ∧
      ∀ x, x ∈ (sent (new tenSeconds (some 0) 0) threePages).flatten ↔
        x ∈ [pagedTweet 5, pagedTweet 6, pagedTweet 7] ∧ 0 < x.id := by
  let first := [pagedTweet 5, pagedTweet 6, pagedTweet 7]
  let shown := pagedTweet 8 :: first
  have hlater : Listing.Later Tweet.id first shown := ⟨fun _ => List.mem_cons_of_mem _, by decide⟩
  have hfirst : Listing.Answer Tweet.id (some 0) none first [pagedTweet 7, pagedTweet 6] :=
    ⟨by decide, by decide, by decide, nofun⟩
  have hsecond : Listing.Answer Tweet.id (some 0) (some 5) shown [pagedTweet 5] :=
    ⟨by decide, by decide, by decide, nofun⟩
  have hthird : Listing.Answer Tweet.id (some 0) (some 4) shown [] :=
    ⟨by decide, by decide, by decide, by decide⟩
  have hserved : ∀ m ∈ Runs.moves step (new tenSeconds (some 0) 0) threePages, m.1.Served first m.2 := by
    refine List.forall_mem_cons.mpr ⟨?_, List.forall_mem_cons.mpr ⟨?_, List.forall_mem_cons.mpr
      ⟨?_, List.forall_mem_nil _⟩⟩⟩
    · rintro _ _ ⟨⟩
      exact ⟨_, _, first, rfl, .refl, fun _ => rfl, hfirst⟩
    · intro sinceId request hbackfill
      obtain ⟨rfl, rfl⟩ := Prod.mk.inj (Option.some.inj hbackfill)
      exact ⟨_, _, shown, rfl, hlater, nofun, hsecond⟩
    · intro sinceId request hbackfill
      obtain ⟨rfl, rfl⟩ := Prod.mk.inj (Option.some.inj hbackfill)
      exact ⟨_, _, shown, rfl, hlater, nofun, hthird⟩
  obtain ⟨-, -, hcomplete⟩ := backfill_complete tenSeconds 0 0 first threePages hserved
  exact ⟨rfl, (hcomplete rfl).2.1⟩

end Pipitor.Twitter
