import Mathlib.Data.Finset.Card
import Pipitor.App.Core
import Pipitor.Foundation.Gather
import Pipitor.Foundation.Runs

/-!
# `pipitor twitter-list-sync`

`bin/pipitor/twitter_list_sync.rs`: the members of the list become the Twitter topics of the manifest. First the
users that do not belong to the list are removed, all at once, then those that are missing are added. Twitter serves
the requests in any order and may lose its response to one. Nobody else changes the list.
-/

namespace Pipitor.App

open Twitter

namespace ListSync

/-- `twitter_client::error::ErrorCode`. -/
inductive ErrorCode
  | youArentAllowedToAddMembersToThisList
  | cannotFindSpecifiedUser
  | other (code : ℕ)
deriving DecidableEq, Repr

/-- `lists::members::{Destroy, Create}`. -/
inductive Action
  | destroy
  | create
deriving DecidableEq, Repr

abbrev Request := Action × Int64

/-- How a request is served. Where the response is lost Twitter may have `acted` or not. -/
inductive Answer
  | done
  | refused (codes : List ErrorCode)
  | lost (acted : Bool)
deriving DecidableEq, Repr

def Answer.acted : Answer → Bool
  | done => true
  | refused _ => false
  | lost acted => acted

/-- The list after a request has been served. -/
def serve (members : Finset Int64) : Request × Answer → Finset Int64
  | ((.destroy, user), answer) => if answer.acted then members.erase user else members
  | ((.create, user), answer) => if answer.acted then insert user members else members

/-- The errors of a user that cannot be added. -/
def skips (codes : List ErrorCode) : Bool :=
  codes.any fun code =>
    code = .youArentAllowedToAddMembersToThisList || code = .cannotFindSpecifiedUser

def accepts : Request → Answer → Bool
  | _, .done => true
  | (.create, _), .refused codes => skips codes
  | _, _ => false

/-- The users that the list is to hold. -/
def users (manifest : Manifest) : Finset Int64 := manifest.twitterTopics.toFinset

/-- What is requested, given the topics and the list. -/
def batches (users list : Finset Int64) : List (Finset Request) :=
  [(list \ users).image fun user => (.destroy, user), (users \ list).image fun user => (.create, user)]

inductive Phase
  | retrieving
  | requesting (list : Finset Int64) (requests : Gather.State Request Answer)
  | failed

/-- The members of the list, if there were `before`. -/
def members (before : Finset Int64) : Phase → Finset Int64
  | .requesting _ requests => requests.served.foldl serve before
  | _ => before

/-- The parameter `count` of `lists::Members`, and the most members that a list has. -/
def count : ℕ := 5000

inductive Event
  /-- The response holds the first page of the members. -/
  | retrieved (list : Finset Int64)
  | retrieveError
  | request (e : Gather.Event Request Answer)

def step (users before : Finset Int64) : Phase → Event → Phase
  | .retrieving, .retrieved list =>
    if list ⊆ before ∧ (before.card ≤ count → list = before) then .requesting list (.start (batches users list))
    else .retrieving
  | .retrieving, .retrieveError => .failed
  | .requesting list requests, .request e => .requesting list (requests.step accepts e)
  | phase, _ => phase

/-- What the program returns, and whether it says that something has been updated. -/
def result (users : Finset Int64) : Phase → Option (Except String Bool)
  | .retrieving => none
  | .failed => some (.error "failed to retrieve the list from Twitter")
  | .requesting list requests => match requests.ended with
    | none => none
    | some true => some (.ok (!(list \ users = ∅) || !(users \ list = ∅)))
    | some false => some (.error
      (if requests.past = [] then "failed to remove a user from the list" else "failed to add a user to the list"))

/-- The list and the token to begin with. -/
def prepare (manifest : Manifest) (db : Database) : Except String (TwitterList × Token) :=
  match manifest.twitter with
  | some ⟨client, user, _, some list⟩ => match db.twitterTokens.find? user with
    | some token => .ok (list, ⟨client, user, credentials token⟩)
    | none => .error "please run `pipitor twitter-login` first to login"
  | _ => .error "missing `twitter.list` in the manifest"

/-- The user could not be added. -/
def Refused (user : Int64) : Phase → Prop
  | .requesting _ requests => ∃ codes, ((.create, user), .refused codes) ∈ requests.served
  | _ => False

/-! ### The list after some requests -/

section Serve

variable {user : Int64} {x : Request × Answer} {served : List (Request × Answer)} {members : Finset Int64}

theorem mem_serve_of_not_create (h : x.1 ≠ (.create, user)) :
    user ∈ serve members x ↔ user ∈ members ∧ ¬(x.1 = (.destroy, user) ∧ x.2.acted = true) := by
  obtain ⟨⟨action, user'⟩, answer⟩ := x
  cases action with
  | destroy =>
    dsimp only [serve]
    split
    · rename_i hacted
      simp only [Finset.mem_erase, Prod.mk.injEq, true_and, hacted, eq_comm, and_comm, ne_eq]
    · rename_i hacted
      simp only [hacted, Bool.false_eq_true, and_false, not_false_eq_true, and_true]
  | create =>
    have hne : user ≠ user' := fun heq => h (by rw [heq])
    dsimp only [serve]
    split
    · simp [hne]
    · simp

theorem mem_serve_of_not_destroy (h : x.1 ≠ (.destroy, user)) :
    user ∈ serve members x ↔ user ∈ members ∨ x.1 = (.create, user) ∧ x.2.acted = true := by
  obtain ⟨⟨action, user'⟩, answer⟩ := x
  cases action with
  | destroy =>
    have hne : user ≠ user' := fun heq => h (by rw [heq])
    dsimp only [serve]
    split
    · simp [hne]
    · simp
  | create =>
    dsimp only [serve]
    split
    · rename_i hacted
      simp only [Finset.mem_insert, Prod.mk.injEq, true_and, hacted, and_true, eq_comm, or_comm]
    · rename_i hacted
      simp only [hacted, Bool.false_eq_true, and_false, or_false]

theorem mem_foldl_of_not_create (h : ∀ x ∈ served, x.1 ≠ (.create, user)) :
    user ∈ served.foldl serve members ↔
      user ∈ members ∧ ∀ x ∈ served, ¬(x.1 = (.destroy, user) ∧ x.2.acted = true) := by
  induction served generalizing members with
  | nil => simp
  | cons x served ih =>
    rw [List.foldl_cons, ih fun y hy => h y (List.mem_cons_of_mem _ hy),
      mem_serve_of_not_create (h x List.mem_cons_self), List.forall_mem_cons, and_assoc]

theorem mem_foldl_of_not_destroy (h : ∀ x ∈ served, x.1 ≠ (.destroy, user)) :
    user ∈ served.foldl serve members ↔
      user ∈ members ∨ ∃ x ∈ served, x.1 = (.create, user) ∧ x.2.acted = true := by
  induction served generalizing members with
  | nil => simp
  | cons x served ih =>
    rw [List.foldl_cons, ih fun y hy => h y (List.mem_cons_of_mem _ hy),
      mem_serve_of_not_destroy (h x List.mem_cons_self), or_assoc]
    simp only [List.mem_cons, exists_eq_or_imp]

end Serve

/-! ### Any order -/

section Order

variable {users before : Finset Int64} {requests : Gather.State Request Answer} {user : Int64}

theorem mem_batches {batch : Finset Request} (hbatch : batch ∈ batches users before) {request : Request}
    (h : request ∈ batch) :
    (request.1 = .destroy ∧ request.2 ∈ before ∧ request.2 ∉ users) ∨
      (request.1 = .create ∧ request.2 ∈ users ∧ request.2 ∉ before) := by
  unfold batches at hbatch
  rcases List.mem_cons.mp hbatch with rfl | hbatch
  · obtain ⟨user, huser, rfl⟩ := Finset.mem_image.mp h
    exact .inl ⟨rfl, Finset.mem_sdiff.mp huser⟩
  · rw [List.mem_singleton.mp hbatch] at h
    obtain ⟨user, huser, rfl⟩ := Finset.mem_image.mp h
    exact .inr ⟨rfl, Finset.mem_sdiff.mp huser⟩

theorem pairwise_batches (users before : Finset Int64) : (batches users before).Pairwise Disjoint := by
  refine List.pairwise_pair.mpr (Finset.disjoint_left.mpr fun request hdestroy hcreate => ?_)
  obtain ⟨user, -, rfl⟩ := Finset.mem_image.mp hdestroy
  obtain ⟨user', -, heq⟩ := Finset.mem_image.mp hcreate
  cases heq

variable (h : Gather.Inv accepts (batches users before) requests)

include h

theorem served_cases {x : Request × Answer} (hx : x ∈ requests.served) :
    (x.1.1 = .destroy ∧ x.1.2 ∈ before ∧ x.1.2 ∉ users) ∨ (x.1.1 = .create ∧ x.1.2 ∈ users ∧ x.1.2 ∉ before) := by
  obtain ⟨batch, hbatch, hmem⟩ := h.exists_batch hx
  exact mem_batches hbatch hmem

theorem not_create (hnot : user ∉ users ∨ user ∈ before) : ∀ x ∈ requests.served, x.1 ≠ (.create, user) := by
  intro x hx heq
  rcases served_cases h hx with ⟨hdestroy, -⟩ | ⟨-, huser, hnew⟩
  · rw [heq] at hdestroy
    cases hdestroy
  · rw [heq] at huser hnew
    rcases hnot with hnot | hnot
    · exact hnot huser
    · exact hnew hnot

theorem not_destroy (hnot : user ∈ users ∨ user ∉ before) : ∀ x ∈ requests.served, x.1 ≠ (.destroy, user) := by
  intro x hx heq
  rcases served_cases h hx with ⟨-, hold, huser⟩ | ⟨hcreate, -⟩
  · rw [heq] at hold huser
    rcases hnot with hnot | hnot
    · exact huser hnot
    · exact hnot hold
  · rw [heq] at hcreate
    cases hcreate

theorem mem_of_mem_users (hbefore : user ∈ before) (huser : user ∈ users) :
    user ∈ requests.served.foldl serve before := by
  rw [mem_foldl_of_not_destroy (not_destroy h (.inl huser))]
  exact .inl hbefore

theorem mem_before_or_users (hmem : user ∈ requests.served.foldl serve before) : user ∈ before ∨ user ∈ users := by
  by_contra hnot
  obtain ⟨hbefore, huser⟩ := not_or.mp hnot
  rw [mem_foldl_of_not_create (not_create h (.inl huser))] at hmem
  exact hbefore hmem.1

theorem not_mem_of_destroyed (huser : user ∉ users) (hdestroyed : requests.Accepted accepts (.destroy, user)) :
    user ∉ requests.served.foldl serve before := by
  rw [mem_foldl_of_not_create (not_create h (.inl huser))]
  obtain ⟨answer, hserved, haccepts⟩ := hdestroyed
  refine fun hmem => hmem.2 _ hserved ⟨rfl, ?_⟩
  cases answer with
  | done => rfl
  | refused codes => cases haccepts
  | lost acted => cases haccepts

/-- Before the first user is added all that do not belong to the list are gone. -/
theorem mem_users_of_added {added : Int64} (hadded : added ∈ requests.served.foldl serve before)
    (hnew : added ∉ before) (hmem : user ∈ requests.served.foldl serve before) : user ∈ users := by
  rw [mem_foldl_of_not_destroy (not_destroy h (.inr hnew))] at hadded
  rcases hadded with hadded | ⟨x, hx, hcreate, -⟩
  · exact absurd hadded hnew
  · by_contra huser
    have hbefore : user ∈ before := (mem_before_or_users h hmem).resolve_right huser
    have hxbatch : x.1 ∈ (users \ before).image fun user => (Action.create, user) := by
      rcases served_cases h hx with ⟨hdestroy, -⟩ | ⟨-, hmem'⟩
      · rw [hcreate] at hdestroy
        cases hdestroy
      · exact Finset.mem_image.mpr ⟨x.1.2, Finset.mem_sdiff.mpr hmem', Prod.ext (hcreate ▸ rfl) rfl⟩
    have heq : batches users before = [(before \ users).image fun user => (Action.destroy, user)] ++
        ((users \ before).image fun user => (Action.create, user)) :: [] := rfl
    refine not_mem_of_destroyed h huser ?_ hmem
    refine h.ordered (pairwise_batches users before) heq hx hxbatch _ (List.mem_singleton_self _) _ ?_
    exact Finset.mem_image.mpr ⟨user, Finset.mem_sdiff.mpr ⟨hbefore, huser⟩, rfl⟩

theorem eq_of_served {request : Request} {a a' : Answer} (ha : (request, a) ∈ requests.served)
    (ha' : (request, a') ∈ requests.served) : a = a' :=
  congrArg Prod.snd (List.inj_on_of_nodup_map h.nodup ha ha' rfl)

/-- When all has gone well the list holds the topics, without those who could not be added. -/
theorem mem_iff_of_succeeded (hended : requests.ended = some true) (user : Int64) :
    user ∈ requests.served.foldl serve before ↔
      user ∈ users ∧ ¬∃ codes, ((.create, user), .refused codes) ∈ requests.served := by
  have hall := h.accepted_of_succeeded hended
  by_cases huser : user ∈ users
  · by_cases hbefore : user ∈ before
    · have hnot := not_create h (.inr hbefore)
      refine iff_of_true (mem_of_mem_users h hbefore huser) ⟨huser, ?_⟩
      rintro ⟨codes, hrefused⟩
      exact hnot _ hrefused rfl
    · obtain ⟨answer, hserved, haccepts⟩ := hall _ (List.mem_cons_of_mem _ (List.mem_singleton_self _))
        (.create, user) (Finset.mem_image.mpr ⟨user, Finset.mem_sdiff.mpr ⟨huser, hbefore⟩, rfl⟩)
      rw [mem_foldl_of_not_destroy (not_destroy h (.inl huser))]
      constructor
      · rintro (hmem | ⟨⟨request, answer'⟩, hserved', rfl, hacted⟩)
        · exact absurd hmem hbefore
        · refine ⟨huser, ?_⟩
          rintro ⟨codes, hrefused⟩
          rw [eq_of_served h hserved' hrefused] at hacted
          cases hacted
      · rintro ⟨-, hnot⟩
        refine .inr ⟨_, hserved, rfl, ?_⟩
        cases answer with
        | done => rfl
        | refused codes => exact absurd ⟨codes, hserved⟩ hnot
        | lost acted => cases haccepts
  · refine iff_of_false ?_ fun hmem => huser hmem.1
    intro hmem
    have hbefore : user ∈ before := (mem_before_or_users h hmem).resolve_right huser
    refine not_mem_of_destroyed h huser (hall _ List.mem_cons_self _ ?_) hmem
    exact Finset.mem_image.mpr ⟨user, Finset.mem_sdiff.mpr ⟨hbefore, huser⟩, rfl⟩

end Order

/-! ### The whole program -/

/-- The requests are those for the list as it was. -/
def Fits (users before : Finset Int64) : Phase → Prop
  | .requesting list requests => list = before ∧ Gather.Inv accepts (batches users before) requests
  | _ => True

theorem fits_run (users : Finset Int64) {before : Finset Int64} (hcount : before.card ≤ count) (run : List Event) :
    Fits users before (Runs.final (step users before) .retrieving run) := by
  have hstart : Fits users before .retrieving := trivial
  refine Runs.final_induction (I := Fits users before) ?_ hstart run
  intro phase event hfits
  cases phase with
  | retrieving =>
    cases event with
    | retrieved list =>
      dsimp only [step]
      split
      · rename_i hlist
        obtain rfl := hlist.2 hcount
        exact ⟨rfl, Gather.inv_start (pairwise_batches users list)⟩
      · trivial
    | retrieveError => trivial
    | request e => trivial
  | requesting list requests =>
    cases event with
    | retrieved list => exact hfits
    | retrieveError => exact hfits
    | request e => exact ⟨hfits.1, hfits.2.step (pairwise_batches users before) e⟩
  | failed => cases event <;> trivial

/-- **The list is synchronized in any order.** At any time, however the requests are served and whatever fails, the
members of the list that are topics are still there and nobody else has been added; the first topic is added when
all that do not belong to the list are gone. If the program succeeds the list holds the topics but for those whom
Twitter refused, and it says that there is nothing to update just when the list held the topics already. When all
requests have been served and all responses have arrived it has come to an end. -/
theorem list_synced (manifest : Manifest) {before : Finset Int64} (hcount : before.card ≤ count)
    (run : List Event) {phase : Phase}
    (hphase : phase = Runs.final (step (users manifest) before) .retrieving run) :
    (before ∩ users manifest ⊆ members before phase ∧ members before phase ⊆ before ∪ users manifest) ∧
    (∀ added ∈ members before phase, added ∉ before → members before phase ⊆ users manifest) ∧
    (∀ updated, result (users manifest) phase = some (.ok updated) →
      (∀ user, user ∈ members before phase ↔ user ∈ users manifest ∧ ¬Refused user phase) ∧
      (updated = false ↔ before = users manifest)) ∧
    (∀ list requests, phase = .requesting list requests → requests.unserved = ∅ → requests.replies = [] →
      (result (users manifest) phase).isSome) := by
  have hfits := hphase ▸ fits_run (users manifest) hcount run
  clear hphase
  generalize users manifest = users at hfits ⊢
  cases phase with
  | retrieving =>
    refine ⟨⟨Finset.inter_subset_left, Finset.subset_union_left⟩, fun _ hmem hnew => absurd hmem hnew, ?_, ?_⟩
    · exact fun _ h => (nomatch h)
    · exact fun _ _ h => (nomatch h)
  | failed =>
    refine ⟨⟨Finset.inter_subset_left, Finset.subset_union_left⟩, fun _ hmem hnew => absurd hmem hnew, ?_, ?_⟩
    · exact fun _ h => (nomatch h)
    · exact fun _ _ h => (nomatch h)
  | requesting list requests =>
    obtain ⟨rfl, hinv⟩ := hfits
    refine ⟨⟨?_, ?_⟩, ?_, ?_, ?_⟩
    · intro user hmem
      exact mem_of_mem_users hinv (Finset.mem_inter.mp hmem).1 (Finset.mem_inter.mp hmem).2
    · exact fun user hmem => Finset.mem_union.mpr (mem_before_or_users hinv hmem)
    · exact fun added hadded hnew user hmem => mem_users_of_added hinv hadded hnew hmem
    · intro updated hresult
      dsimp only [result] at hresult
      split at hresult
      · cases hresult
      · rename_i hended
        cases hresult
        refine ⟨mem_iff_of_succeeded hinv hended, ?_⟩
        simp only [Bool.or_eq_false_iff, Bool.not_eq_false', decide_eq_true_eq, Finset.sdiff_eq_empty_iff_subset]
        exact Finset.Subset.antisymm_iff.symm
      · cases hresult
    · intro list' requests' heq hunserved hreplies
      cases heq
      have hended := hinv.ended_of_idle hunserved hreplies
      dsimp only [result]
      split
      · rename_i hnone
        exact absurd hnone hended
      · rfl
      · rfl

/-! ### A user who cannot be added -/

def protectedManifest : Manifest := sampleManifest (some sampleList) [.twitter 1, .twitter 2]

/-- User 1 belongs to the list, user 3 does not, and user 2 is protected. -/
def protectedRun : List Event :=
  [.retrieved {1, 3}, .request (.serve (.destroy, 3) .done), .request (.receive 0),
    .request (.serve (.create, 2) (.refused [.youArentAllowedToAddMembersToThisList])), .request (.receive 0)]

def protectedPhase : Phase := Runs.final (step (users protectedManifest) {1, 3}) .retrieving protectedRun

theorem list_synced_protected :
    result (users protectedManifest) protectedPhase = some (.ok true) ∧
      (2 ∈ members {1, 3} protectedPhase ↔ 2 ∈ users protectedManifest ∧ ¬Refused 2 protectedPhase) := by
  have hresult : result (users protectedManifest) protectedPhase = some (.ok true) := by decide +kernel
  exact ⟨hresult, (@list_synced protectedManifest {1, 3} (by decide) protectedRun protectedPhase rfl).2.2.1 true
    hresult |>.1 2⟩

end ListSync

end Pipitor.App
