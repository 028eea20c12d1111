import Mathlib.Data.Finset.Basic
import Mathlib.Data.Finset.Lattice.Lemmas
import Mathlib.Data.Finset.SDiff

/-!
# Requests in any order

A program sends the requests of a batch at once, goes on to the next batch when every one of them has been answered
well, and gives up at the first answer that is not. The other side serves what has been sent in any order, also after
the program has given up.
-/

namespace Gather

variable {ρ ω : Type}

/-- `pending` are the requests of the current batch without a good answer. A request is `unserved` as long as the
other side may come to serve it; its reply is on the way until it is received. -/
structure State (ρ ω : Type) where
  past : List (Finset ρ)
  current : Finset ρ
  later : List (Finset ρ)
  pending : Finset ρ
  unserved : Finset ρ
  replies : List (ρ × ω)
  served : List (ρ × ω)
  ended : Option Bool

inductive Event (ρ ω : Type)
  | serve (r : ρ) (o : ω)
  | receive (j : ℕ)

namespace State

variable [DecidableEq ρ]

/-- Send the next batch. One without requests is done at once. -/
def launch (s : State ρ ω) : List (Finset ρ) → State ρ ω
  | [] => { s with current := ∅, later := [], pending := ∅, ended := some true }
  | batch :: later =>
    if batch = ∅ then launch { s with past := s.past ++ [batch] } later
    else { s with current := batch, later, pending := batch, unserved := s.unserved ∪ batch }

def start (batches : List (Finset ρ)) : State ρ ω := launch ⟨[], ∅, [], ∅, ∅, [], [], none⟩ batches

/-- The reply `j`, of `r`, is received. -/
def received (accepts : ρ → ω → Bool) (s : State ρ ω) (j : ℕ) (r : ρ) (o : ω) : State ρ ω :=
  if accepts r o then
    if s.pending.erase r = ∅ then
      launch { s with past := s.past ++ [s.current], pending := ∅, replies := s.replies.eraseIdx j } s.later
    else { s with pending := s.pending.erase r, replies := s.replies.eraseIdx j }
  else { s with ended := some false, replies := s.replies.eraseIdx j }

def step (accepts : ρ → ω → Bool) (s : State ρ ω) : Event ρ ω → State ρ ω
  | .serve r o =>
    if r ∈ s.unserved then
      { s with unserved := s.unserved.erase r, replies := s.replies ++ [(r, o)], served := s.served ++ [(r, o)] }
    else s
  | .receive j => match s.ended, s.replies[j]? with
    | none, some (r, o) => s.received accepts j r o
    | _, _ => s

/-- The request has been served, and well. -/
def Accepted (accepts : ρ → ω → Bool) (s : State ρ ω) (r : ρ) : Prop := ∃ o, (r, o) ∈ s.served ∧ accepts r o = true

end State

variable {accepts : ρ → ω → Bool} {batches : List (Finset ρ)} {s : State ρ ω}

/-! ### The invariant -/

/-- Between two batches: all that has been sent has been answered well, `rest` is to come. -/
structure Between (accepts : ρ → ω → Bool) (batches : List (Finset ρ)) (s : State ρ ω) (rest : List (Finset ρ)) :
    Prop where
  split : s.past ++ rest = batches
  accepted : ∀ batch ∈ s.past, ∀ r ∈ batch, s.Accepted accepts r
  served : ∀ x ∈ s.served, ∃ batch ∈ s.past, x.1 ∈ batch
  nodup : (s.served.map Prod.fst).Nodup
  unserved : s.unserved = ∅
  replies : s.replies = []
  running : s.ended = none

/-- The batches that are not past. -/
def State.rest (s : State ρ ω) : List (Finset ρ) := if s.ended = some true then [] else s.current :: s.later

structure Inv (accepts : ρ → ω → Bool) (batches : List (Finset ρ)) (s : State ρ ω) : Prop where
  split : s.past ++ s.rest = batches
  past : ∀ batch ∈ s.past, ∀ r ∈ batch, s.Accepted accepts r
  accepted : ∀ r ∈ s.current, r ∉ s.pending → s.Accepted accepts r
  pending : s.pending ⊆ s.current
  unserved : s.unserved ⊆ s.pending
  served : ∀ x ∈ s.served, x.1 ∈ s.current ∨ ∃ batch ∈ s.past, x.1 ∈ batch
  nodup : (s.served.map Prod.fst).Nodup
  fresh : ∀ x ∈ s.served, x.1 ∉ s.unserved
  replies : ∀ x ∈ s.replies, x ∈ s.served ∧ x.1 ∈ s.pending
  replies_nodup : (s.replies.map Prod.fst).Nodup
  refused : s.ended = some false → ∃ x ∈ s.served, accepts x.1 x.2 = false
  succeeded : s.ended = some true → s.current = ∅
  waiting : s.ended = none → s.pending ≠ ∅ ∧ ∀ r ∈ s.pending, r ∈ s.unserved ∨ r ∈ s.replies.map Prod.fst

theorem Between.finish (h : Between accepts batches s []) :
    Inv accepts batches { s with current := ∅, later := [], pending := ∅, ended := some true } where
  split := (List.append_nil _).trans ((List.append_nil _).symm.trans h.split)
  past := h.accepted
  accepted _ hr := absurd hr (Finset.notMem_empty _)
  pending := Finset.Subset.refl _
  unserved := h.unserved.subset
  served x hx := .inr (h.served x hx)
  nodup := h.nodup
  fresh _ _ hmem := Finset.notMem_empty _ (h.unserved ▸ hmem)
  replies x hx := by
    rw [h.replies] at hx
    cases hx
  replies_nodup := by
    rw [h.replies]
    exact List.nodup_nil
  refused hended := by cases hended
  succeeded _ := rfl
  waiting hended := by cases hended

theorem Between.skip {later : List (Finset ρ)} (h : Between accepts batches s (∅ :: later)) :
    Between accepts batches { s with past := s.past ++ [∅] } later where
  split := (List.append_assoc _ _ _).trans h.split
  accepted batch hbatch r hr := by
    rcases List.mem_append.mp hbatch with hbatch | hbatch
    · exact h.accepted batch hbatch r hr
    · rw [List.mem_singleton.mp hbatch] at hr
      exact absurd hr (Finset.notMem_empty _)
  served x hx := by
    obtain ⟨batch, hbatch, hmem⟩ := h.served x hx
    exact ⟨batch, List.mem_append_left _ hbatch, hmem⟩
  nodup := h.nodup
  unserved := h.unserved
  replies := h.replies
  running := h.running

/-- A reply that is received is the only one of its request. -/
theorem mem_eraseIdx_iff {l : List (ρ × ω)} (hnodup : (l.map Prod.fst).Nodup) {j : ℕ} {r : ρ} {o : ω}
    (h : l[j]? = some (r, o)) {x : ρ × ω} : x ∈ l.eraseIdx j ↔ x ∈ l ∧ x.1 ≠ r := by
  rw [List.mem_eraseIdx_iff_getElem?]
  constructor
  · rintro ⟨i, hne, hi⟩
    refine ⟨List.mem_of_getElem? hi, fun heq => hne ?_⟩
    have hlt : i < (l.map Prod.fst).length := by
      rw [List.length_map]
      exact (List.getElem?_eq_some_iff.mp hi).1
    refine (List.getElem?_inj hlt hnodup).mp ?_
    rw [List.getElem?_map, List.getElem?_map, hi, h, Option.map_some, Option.map_some, heq]
  · rintro ⟨hmem, hne⟩
    obtain ⟨i, hi⟩ := List.mem_iff_getElem?.mp hmem
    refine ⟨i, ?_, hi⟩
    rintro rfl
    exact hne (congrArg Prod.fst (Option.some.inj (hi.symm.trans h)))

theorem Inv.nodup_eraseIdx (h : Inv accepts batches s) (j : ℕ) : ((s.replies.eraseIdx j).map Prod.fst).Nodup :=
  ((List.eraseIdx_sublist _ _).map _).nodup h.replies_nodup

theorem Inv.split_running (h : Inv accepts batches s) (hended : s.ended = none) :
    s.past ++ s.current :: s.later = batches := by
  have hrest : s.rest = s.current :: s.later := if_neg (by rw [hended]; exact nofun)
  rw [← hrest]
  exact h.split

theorem Inv.fail {j : ℕ} {r : ρ} {o : ω} (h : Inv accepts batches s) (hended : s.ended = none)
    (hreply : s.replies[j]? = some (r, o)) (hrefused : ¬accepts r o = true) :
    Inv accepts batches { s with ended := some false, replies := s.replies.eraseIdx j } where
  split := h.split_running hended
  past := h.past
  accepted := h.accepted
  pending := h.pending
  unserved := h.unserved
  served := h.served
  nodup := h.nodup
  fresh := h.fresh
  replies x hx := h.replies x (List.mem_of_mem_eraseIdx hx)
  replies_nodup := h.nodup_eraseIdx j
  refused _ := ⟨(r, o), (h.replies _ (List.mem_of_getElem? hreply)).1, Bool.eq_false_iff.mpr hrefused⟩
  succeeded hended := by cases hended
  waiting hended := by cases hended

section Steps

variable [DecidableEq ρ]

theorem Between.next {batch : Finset ρ} {later : List (Finset ρ)} (h : Between accepts batches s (batch :: later))
    (hdisjoint : batches.Pairwise Disjoint) (hne : batch ≠ ∅) :
    Inv accepts batches { s with current := batch, later, pending := batch, unserved := s.unserved ∪ batch } := by
  have hrunning : ¬s.ended = some true := by
    rw [h.running]
    exact nofun
  have hunserved : s.unserved ∪ batch = batch := by rw [h.unserved, Finset.empty_union]
  have hnew : ∀ x ∈ s.served, x.1 ∉ batch := by
    intro x hx hmem
    obtain ⟨batch', hbatch, hmem'⟩ := h.served x hx
    have hpair := hdisjoint
    rw [← h.split, List.pairwise_append] at hpair
    exact Finset.disjoint_left.mp (hpair.2.2 batch' hbatch batch List.mem_cons_self) hmem' hmem
  exact {
    split := by
      unfold State.rest
      rw [if_neg hrunning]
      exact h.split
    past := h.accepted
    accepted := fun r hr hnot => absurd hr hnot
    pending := Finset.Subset.refl _
    unserved := hunserved.subset
    served := fun x hx => .inr (h.served x hx)
    nodup := h.nodup
    fresh := fun x hx hmem => hnew x hx (hunserved.subset hmem)
    replies := by
      intro x hx
      rw [h.replies] at hx
      cases hx
    replies_nodup := by
      rw [h.replies]
      exact List.nodup_nil
    refused := by
      intro hended
      rw [h.running] at hended
      cases hended
    succeeded := fun hended => absurd hended hrunning
    waiting := fun _ => ⟨hne, fun r hr => .inl (Finset.mem_union_right _ hr)⟩ }

theorem Between.launch {rest : List (Finset ρ)} (h : Between accepts batches s rest)
    (hdisjoint : batches.Pairwise Disjoint) : Inv accepts batches (s.launch rest) := by
  induction rest generalizing s with
  | nil => exact h.finish
  | cons batch later ih =>
    unfold State.launch
    split
    · rename_i hempty
      subst hempty
      exact ih h.skip
    · rename_i hne
      exact h.next hdisjoint hne

theorem inv_start (hdisjoint : batches.Pairwise Disjoint) :
    Inv accepts batches (State.start batches : State ρ ω) := by
  refine Between.launch ⟨rfl, ?_, ?_, List.nodup_nil, rfl, rfl, rfl⟩ hdisjoint
  · exact fun _ h => (nomatch h)
  · exact fun _ h => (nomatch h)

theorem Inv.serve (h : Inv accepts batches s) (r : ρ) (o : ω) : Inv accepts batches (s.step accepts (.serve r o)) := by
  dsimp only [State.step]
  split
  · rename_i hmem
    have hmono : ∀ {r'}, s.Accepted accepts r' → ∃ o', (r', o') ∈ s.served ++ [(r, o)] ∧ accepts r' o' = true := by
      rintro r' ⟨o', hserved, haccepts⟩
      exact ⟨o', List.mem_append_left _ hserved, haccepts⟩
    have hnew : r ∉ s.served.map Prod.fst := by
      intro hserved
      obtain ⟨x, hx, rfl⟩ := List.mem_map.mp hserved
      exact h.fresh x hx hmem
    have hpending := h.unserved hmem
    exact { h with
      past := fun batch hbatch r' hr' => hmono (h.past batch hbatch r' hr')
      accepted := fun r' hr' hnot => hmono (h.accepted r' hr' hnot)
      unserved := (Finset.erase_subset _ _).trans h.unserved
      served := by
        intro x hx
        rcases List.mem_append.mp hx with hx | hx
        · exact h.served x hx
        · rw [List.mem_singleton.mp hx]
          exact .inl (h.pending hpending)
      nodup := by
        rw [List.map_append]
        refine List.nodup_append.mpr ⟨h.nodup, List.nodup_singleton _, ?_⟩
        rintro a ha b hb rfl
        rw [show a = r from List.mem_singleton.mp hb] at ha
        exact hnew ha
      fresh := by
        intro x hx hmem'
        obtain ⟨hne, hunserved⟩ := Finset.mem_erase.mp hmem'
        rcases List.mem_append.mp hx with hx | hx
        · exact h.fresh x hx hunserved
        · rw [List.mem_singleton.mp hx] at hne
          exact hne rfl
      replies := by
        intro x hx
        rcases List.mem_append.mp hx with hx | hx
        · obtain ⟨hserved, hpending'⟩ := h.replies x hx
          exact ⟨List.mem_append_left _ hserved, hpending'⟩
        · rw [List.mem_singleton.mp hx]
          exact ⟨List.mem_append_right _ (List.mem_singleton_self _), hpending⟩
      replies_nodup := by
        rw [List.map_append]
        refine List.nodup_append.mpr ⟨h.replies_nodup, List.nodup_singleton _, ?_⟩
        rintro a ha b hb rfl
        obtain ⟨x, hx, heq⟩ := List.mem_map.mp ha
        refine hnew (List.mem_map.mpr ⟨x, (h.replies x hx).1, ?_⟩)
        exact heq.trans (List.mem_singleton.mp hb)
      refused := by
        intro hended
        obtain ⟨x, hx, hrefused⟩ := h.refused hended
        exact ⟨x, List.mem_append_left _ hx, hrefused⟩
      waiting := by
        intro hended
        obtain ⟨hne, hwaiting⟩ := h.waiting hended
        refine ⟨hne, fun r' hr' => ?_⟩
        rw [List.map_append, List.mem_append]
        by_cases heq : r' = r
        · exact .inr (.inr (heq ▸ List.mem_singleton_self r))
        · rcases hwaiting r' hr' with hunserved | hreply
          · exact .inl (Finset.mem_erase.mpr ⟨heq, hunserved⟩)
          · exact .inr (.inl hreply) }
  · exact h

section Receive

variable {j : ℕ} {r : ρ} {o : ω}

theorem Inv.unserved_erase (h : Inv accepts batches s) (hreply : s.replies[j]? = some (r, o)) :
    s.unserved ⊆ s.pending.erase r := by
  intro r' hr'
  refine Finset.mem_erase.mpr ⟨?_, h.unserved hr'⟩
  rintro rfl
  exact h.fresh (r', o) (h.replies _ (List.mem_of_getElem? hreply)).1 hr'

theorem Inv.replies_erase (h : Inv accepts batches s) (hreply : s.replies[j]? = some (r, o)) :
    ∀ x ∈ s.replies.eraseIdx j, x ∈ s.served ∧ x.1 ∈ s.pending.erase r := by
  intro x hx
  obtain ⟨hmem, hne⟩ := (mem_eraseIdx_iff h.replies_nodup hreply).mp hx
  obtain ⟨hserved, hpending⟩ := h.replies x hmem
  exact ⟨hserved, Finset.mem_erase.mpr ⟨hne, hpending⟩⟩

theorem Inv.accepted_erase (h : Inv accepts batches s) (hreply : s.replies[j]? = some (r, o))
    (haccepts : accepts r o = true) : ∀ r' ∈ s.current, r' ∉ s.pending.erase r → s.Accepted accepts r' := by
  intro r' hr' hnot
  by_cases heq : r' = r
  · exact heq ▸ ⟨o, (h.replies _ (List.mem_of_getElem? hreply)).1, haccepts⟩
  · exact h.accepted r' hr' fun hmem => hnot (Finset.mem_erase.mpr ⟨heq, hmem⟩)

theorem Inv.complete (h : Inv accepts batches s) (hended : s.ended = none) (hreply : s.replies[j]? = some (r, o))
    (haccepts : accepts r o = true) (hempty : s.pending.erase r = ∅) :
    Between accepts batches
      { s with past := s.past ++ [s.current], pending := ∅, replies := s.replies.eraseIdx j } s.later where
  split := (List.append_assoc _ _ _).trans (h.split_running hended)
  accepted batch hbatch r' hr' := by
    rcases List.mem_append.mp hbatch with hbatch | hbatch
    · exact h.past batch hbatch r' hr'
    · rw [List.mem_singleton.mp hbatch] at hr'
      refine h.accepted_erase hreply haccepts r' hr' ?_
      rw [hempty]
      exact Finset.notMem_empty _
  served x hx := by
    rcases h.served x hx with hcurrent | ⟨batch, hbatch, hx⟩
    · exact ⟨s.current, List.mem_append_right _ (List.mem_singleton_self _), hcurrent⟩
    · exact ⟨batch, List.mem_append_left _ hbatch, hx⟩
  nodup := h.nodup
  unserved := Finset.subset_empty.mp (hempty ▸ h.unserved_erase hreply)
  replies := by
    refine List.eq_nil_iff_forall_not_mem.mpr fun x hx => ?_
    have hmem := (h.replies_erase hreply x hx).2
    rw [hempty] at hmem
    exact Finset.notMem_empty _ hmem
  running := hended

theorem Inv.progress (h : Inv accepts batches s) (hended : s.ended = none) (hreply : s.replies[j]? = some (r, o))
    (haccepts : accepts r o = true) (hne : s.pending.erase r ≠ ∅) :
    Inv accepts batches { s with pending := s.pending.erase r, replies := s.replies.eraseIdx j } where
  split := h.split
  past := h.past
  accepted := h.accepted_erase hreply haccepts
  pending := (Finset.erase_subset _ _).trans h.pending
  unserved := h.unserved_erase hreply
  served := h.served
  nodup := h.nodup
  fresh := h.fresh
  replies := h.replies_erase hreply
  replies_nodup := h.nodup_eraseIdx j
  refused := h.refused
  succeeded := h.succeeded
  waiting _ := by
    refine ⟨hne, fun r' hr' => ?_⟩
    obtain ⟨hne', hpending⟩ := Finset.mem_erase.mp hr'
    rcases (h.waiting hended).2 r' hpending with hunserved | hreply'
    · exact .inl hunserved
    · obtain ⟨x, hx, rfl⟩ := List.mem_map.mp hreply'
      exact .inr (List.mem_map_of_mem ((mem_eraseIdx_iff h.replies_nodup hreply).mpr ⟨hx, hne'⟩))

theorem Inv.receive (h : Inv accepts batches s) (hdisjoint : batches.Pairwise Disjoint) (j : ℕ) :
    Inv accepts batches (s.step accepts (.receive j)) := by
  dsimp only [State.step]
  split
  · rename_i r o hended hreply
    unfold State.received
    split
    · rename_i haccepts
      split
      · rename_i hempty
        exact (h.complete hended hreply haccepts hempty).launch hdisjoint
      · rename_i hne
        exact h.progress hended hreply haccepts hne
    · rename_i hrefused
      exact h.fail hended hreply hrefused
  · exact h

end Receive

theorem Inv.step (h : Inv accepts batches s) (hdisjoint : batches.Pairwise Disjoint) (e : Event ρ ω) :
    Inv accepts batches (s.step accepts e) := by
  cases e with
  | serve r o => exact h.serve r o
  | receive j => exact h.receive hdisjoint j

theorem served_launch (s : State ρ ω) (rest : List (Finset ρ)) : (s.launch rest).served = s.served := by
  induction rest generalizing s with
  | nil => rfl
  | cons batch later ih =>
    unfold State.launch
    split
    · exact ih _
    · rfl

theorem mem_served_step {e : Event ρ ω} {x : ρ × ω} (hx : x ∈ (s.step accepts e).served) :
    x ∈ s.served ∨ e = .serve x.1 x.2 ∧ x.1 ∈ s.unserved := by
  cases e with
  | serve r o =>
    dsimp only [State.step] at hx
    split at hx
    · rename_i hmem
      rcases List.mem_append.mp hx with hx | hx
      · exact .inl hx
      · rw [List.mem_singleton.mp hx]
        exact .inr ⟨rfl, hmem⟩
    · exact .inl hx
  | receive j =>
    refine .inl ?_
    dsimp only [State.step] at hx
    split at hx
    · unfold State.received at hx
      split at hx
      · split at hx
        · rwa [served_launch] at hx
        · exact hx
      · exact hx
    · exact hx

end Steps

/-! ### What an end says -/

section Ends

variable (h : Inv accepts batches s)

include h

theorem Inv.sent {x : ρ × ω} (hx : x ∈ s.served) :
    (∃ batch ∈ s.past, x.1 ∈ batch) ∨ s.rest = s.current :: s.later ∧ x.1 ∈ s.current := by
  rcases h.served x hx with hcurrent | hpast
  · refine .inr ⟨if_neg fun hended => ?_, hcurrent⟩
    rw [h.succeeded hended] at hcurrent
    exact Finset.notMem_empty _ hcurrent
  · exact .inl hpast

theorem Inv.exists_batch {x : ρ × ω} (hx : x ∈ s.served) : ∃ batch ∈ batches, x.1 ∈ batch := by
  rcases h.sent hx with ⟨batch, hbatch, hmem⟩ | ⟨hrest, hmem⟩
  · exact ⟨batch, h.split ▸ List.mem_append_left _ hbatch, hmem⟩
  · refine ⟨s.current, h.split ▸ List.mem_append_right _ ?_, hmem⟩
    rw [hrest]
    exact List.mem_cons_self

/-- A batch is sent when those before it have been answered well. -/
theorem Inv.ordered (hdisjoint : batches.Pairwise Disjoint) {before after : List (Finset ρ)} {batch : Finset ρ}
    (heq : batches = before ++ batch :: after) {x : ρ × ω} (hx : x ∈ s.served) (hmem : x.1 ∈ batch) :
    ∀ batch' ∈ before, ∀ r ∈ batch', s.Accepted accepts r := by
  rw [heq, List.pairwise_append] at hdisjoint
  have hnot : ∀ batch' ∈ before, x.1 ∉ batch' := fun batch' hbatch hmem' =>
    Finset.disjoint_left.mp (hdisjoint.2.2 batch' hbatch batch List.mem_cons_self) hmem' hmem
  rcases List.append_eq_append_iff.mp (h.split.trans heq) with ⟨between, rfl, hrest⟩ | ⟨between, hpast, -⟩
  · -- Were there a batch between, it would be the current one.
    cases between with
    | nil =>
      rw [List.append_nil]
      exact h.past
    | cons batch' between =>
      exfalso
      rcases h.sent hx with ⟨batch'', hbatch, hmem'⟩ | ⟨hcurrent, hmem'⟩
      · exact hnot batch'' (List.mem_append_left _ hbatch) hmem'
      · rw [hcurrent, List.cons_append] at hrest
        rw [(List.cons.inj hrest).1] at hmem'
        exact hnot batch' (List.mem_append_right _ List.mem_cons_self) hmem'
  · exact fun batch' hbatch => h.past batch' (hpast ▸ List.mem_append_left _ hbatch)

theorem Inv.accepted_of_succeeded (hended : s.ended = some true) :
    ∀ batch ∈ batches, ∀ r ∈ batch, s.Accepted accepts r := by
  have hsplit : s.past = batches := by
    have hrest : s.rest = [] := if_pos hended
    have hsplit := h.split
    rwa [hrest, List.append_nil] at hsplit
  exact hsplit ▸ h.past

theorem Inv.ended_of_idle (hunserved : s.unserved = ∅) (hreplies : s.replies = []) : s.ended ≠ none := by
  intro hended
  obtain ⟨hne, hwaiting⟩ := h.waiting hended
  obtain ⟨r, hr⟩ := Finset.nonempty_of_ne_empty hne
  rcases hwaiting r hr with hmem | hmem
  · rw [hunserved] at hmem
    exact Finset.notMem_empty _ hmem
  · rw [hreplies] at hmem
    cases hmem

end Ends

end Gather
