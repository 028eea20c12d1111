import Mathlib.Data.List.Sort

/-!
# Paged listings, newest first

A server keeps rows with a linearly ordered key and answers a query for the keys in `(since, max]` with
the greatest keys first, at most `count` of them. `page` is that answer. What a client can conclude from
one is in `mem_page_or_below`: a row of the range that is not on the page is below everything on it.
-/

namespace Listing

variable {α κ : Type*} [LinearOrder κ] (key : α → κ)

/-- The rows a query asks for, an absent bound being no bound. -/
def Within (since max : Option κ) (a : α) : Prop :=
  (∀ k ∈ since, k < key a) ∧ ∀ k ∈ max, key a ≤ k

instance (since max : Option κ) (a : α) : Decidable (Within key since max a) :=
  inferInstanceAs (Decidable (_ ∧ _))

/-- The rows with the greatest keys first. -/
def newest (l : List α) : List α := l.insertionSort fun a b => key b ≤ key a

/-- The rows of `l` that a query asks for. -/
def matching (since max : Option κ) (l : List α) : List α :=
  l.filter fun a => decide (Within key since max a)

def page (count : ℕ) (since max : Option κ) (l : List α) : List α :=
  (newest key (matching key since max l)).take count

variable {key} {count : ℕ} {since max : Option κ} {l : List α} {a b : α}

@[simp] theorem mem_matching : a ∈ matching key since max l ↔ a ∈ l ∧ Within key since max a := by
  simp [matching]

@[simp] theorem mem_newest : a ∈ newest key l ↔ a ∈ l := List.mem_insertionSort _

@[simp] theorem length_newest : (newest key l).length = l.length := List.length_insertionSort _ _

variable (key) in
theorem newest_sorted (l : List α) : (newest key l).Pairwise fun a b => key b ≤ key a := by
  have : Std.Total fun a b : α => key b ≤ key a := ⟨fun a b => le_total (key b) (key a)⟩
  have : IsTrans α fun a b => key b ≤ key a := ⟨fun a b c hab hbc => hbc.trans hab⟩
  exact List.pairwise_insertionSort _ l

variable (key count since max l) in
theorem page_sorted : (page key count since max l).Pairwise fun a b => key b ≤ key a :=
  (newest_sorted _ _).sublist (List.take_sublist _ _)

theorem of_mem_page (h : a ∈ page key count since max l) : a ∈ l ∧ Within key since max a := by
  have hmem := List.mem_of_mem_take h
  rwa [mem_newest, mem_matching] at hmem

/-- A page that is not full holds every row that was asked for. -/
theorem mem_page_of_length_le (h : (matching key since max l).length ≤ count) :
    a ∈ page key count since max l ↔ a ∈ l ∧ Within key since max a := by
  rw [page, List.take_of_length_le (by rwa [length_newest]), mem_newest, mem_matching]

variable (count) in
/-- A row that was asked for is on the page, or below everything on it. -/
theorem mem_page_or_below (hmem : a ∈ l) (ha : Within key since max a) :
    a ∈ page key count since max l ∨ ∀ b ∈ page key count since max l, key a ≤ key b := by
  have hnew : a ∈ newest key (matching key since max l) := by
    rw [mem_newest, mem_matching]
    exact ⟨hmem, ha⟩
  have hsplit := newest_sorted key (matching key since max l)
  rw [← List.take_append_drop count (newest key _)] at hnew hsplit
  rcases List.mem_append.mp hnew with h | h
  · exact Or.inl h
  · exact Or.inr fun b hb => (List.pairwise_append.mp hsplit).2.2 b hb a h

/-- A row that was asked for is on the page, or not above the last one on it. -/
theorem mem_page_or_last (hcount : 0 < count) (hmem : a ∈ l) (ha : Within key since max a) :
    a ∈ page key count since max l ∨
      ∃ last, (page key count since max l).getLast? = some last ∧ key a ≤ key last := by
  rcases mem_page_or_below count hmem ha with hpage | hbelow
  · exact Or.inl hpage
  · cases hlast : (page key count since max l).getLast? with
    | some last => exact Or.inr ⟨last, rfl, hbelow last (List.mem_of_getLast? hlast)⟩
    | none =>
      have hnil : newest key (matching key since max l) = [] := by
        rw [List.getLast?_eq_none_iff, page, List.take_eq_nil_iff] at hlast
        exact hlast.resolve_left hcount.ne'
      have hnew : a ∈ newest key (matching key since max l) := by
        rw [mem_newest, mem_matching]
        exact ⟨hmem, ha⟩
      rw [hnil] at hnew
      cases hnew

/-- A row above fewer than `count` rows is on the page, however far down the query asks. -/
theorem mem_page_of_few {k : κ} (hfew : (l.filter fun b => decide (k < key b)).length < count) (hmem : a ∈ l)
    (ha : Within key since max a) (hk : k < key a) : a ∈ page key count since max l := by
  rcases mem_page_or_below count hmem ha with hpage | hbelow
  · exact hpage
  · by_cases hfull : (matching key since max l).length ≤ count
    · exact (mem_page_of_length_le hfull).mpr ⟨hmem, ha⟩
    · have hlength : (page key count since max l).length = count := by
        rw [page, List.length_take, length_newest]
        omega
      have habove : (page key count since max l).filter (fun b => decide (k < key b)) =
          page key count since max l :=
        List.filter_eq_self.mpr fun b hb => decide_eq_true (hk.trans_le (hbelow b hb))
      have hle : (page key count since max l).length ≤
          ((newest key (matching key since max l)).filter fun b => decide (k < key b)).length := by
        rw [← habove]
        exact ((List.take_sublist _ _).filter _).length_le
      have hperm := (List.perm_insertionSort (fun a b => key b ≤ key a) (matching key since max l)).filter
        fun b => decide (k < key b)
      have hsub := (List.filter_sublist (p := fun a => decide (Within key since max a)) (l := l)).filter
        fun b => decide (k < key b)
      have hcount : count ≤ (l.filter fun b => decide (k < key b)).length :=
        hlength ▸ hle.trans (hperm.length_eq.le.trans hsub.length_le)
      omega

/-! ### Segments -/

variable (key) in
/-- A part of the rows without gaps: what lies between two of its rows belongs to it. -/
structure Segment (l part : List α) : Prop where
  subset : ∀ a ∈ part, a ∈ l
  between : ∀ a ∈ part, ∀ b ∈ part, ∀ x ∈ l, key a ≤ key x → key x ≤ key b → x ∈ part

theorem Segment.nil : Segment key l [] := ⟨by simp, by simp⟩

/-- A page has no gaps. -/
theorem segment_page (hinj : ∀ a ∈ l, ∀ b ∈ l, key a = key b → a = b) :
    Segment key l (page key count since max l) where
  subset := fun a ha => (of_mem_page ha).1
  between := by
    intro a ha b hb x hx hax hxb
    obtain ⟨hmema, hsince, -⟩ := of_mem_page ha
    obtain ⟨-, -, hmax⟩ := of_mem_page hb
    have hwithin : Within key since max x :=
      ⟨fun k hk => (hsince k hk).trans_le hax, fun k hk => hxb.trans (hmax k hk)⟩
    rcases mem_page_or_below count hx hwithin with hpage | hbelow
    · exact hpage
    · rwa [hinj x hx a hmema (le_antisymm (hbelow a ha) hax)]

/-- A new row above all others does not open a gap. -/
theorem Segment.cons {part : List α} (h : Segment key l part) (hnew : ∀ b ∈ l, key b < key a) :
    Segment key (a :: l) part where
  subset := fun b hb => List.mem_cons_of_mem a (h.subset b hb)
  between := by
    intro b hb c hc x hx hbx hxc
    rcases List.mem_cons.mp hx with rfl | hx
    · exact absurd (hnew c (h.subset c hc)) (not_lt.mpr hxc)
    · exact h.between b hb c hc x hx hbx hxc

/-! ### Page after page -/

variable (key) in
/-- An answer to a query by pages of any size: the rows with the greatest keys, and none only if there are
none. -/
structure Answer (since max : Option κ) (l part : List α) : Prop where
  sorted : part.Pairwise fun a b => key b < key a
  within : ∀ a ∈ part, a ∈ l ∧ Within key since max a
  rest : ∀ a ∈ l, Within key since max a → a ∈ part ∨ ∀ b ∈ part, key a < key b
  nonempty : part = [] → ∀ a ∈ l, ¬ Within key since max a

/-- A page of at least one row is an answer where the keys tell the rows apart. -/
theorem answer_page (hcount : 0 < count) (hnodup : (l.map key).Nodup) :
    Answer key since max l (page key count since max l) where
  sorted := by
    have hsub : (page key count since max l).Sublist (newest key (matching key since max l)) := List.take_sublist _ _
    have hperm : (newest key (matching key since max l)).Perm (matching key since max l) :=
      List.perm_insertionSort _ _
    have hkeys : ((page key count since max l).map key).Nodup := by
      refine List.Nodup.sublist (hsub.map key) ((hperm.map key).nodup_iff.mpr ?_)
      exact hnodup.sublist (List.filter_sublist.map key)
    refine (page_sorted key count since max l).imp₂ ?_ (List.pairwise_map.mp hkeys)
    exact fun a b hle hne => lt_of_le_of_ne hle (Ne.symm hne)
  within := fun a ha => of_mem_page ha
  rest := by
    intro a ha hwithin
    by_cases hpage : a ∈ page key count since max l
    · exact .inl hpage
    · refine .inr fun b hb => lt_of_le_of_ne ?_ fun heq => ?_
      · exact (mem_page_or_below count ha hwithin).resolve_left hpage b hb
      · exact hpage (List.inj_on_of_nodup_map hnodup ha (of_mem_page hb).1 heq ▸ hb)
  nonempty := by
    intro hnil a ha hwithin
    rcases mem_page_or_last hcount ha hwithin with hpage | ⟨last, hlast, -⟩
    · rw [hnil] at hpage
      cases hpage
    · rw [hnil] at hlast
      cases hlast

variable (key) in
/-- The rows at a later time: those of `l`, and new ones above them. -/
structure Later (l l' : List α) : Prop where
  kept : ∀ a ∈ l, a ∈ l'
  above : ∀ a ∈ l', a ∈ l ∨ ∀ b ∈ l, key b < key a

theorem Later.refl : Later key l l := ⟨fun _ => id, fun _ => .inl⟩

variable (key) in
/-- What is got of the rows of `l` above `low` when those up to `max` are still to be asked for. -/
structure Gathered (low : κ) (max : Option κ) (l got : List α) : Prop where
  first : max = none → got = []
  sorted : got.Pairwise fun a b => key b < key a
  mem : ∀ a ∈ got, a ∈ l ∧ low < key a
  above : ∀ k ∈ max, got ≠ [] ∧ ∀ a ∈ got, k < key a
  rest : ∀ a ∈ l, low < key a → a ∈ got ∨ ∀ k ∈ max, key a ≤ k

section Gathered

variable {low : κ} {got part l' : List α}

theorem Gathered.nil : Gathered key low none l [] := ⟨fun _ => rfl, .nil, by simp, by simp, by simp⟩

/-- Rows that have come meanwhile are not asked for. -/
theorem Gathered.of_later (h : Gathered key low max l got) (hlater : Later key l l')
    (hfirst : max = none → l' = l) (ha : a ∈ l') (hwithin : Within key (some low) max a) : a ∈ l := by
  cases max with
  | none => exact hfirst rfl ▸ ha
  | some k =>
    obtain ⟨hne, habove⟩ := h.above k rfl
    obtain ⟨b, hb⟩ := List.exists_mem_of_ne_nil got hne
    refine (hlater.above a ha).resolve_right fun hnew => ?_
    have hlt : k < key a := (habove b hb).trans (hnew b (h.mem b hb).1)
    exact absurd (hwithin.2 k rfl) (not_le.mpr hlt)

theorem Gathered.append (h : Gathered key low max l got) (hlater : Later key l l') (hfirst : max = none → l' = l)
    (hanswer : Answer key (some low) max l' part) {last : α} (hlast : part.getLast? = some last) {k : κ}
    (hk : ∀ x, low < x → (x ≤ k ↔ x < key last)) (hklast : k < key last) :
    Gathered key low (some k) l (got ++ part) := by
  have hmem : last ∈ part := List.mem_of_getLast? hlast
  have hle : ∀ a ∈ part, key last ≤ key a := by
    intro a ha
    obtain ⟨init, rfl⟩ := List.getLast?_eq_some_iff.mp hlast
    rcases List.mem_append.mp ha with hinit | heq
    · exact ((List.pairwise_append.mp hanswer.sorted).2.2 a hinit last (by simp)).le
    · rw [List.mem_singleton.mp heq]
  have hcross : ∀ a ∈ got, ∀ b ∈ part, key b < key a := by
    intro a ha b hb
    obtain ⟨-, hwithin⟩ := hanswer.within b hb
    cases max with
    | none =>
      rw [h.first rfl] at ha
      cases ha
    | some k' => exact (hwithin.2 k' rfl).trans_lt ((h.above k' rfl).2 a ha)
  refine ⟨nofun, List.pairwise_append.mpr ⟨h.sorted, hanswer.sorted, hcross⟩, ?_, ?_, ?_⟩
  · intro a ha
    rcases List.mem_append.mp ha with hgot | hpart
    · exact h.mem a hgot
    · obtain ⟨ha', hwithin⟩ := hanswer.within a hpart
      exact ⟨h.of_later hlater hfirst ha' hwithin, hwithin.1 low rfl⟩
  · rintro _ ⟨⟩
    refine ⟨fun hnil => ?_, fun a ha => ?_⟩
    · rw [(List.append_eq_nil_iff.mp hnil).2] at hmem
      cases hmem
    rcases List.mem_append.mp ha with hgot | hpart
    · exact hklast.trans (hcross a hgot last hmem)
    · exact hklast.trans_le (hle a hpart)
  · intro a ha hlow
    by_cases hgot : a ∈ got
    · exact .inl (List.mem_append_left _ hgot)
    · have hwithin : Within key (some low) max a :=
        ⟨fun k hk => by cases hk; exact hlow, (h.rest a ha hlow).resolve_left hgot⟩
      rcases hanswer.rest a (hlater.kept a ha) hwithin with hpart | hbelow
      · exact .inl (List.mem_append_right _ hpart)
      · refine .inr ?_
        rintro _ ⟨⟩
        exact (hk (key a) hlow).mpr (hbelow last hmem)

theorem Gathered.complete (h : Gathered key low max l got) (hlater : Later key l l')
    (hanswer : Answer key (some low) max l' []) : a ∈ got ↔ a ∈ l ∧ low < key a := by
  refine ⟨h.mem a, fun ⟨ha, hlow⟩ => ?_⟩
  refine (h.rest a ha hlow).resolve_right fun hmax => ?_
  exact hanswer.nonempty rfl a (hlater.kept a ha) ⟨fun k hk => by cases hk; exact hlow, hmax⟩

theorem Gathered.length_le (h : Gathered key low max l got) : got.length ≤ l.length := by
  have hnodup : got.Nodup := h.sorted.imp fun hlt heq => hlt.ne (congrArg key heq.symm)
  exact (List.subperm_of_subset hnodup fun a ha => (h.mem a ha).1).length_le

end Gathered

end Listing
