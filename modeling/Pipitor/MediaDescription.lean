import Pipitor.Feed

/-!
# The precedence of media descriptions

Which `media:description` is taken for the summary of an entry. `take_eq` is the search without its early
returns: the first list of `content` elements that gives something, then the first description in a group, then
the first in the entry. In a list of `content` elements the first one that has a `description` decides, with or
without a value, and `follows_iff` says what this means for the precedence.
-/

namespace Pipitor.MediaDescription

/-! ### The descriptions of an entry -/

/-- The children with a name. -/
def named (name : String) (children : List (String × List Extension)) : List Extension :=
  (children.filter fun c => c.1 = name).flatMap (·.2)

def values (elms : List Extension) : List String := elms.filterMap (·.value)

def isMedia (namespaces : Namespaces) (key : String) : Bool :=
  (namespaces.find? (·.1 = key)).any (·.2 = nsMrss)

/-- The children of the entry whose prefix is bound to Media RSS. -/
def elements (extensions : Extensions) (namespaces : Namespaces) : List (String × List Extension) :=
  (extensions.filter fun e => isMedia namespaces e.1).flatMap (·.2)

/-- The `content` elements among the children, a list for each of the entries that hold them. -/
def contents (children : List (String × List Extension)) : List (List Extension) :=
  (children.filter fun c => c.1 = "content").map (·.2)

/-- The lists of `content` elements directly in the entry and in its groups. -/
def contentLists (children : List (String × List Extension)) : List (List Extension) :=
  children.flatMap fun c =>
    if c.1 = "content" then [c.2] else if c.1 = "group" then c.2.flatMap fun elm => contents elm.children else []

/-- The descriptions in one list of `content` elements. -/
def describedBy (elms : List Extension) : List String :=
  values (elms.flatMap fun elm => named "description" elm.children)

def contentLevel (extensions : Extensions) (namespaces : Namespaces) : List String :=
  (contentLists (elements extensions namespaces)).flatMap describedBy

def groupLevel (extensions : Extensions) (namespaces : Namespaces) : List String :=
  values ((named "group" (elements extensions namespaces)).flatMap fun elm => named "description" elm.children)

def entryLevel (extensions : Extensions) (namespaces : Namespaces) : List String :=
  values (named "description" (elements extensions namespaces))

/-- The first description of a group or, where no group has one, of the entry. -/
def fallback (extensions : Extensions) (namespaces : Namespaces) : Option String :=
  (groupLevel extensions namespaces).head? <|> (entryLevel extensions namespaces).head?

/-- A description of a `content` goes before those of the groups, and these before those of the entry. -/
structure Follows (extensions : Extensions) (namespaces : Namespaces) : Prop where
  content : contentLevel extensions namespaces ≠ [] →
    ∃ v ∈ contentLevel extensions namespaces, take extensions namespaces = some v
  other : contentLevel extensions namespaces = [] →
    take extensions namespaces = fallback extensions namespaces
  none : take extensions namespaces = none ↔ contentLevel extensions namespaces = [] ∧
    groupLevel extensions namespaces = [] ∧ entryLevel extensions namespaces = []

/-- The first element that has a `description` has a value in it. -/
def Leads (elms : List Extension) : Prop :=
  ∃ before elm after, elms = before ++ elm :: after ∧
    (∀ e ∈ before, ∀ c ∈ e.children, c.1 ≠ "description") ∧
      ∃ name ds, elm.children.find? (·.1 = "description") = some (name, ds) ∧ values ds ≠ []

/-! ### A search that keeps what it has found -/

/-- What a part of the search makes of what was found: a description of a `content` ends it, the first
descriptions of the entry and of a group are kept. -/
def outcome (lead entry group : Option String) (found : Found) : Except String Found :=
  match lead with
  | some v => .error v
  | none => .ok ⟨found.entry <|> entry, found.group <|> group⟩

theorem foldlM_outcome {α : Type} {f : Found → α → Except String Found} (lead entry group : α → Option String)
    (hf : ∀ found a, f found a = outcome (lead a) (entry a) (group a) found) (l : List α) (found : Found) :
    l.foldlM f found = outcome (l.findSome? lead) (l.findSome? entry) (l.findSome? group) found := by
  induction l generalizing found with
  | nil =>
    obtain ⟨e, g⟩ := found
    simp [outcome]
    rfl
  | cons a l ih =>
    rw [List.foldlM_cons, hf]
    cases hlead : lead a with
    | some v =>
      rw [List.findSome?_cons, hlead]
      rfl
    | none =>
      have hnext : (outcome none (entry a) (group a) found >>= fun found => l.foldlM f found) =
          l.foldlM f ⟨found.entry <|> entry a, found.group <|> group a⟩ := rfl
      rw [hnext, ih, List.findSome?_cons, hlead]
      unfold outcome
      cases l.findSome? lead with
      | some v => rfl
      | none =>
        dsimp only
        congr 2
        · rw [List.findSome?_cons]
          cases found.entry <;> cases entry a <;> rfl
        · rw [List.findSome?_cons]
          cases found.group <;> cases group a <;> rfl

theorem findSome?_flatMap {α β γ : Type} (f : α → List β) (g : β → Option γ) (l : List α) :
    (l.flatMap f).findSome? g = l.findSome? fun a => (f a).findSome? g := by
  induction l with
  | nil => rfl
  | cons a l ih =>
    rw [List.flatMap_cons, List.findSome?_append, ih, List.findSome?_cons]
    cases (f a).findSome? g <;> rfl

theorem findSome?_filter {α β : Type} (p : α → Bool) (g : α → Option β) (l : List α) :
    (l.filter p).findSome? g = l.findSome? fun a => if p a then g a else none := by
  induction l with
  | nil => rfl
  | cons a l ih =>
    rw [List.filter_cons, List.findSome?_cons]
    by_cases h : p a = true
    · rw [if_pos h, if_pos h, List.findSome?_cons, ih]
    · rw [if_neg h, if_neg h, ih]

theorem findSome?_none {α β : Type} (l : List α) : (l.findSome? fun _ => (none : Option β)) = none :=
  List.findSome?_eq_none_iff.mpr fun _ _ => rfl

theorem head?_values (elms : List Extension) : (values elms).head? = takeDescription elms :=
  List.head?_filterMap

/-! ### The parts of the search -/

/-- What a child of a group ends the search with. -/
def groupLead (c : String × List Extension) : Option String :=
  if c.1 = "content" then takeContentDescription c.2 else none

/-- The description that is kept of a child with this name. -/
def described (name : String) (c : String × List Extension) : Option String :=
  if c.1 = name then takeDescription c.2 else none

def lead (c : String × List Extension) : Option String :=
  if c.1 = "content" then takeContentDescription c.2
  else if c.1 = "group" then c.2.findSome? fun elm => elm.children.findSome? groupLead else none

def grouped (c : String × List Extension) : Option String :=
  if c.1 = "group" then c.2.findSome? fun elm => elm.children.findSome? (described "description") else none

theorem visitGroupChild_eq (found : Found) (c : String × List Extension) :
    visitGroupChild found c = outcome (groupLead c) none (described "description" c) found := by
  obtain ⟨name, elms⟩ := c
  obtain ⟨entry, group⟩ := found
  unfold visitGroupChild groupLead described outcome
  by_cases hdescription : name = "description"
  · simp [hdescription]
  · by_cases hcontent : name = "content"
    · simp only [if_neg hdescription, if_pos hcontent]
      cases takeContentDescription elms <;> simp
    · simp [hdescription, hcontent]

theorem visitChild_eq (found : Found) (c : String × List Extension) :
    visitChild found c = outcome (lead c) (described "description" c) (grouped c) found := by
  obtain ⟨name, elms⟩ := c
  obtain ⟨entry, group⟩ := found
  unfold visitChild lead described grouped
  by_cases hdescription : name = "description"
  · simp [hdescription, outcome]
  by_cases hcontent : name = "content"
  · simp only [if_neg hdescription, if_pos hcontent]
    cases takeContentDescription elms <;> simp [outcome, hcontent]
  by_cases hgroup : name = "group"
  · simp only [if_neg hdescription, if_neg hcontent, if_pos hgroup]
    -- the group's elements, and for each of them its children
    refine (foldlM_outcome (fun elm : Extension => elm.children.findSome? groupLead) (fun _ => none)
      (fun elm => elm.children.findSome? (described "description")) (fun found elm => ?_) elms _).trans ?_
    · rw [foldlM_outcome groupLead (fun _ => none) (described "description") visitGroupChild_eq, findSome?_none]
    · rw [findSome?_none]
  · simp [hdescription, hcontent, hgroup, outcome]

theorem take_eq (extensions : Extensions) (namespaces : Namespaces) : take extensions namespaces =
    ((elements extensions namespaces).findSome? lead <|>
      (elements extensions namespaces).findSome? grouped <|>
        (elements extensions namespaces).findSome? (described "description")) := by
  have hvisit : ∀ found e, visit namespaces found e = outcome
      (if isMedia namespaces e.1 then e.2.findSome? lead else none)
      (if isMedia namespaces e.1 then e.2.findSome? (described "description") else none)
      (if isMedia namespaces e.1 then e.2.findSome? grouped else none) found := by
    rintro ⟨entry, group⟩ ⟨key, map⟩
    unfold visit
    change (if isMedia namespaces key = true then _ else _) = _
    by_cases h : isMedia namespaces key = true
    · simp only [if_pos h]
      exact foldlM_outcome lead (described "description") grouped visitChild_eq map _
    · simp only [if_neg h]
      simp [outcome]
  unfold take elements
  rw [foldlM_outcome _ _ _ hvisit]
  simp only [findSome?_flatMap, findSome?_filter]
  unfold outcome
  cases extensions.findSome? fun e => if isMedia namespaces e.1 then e.2.findSome? lead else none with
  | some v => rfl
  | none => simp

/-! ### The levels -/

theorem takeDescription_named (name : String) (children : List (String × List Extension)) :
    takeDescription (named name children) = children.findSome? (described name) := by
  unfold takeDescription named described
  rw [findSome?_flatMap, findSome?_filter]
  simp only [decide_eq_true_eq]
  rfl

theorem head?_entryLevel (extensions : Extensions) (namespaces : Namespaces) :
    (entryLevel extensions namespaces).head? =
      (elements extensions namespaces).findSome? (described "description") := by
  unfold entryLevel
  rw [head?_values, takeDescription_named]

theorem head?_groupLevel (extensions : Extensions) (namespaces : Namespaces) :
    (groupLevel extensions namespaces).head? = (elements extensions namespaces).findSome? grouped := by
  unfold groupLevel grouped
  rw [head?_values]
  unfold takeDescription
  rw [findSome?_flatMap]
  unfold named
  rw [findSome?_flatMap, findSome?_filter]
  simp only [decide_eq_true_eq]
  congr 1
  funext c
  congr 1
  congr 1
  funext elm
  exact takeDescription_named "description" elm.children

theorem findSome?_lead (children : List (String × List Extension)) :
    children.findSome? lead = (contentLists children).findSome? takeContentDescription := by
  unfold contentLists
  rw [findSome?_flatMap]
  congr 1
  funext c
  unfold lead
  by_cases hcontent : c.1 = "content"
  · simp only [if_pos hcontent]
    simp
  by_cases hgroup : c.1 = "group"
  · simp only [if_neg hcontent, if_pos hgroup]
    rw [findSome?_flatMap]
    congr 1
    funext elm
    unfold contents groupLead
    rw [List.findSome?_map, findSome?_filter]
    simp only [decide_eq_true_eq]
    rfl
  · simp [hcontent, hgroup]

/-! ### The first element with a description -/

theorem takeContentDescription_cons_of_ne {elm : Extension} (elms : List Extension)
    (h : ∀ c ∈ elm.children, c.1 ≠ "description") :
    takeContentDescription (elm :: elms) = takeContentDescription elms := by
  have hnone : elm.children.find? (·.1 = "description") = none :=
    List.find?_eq_none.mpr fun c hc => by simpa using h c hc
  rw [takeContentDescription, hnone]

theorem takeContentDescription_cons_of_find {elm : Extension} (elms : List Extension) {name : String}
    {ds : List Extension} (h : elm.children.find? (·.1 = "description") = some (name, ds)) :
    takeContentDescription (elm :: elms) = takeDescription ds := by
  rw [takeContentDescription, h]

theorem isSome_takeContentDescription_iff (elms : List Extension) :
    (takeContentDescription elms).isSome ↔ Leads elms := by
  induction elms with
  | nil => simp [takeContentDescription, Leads]
  | cons elm elms ih =>
    cases hfind : elm.children.find? (·.1 = "description") with
    | none =>
      have hne : ∀ c ∈ elm.children, c.1 ≠ "description" := fun c hc => by
        simpa using List.find?_eq_none.mp hfind c hc
      rw [takeContentDescription_cons_of_ne elms hne, ih]
      constructor
      · rintro ⟨before, elm', after, rfl, hbefore, hlead⟩
        refine ⟨elm :: before, elm', after, rfl, ?_, hlead⟩
        exact List.forall_mem_cons.mpr ⟨hne, hbefore⟩
      · rintro ⟨before, elm', after, heq, hbefore, name, ds, hds, hvalues⟩
        cases before with
        | nil =>
          obtain ⟨rfl, -⟩ := List.cons.inj heq
          rw [hfind] at hds
          cases hds
        | cons first before =>
          obtain ⟨rfl, rfl⟩ := List.cons.inj heq
          exact ⟨before, elm', after, rfl, fun e he => hbefore e (List.mem_cons_of_mem _ he), name, ds, hds, hvalues⟩
    | some found =>
      obtain ⟨name, ds⟩ := found
      rw [takeContentDescription_cons_of_find elms hfind, ← head?_values, List.isSome_head?]
      constructor
      · intro hvalues
        exact ⟨[], elm, elms, rfl, by simp, name, ds, hfind, hvalues⟩
      · rintro ⟨before, elm', after, heq, hbefore, name', ds', hds, hvalues⟩
        cases before with
        | nil =>
          obtain ⟨rfl, -⟩ := List.cons.inj heq
          rw [hfind] at hds
          cases hds
          exact hvalues
        | cons first before =>
          obtain ⟨rfl, -⟩ := List.cons.inj heq
          have hmem := List.mem_of_find?_eq_some hfind
          exact absurd (by simpa using List.find?_some hfind) (hbefore elm (by simp) _ hmem)

theorem takeContentDescription_mem {elms : List Extension} {v : String}
    (h : takeContentDescription elms = some v) : v ∈ describedBy elms := by
  induction elms with
  | nil => cases h
  | cons elm elms ih =>
    have hcons : describedBy (elm :: elms) = values (named "description" elm.children) ++ describedBy elms := by
      simp [describedBy, values]
    rw [hcons, List.mem_append]
    cases hfind : elm.children.find? (·.1 = "description") with
    | none =>
      rw [takeContentDescription, hfind] at h
      exact .inr (ih h)
    | some found =>
      obtain ⟨name, ds⟩ := found
      rw [takeContentDescription_cons_of_find elms hfind] at h
      obtain ⟨d, hd, hv⟩ := List.exists_of_findSome?_eq_some h
      refine .inl (List.mem_filterMap.mpr ⟨d, List.mem_flatMap.mpr ⟨(name, ds), ?_, hd⟩, hv⟩)
      exact List.mem_filter.mpr ⟨List.mem_of_find?_eq_some hfind, by simpa using List.find?_some hfind⟩

section Precedence

variable (extensions : Extensions) (namespaces : Namespaces)

theorem take_eq_fallback : take extensions namespaces =
    ((contentLists (elements extensions namespaces)).findSome? takeContentDescription <|>
      fallback extensions namespaces) := by
  unfold fallback
  rw [take_eq, findSome?_lead, head?_groupLevel, head?_entryLevel]

theorem findSome?_contentLists {v : String}
    (h : (contentLists (elements extensions namespaces)).findSome? takeContentDescription = some v) :
    v ∈ contentLevel extensions namespaces := by
  obtain ⟨elms, helms, hv⟩ := List.exists_of_findSome?_eq_some h
  exact List.mem_flatMap.mpr ⟨elms, helms, takeContentDescription_mem hv⟩

theorem fallback_eq_none_iff : fallback extensions namespaces = none ↔
    groupLevel extensions namespaces = [] ∧ entryLevel extensions namespaces = [] := by
  unfold fallback
  cases groupLevel extensions namespaces <;> cases entryLevel extensions namespaces <;> simp

/-- **The precedence of the descriptions** is kept exactly where no `content` has one, or a list of `content`
elements leads with one, or what is taken instead happens to be the text of one. -/
theorem follows_iff : Follows extensions namespaces ↔ contentLevel extensions namespaces = [] ∨
    (∃ elms ∈ contentLists (elements extensions namespaces), Leads elms) ∨
      ∃ v ∈ contentLevel extensions namespaces, fallback extensions namespaces = some v := by
  have hleads : (∃ elms ∈ contentLists (elements extensions namespaces), Leads elms) ↔
      ((contentLists (elements extensions namespaces)).findSome? takeContentDescription).isSome := by
    rw [List.findSome?_isSome_iff]
    exact exists_congr fun elms => and_congr_right fun _ => (isSome_takeContentDescription_iff elms).symm
  rw [hleads]
  have htake := take_eq_fallback extensions namespaces
  cases hfind : (contentLists (elements extensions namespaces)).findSome? takeContentDescription with
  | some v =>
    -- the search ends in a list of `content` elements
    have hmem := findSome?_contentLists extensions namespaces hfind
    have htake : take extensions namespaces = some v := by simpa [hfind] using htake
    have hne : contentLevel extensions namespaces ≠ [] := List.ne_nil_of_mem hmem
    refine iff_of_true ⟨fun _ => ⟨v, hmem, htake⟩, fun h => absurd h hne, ?_⟩ (.inr (.inl rfl))
    simp [htake, hne]
  | none =>
    -- the search goes through to its end
    have htake : take extensions namespaces = fallback extensions namespaces := by simpa [hfind] using htake
    constructor
    · intro h
      by_cases hnil : contentLevel extensions namespaces = []
      · exact .inl hnil
      · obtain ⟨v, hmem, hv⟩ := h.content hnil
        exact .inr (.inr ⟨v, hmem, htake ▸ hv⟩)
    · rintro (hnil | h | ⟨v, hmem, hv⟩)
      · refine ⟨fun hne => absurd hnil hne, fun _ => htake, ?_⟩
        rw [htake, fallback_eq_none_iff]
        simp [hnil]
      · cases h
      · have hne : contentLevel extensions namespaces ≠ [] := List.ne_nil_of_mem hmem
        refine ⟨fun _ => ⟨v, hmem, htake.trans hv⟩, fun h => absurd h hne, ?_⟩
        simp [htake, hv, hne]

end Precedence

/-- Two `content` elements, of which the first has a `description` without a value, and a description of the
entry. -/
def emptyFirst : Extensions :=
  [("media", [("content", [.mk none [("description", [.mk none []])],
      .mk none [("description", [.mk (some "of the content") []])]]),
    ("description", [.mk (some "of the entry") []])])]

theorem not_follows_emptyFirst :
    take emptyFirst [("media", nsMrss)] = some "of the entry" ∧
      contentLevel emptyFirst [("media", nsMrss)] = ["of the content"] ∧
      ¬ Follows emptyFirst [("media", nsMrss)] := by
  have htake : take emptyFirst [("media", nsMrss)] = some "of the entry" := by decide
  have hcontent : contentLevel emptyFirst [("media", nsMrss)] = ["of the content"] := by decide
  refine ⟨htake, hcontent, fun h => ?_⟩
  obtain ⟨v, hv, heq⟩ := h.content (by simp [hcontent])
  rw [hcontent] at hv
  rw [htake] at heq
  cases heq
  simp at hv

end Pipitor.MediaDescription
