import Mathlib.Data.List.Basic

/-!
# Records read from names and values

What a derived deserializer makes of a sequence of names and values. Each of the fields it knows it takes
once and refuses a second time; a name it does not know it skips. A variant that is told by a tag is found
first, and the rest is left for the variant. `exists_visit_iff` and `tagged_ok_iff` say what comes of it in terms
of the values under each name, so in terms that the order of different names does not matter to.
-/

namespace Fields

inductive Error
  | duplicate (name : String)
  | missing (name : String)
  | invalid (name : String)
deriving DecidableEq, Repr

variable {V : Type}

/-- The values under a name, in order. -/
def values (name : String) (pairs : List (String × V)) : List V :=
  (pairs.filter (·.1 = name)).map (·.2)

/-- The loop over the names and values; `seen` are the fields so far. -/
def visit (names : List String) : List (String × V) → List (String × V) → Except Error (List (String × V))
  | seen, [] => .ok seen
  | seen, (name, value) :: rest =>
    if names.contains name then
      if (seen.lookup name).isSome then .error (.duplicate name)
      else visit names ((name, value) :: seen) rest
    else visit names seen rest

def required (name : String) (seen : List (String × V)) : Except Error V :=
  match seen.lookup name with
  | some value => .ok value
  | none => .error (.missing name)

/-- The search for the tag; `found` is its value and `rest` the other pairs so far, in order. -/
def tagged (tag : String) (found : Option V) (rest : List (String × V)) :
    List (String × V) → Except Error (V × List (String × V))
  | [] => match found with
    | some value => .ok (value, rest)
    | none => .error (.missing tag)
  | (name, value) :: pairs =>
    if name = tag then
      match found with
      | some _ => .error (.duplicate tag)
      | none => tagged tag (some value) rest pairs
    else tagged tag found (rest ++ [(name, value)]) pairs

section Values

variable {name name' : String} {value : V} {pairs pairs' : List (String × V)}

@[simp] theorem values_nil : values name ([] : List (String × V)) = [] := rfl

theorem values_cons_self : values name ((name, value) :: pairs) = value :: values name pairs := by
  simp [values]

theorem values_cons_of_ne (h : name' ≠ name) :
    values name ((name', value) :: pairs) = values name pairs := by
  simp [values, h]

@[simp] theorem values_append : values name (pairs ++ pairs') = values name pairs ++ values name pairs' := by
  simp [values]

theorem values_filter_ne (h : name ≠ name') :
    values name (pairs.filter (·.1 ≠ name')) = values name pairs := by
  unfold values
  rw [List.filter_filter]
  congr 1
  refine List.filter_congr fun p _ => ?_
  by_cases hp : p.1 = name
  · simp [hp, h]
  · simp [hp]

theorem values_eq_nil (h : ∀ p ∈ pairs, p.1 ≠ name) : values name pairs = [] := by
  unfold values
  rw [List.filter_eq_nil_iff.mpr fun p hp => by simpa using h p hp, List.map_nil]

/-- A value under a name that there is only one of stays where the pairs are put into another order. -/
theorem values_of_perm (h : pairs.Perm pairs') (hone : values name pairs = [value]) :
    values name pairs' = [value] := by
  have hperm : (values name pairs).Perm (values name pairs') := (h.filter _).map _
  rw [hone] at hperm
  exact (List.singleton_perm.mp hperm).symm

end Values

/-! ### The fields -/

section Visit

variable {names : List String} {seen pairs fields : List (String × V)}

theorem lookup_of_visit (h : visit names seen pairs = .ok fields) {name : String} (hname : name ∈ names) :
    (fields.lookup name).toList = (seen.lookup name).toList ++ values name pairs := by
  induction pairs generalizing seen with
  | nil =>
    cases h
    simp
  | cons pair pairs ih =>
    obtain ⟨name', value⟩ := pair
    unfold visit at h
    split at h
    · split at h
      · cases h
      · rename_i hfresh
        rw [ih h]
        by_cases heq : name' = name
        · subst heq
          have hnone : seen.lookup name' = none := Option.not_isSome_iff_eq_none.mp hfresh
          rw [values_cons_self, hnone, List.lookup_cons_self]
          rfl
        · rw [values_cons_of_ne heq, List.lookup_cons, beq_false_of_ne (Ne.symm heq)]
    · rename_i hunknown
      have hne : name' ≠ name := by
        rintro rfl
        exact hunknown (by simpa using hname)
      rw [ih h, values_cons_of_ne hne]

/-- No field that is known is there twice. -/
theorem exists_visit_iff : (∃ fields, visit names seen pairs = .ok fields) ↔
    ∀ name ∈ names, ((seen.lookup name).toList ++ values name pairs).length ≤ 1 := by
  induction pairs generalizing seen with
  | nil =>
    refine iff_of_true ⟨seen, rfl⟩ fun name _ => ?_
    cases seen.lookup name <;> simp
  | cons pair pairs ih =>
    obtain ⟨name', value⟩ := pair
    unfold visit
    by_cases hknown : names.contains name' = true
    · rw [if_pos hknown]
      have hmem : name' ∈ names := by simpa using hknown
      cases hseen : seen.lookup name' with
      | some value' =>
        refine iff_of_false ?_ fun h => ?_
        · rintro ⟨fields, hfields⟩
          cases hfields
        · have hlen := h name' hmem
          rw [hseen, values_cons_self] at hlen
          simp at hlen
      | none =>
        show (∃ fields, visit names ((name', value) :: seen) pairs = .ok fields) ↔ _
        rw [ih]
        refine forall_congr' fun name => forall_congr' fun _ => ?_
        by_cases heq : name' = name
        · subst heq
          rw [hseen, values_cons_self, List.lookup_cons_self]
          rfl
        · rw [values_cons_of_ne heq, List.lookup_cons, beq_false_of_ne (Ne.symm heq)]
    · rw [if_neg hknown, ih]
      refine forall_congr' fun name => forall_congr' fun hname => ?_
      have hne : name' ≠ name := by
        rintro rfl
        exact hknown (by simpa using hname)
      rw [values_cons_of_ne hne]

theorem required_eq_ok_iff {name : String} {value : V} :
    required name fields = .ok value ↔ fields.lookup name = some value := by
  unfold required
  cases fields.lookup name <;> simp

/-- A field that is read is the only one of its name. -/
theorem required_of_visit (h : visit names [] pairs = .ok fields) {name : String} (hname : name ∈ names)
    {value : V} : required name fields = .ok value ↔ values name pairs = [value] := by
  have hlookup := lookup_of_visit h hname
  rw [List.lookup_nil, Option.toList_none, List.nil_append] at hlookup
  rw [required_eq_ok_iff, ← hlookup]
  cases fields.lookup name <;> simp

theorem exists_required_iff (pairs expected : List (String × V)) (hnames : expected.map Prod.fst = names) :
    (∃ fields, visit names [] pairs = .ok fields ∧ ∀ p ∈ expected, required p.1 fields = .ok p.2) ↔
      ∀ p ∈ expected, values p.1 pairs = [p.2] := by
  have hname : ∀ p ∈ expected, p.1 ∈ names := fun p hp => hnames ▸ List.mem_map_of_mem hp
  constructor
  · rintro ⟨fields, hvisit, hrequired⟩ p hp
    exact (required_of_visit hvisit (hname p hp)).mp (hrequired p hp)
  · intro hvalues
    obtain ⟨fields, hvisit⟩ : ∃ fields, visit names [] pairs = .ok fields := by
      refine exists_visit_iff.mpr fun name hmem => ?_
      obtain ⟨p, hp, rfl⟩ := List.mem_map.mp (hnames ▸ hmem)
      rw [hvalues p hp]
      exact Nat.le_refl 1
    exact ⟨fields, hvisit, fun p hp => (required_of_visit hvisit (hname p hp)).mpr (hvalues p hp)⟩

end Visit

/-! ### The tag -/

theorem tagged_ok_iff' {tag : String} {found : Option V} {before pairs content : List (String × V)} {value : V} :
    tagged tag found before pairs = .ok (value, content) ↔
      found.toList ++ values tag pairs = [value] ∧ content = before ++ pairs.filter (·.1 ≠ tag) := by
  induction pairs generalizing found before with
  | nil =>
    unfold tagged
    cases found with
    | none => simp
    | some value' => simp [eq_comm]
  | cons pair pairs ih =>
    obtain ⟨name, value'⟩ := pair
    unfold tagged
    by_cases heq : name = tag
    · subst heq
      rw [if_pos rfl, values_cons_self, List.filter_cons_of_neg (by simp)]
      cases found with
      | some _ => simp
      | none => exact ih
    · rw [if_neg heq, ih, values_cons_of_ne heq, List.filter_cons_of_pos (by simpa using heq), List.append_assoc,
        List.singleton_append]

/-- A tag that is found is the only one, and everything else is left in its order. -/
theorem tagged_ok_iff {tag : String} {pairs content : List (String × V)} {value : V} :
    tagged tag none [] pairs = .ok (value, content) ↔
      values tag pairs = [value] ∧ content = pairs.filter (·.1 ≠ tag) := tagged_ok_iff'

end Fields
