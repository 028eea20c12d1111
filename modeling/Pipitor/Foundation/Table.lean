import Mathlib.Data.List.Nodup

/-!
# Keyed tables

A `Table key` is a list of rows no two of which agree under `key`: the primary key constraint is a
field, so a table that violates it cannot be built. `insert` fails on a key that is taken (the
caller decides which error that is), `replace` overwrites, `filter` is a deletion, and `update`
rewrites rows without touching their keys. Everything a proof needs about these is stated through
membership and `hasKey`.
-/

namespace Relational

variable {ρ κ : Type*} {key : ρ → κ}

/-- A table of rows `ρ` with primary key `key`. -/
structure Table (key : ρ → κ) where
  rows : List ρ
  nodup : (rows.map key).Nodup

/-- An order in which the rows of a query may be returned: no `ORDER BY`, so any permutation. -/
structure RowOrder (ρ : Type*) where
  apply : List ρ → List ρ
  perm : ∀ rows, (apply rows).Perm rows

/-- The order of the table itself. -/
def RowOrder.asStored : RowOrder ρ := ⟨id, fun _ => List.Perm.refl _⟩

@[simp] theorem RowOrder.mem_apply (o : RowOrder ρ) {rows : List ρ} {r : ρ} :
    r ∈ o.apply rows ↔ r ∈ rows :=
  (o.perm rows).mem_iff

namespace Table

instance : Membership ρ (Table key) := ⟨fun t r => r ∈ t.rows⟩

theorem mem_def {t : Table key} {r : ρ} : r ∈ t ↔ r ∈ t.rows := Iff.rfl

instance [DecidableEq ρ] (r : ρ) (t : Table key) : Decidable (r ∈ t) :=
  inferInstanceAs (Decidable (r ∈ t.rows))

@[ext] theorem ext {t t' : Table key} (h : t.rows = t'.rows) : t = t' := by
  cases t; cases t'; cases h; rfl

theorem eq_of_key_eq {t : Table key} {r r' : ρ} (hr : r ∈ t) (hr' : r' ∈ t)
    (h : key r = key r') : r = r' :=
  List.inj_on_of_nodup_map t.nodup hr hr' h

/-- The table with no rows. -/
def empty : Table key := ⟨[], by simp⟩

@[simp] theorem not_mem_empty (r : ρ) : r ∉ (empty : Table key) := List.not_mem_nil

/-- The rows that satisfy `keep`: what a deletion leaves. -/
def filter (t : Table key) (keep : ρ → Bool) : Table key where
  rows := t.rows.filter keep
  nodup := (List.Sublist.map key List.filter_sublist).nodup t.nodup

@[simp] theorem mem_filter {t : Table key} {keep : ρ → Bool} {r : ρ} :
    r ∈ t.filter keep ↔ r ∈ t ∧ keep r = true :=
  List.mem_filter

/-- Rewrite every row by a function that leaves the key alone. -/
def update (t : Table key) (f : ρ → ρ) (hf : ∀ r, key (f r) = key r) : Table key where
  rows := t.rows.map f
  nodup := by
    rw [List.map_map, show key ∘ f = key from funext hf]
    exact t.nodup

section Keys

variable [DecidableEq κ]

/-- Whether some row has the key `k`. -/
def hasKey (t : Table key) (k : κ) : Bool := t.rows.any (key · = k)

/-- The row with the key `k`. -/
def find? (t : Table key) (k : κ) : Option ρ := t.rows.find? (key · = k)

theorem hasKey_iff {t : Table key} {k : κ} : t.hasKey k = true ↔ ∃ r ∈ t, key r = k := by
  simp [hasKey, mem_def]

theorem hasKey_eq_false_iff {t : Table key} {k : κ} : t.hasKey k = false ↔ ∀ r ∈ t, key r ≠ k := by
  simp [hasKey, mem_def]

theorem hasKey_of_mem {t : Table key} {r : ρ} (hr : r ∈ t) : t.hasKey (key r) = true :=
  hasKey_iff.mpr ⟨r, hr, rfl⟩

theorem find?_eq_some_iff {t : Table key} {k : κ} {r : ρ} :
    t.find? k = some r ↔ r ∈ t ∧ key r = k := by
  constructor
  · intro h
    exact ⟨List.mem_of_find?_eq_some h, by simpa using List.find?_some h⟩
  · rintro ⟨hr, rfl⟩
    cases hf : t.find? (key r) with
    | none =>
      have := List.find?_eq_none.mp hf r hr
      simp at this
    | some r' =>
      have hk : key r' = key r := by simpa using List.find?_some hf
      rw [eq_of_key_eq (List.mem_of_find?_eq_some hf) hr hk]

theorem find?_eq_none_iff {t : Table key} {k : κ} : t.find? k = none ↔ t.hasKey k = false := by
  simp [find?, hasKey]

theorem hasKey_filter {t : Table key} {keep : ρ → Bool} {k : κ} :
    (t.filter keep).hasKey k = true ↔ ∃ r ∈ t, keep r = true ∧ key r = k := by
  simp only [hasKey_iff, mem_filter, and_assoc]

theorem hasKey_filter_key {t : Table key} {p : κ → Bool} {k : κ} :
    (t.filter (fun r => p (key r))).hasKey k = (t.hasKey k && p k) := by
  rw [Bool.eq_iff_iff, hasKey_filter, Bool.and_eq_true, hasKey_iff]
  constructor
  · rintro ⟨r, hr, hp, rfl⟩
    exact ⟨⟨r, hr, rfl⟩, hp⟩
  · rintro ⟨⟨r, hr, rfl⟩, hp⟩
    exact ⟨r, hr, hp, rfl⟩

/-- Append a row, or `none` where its key is taken. -/
def insert (t : Table key) (r : ρ) : Option (Table key) :=
  if h : t.hasKey (key r) = true then none
  else some {
    rows := t.rows ++ [r]
    nodup := by
      rw [List.map_append, List.nodup_append]
      refine ⟨t.nodup, by simp, ?_⟩
      rintro a ha b hb rfl
      obtain ⟨r', hr', rfl⟩ := List.mem_map.mp ha
      simp only [List.map_cons, List.map_nil, List.mem_singleton] at hb
      exact h (hasKey_iff.mpr ⟨r', hr', hb⟩) }

theorem insert_eq_none_iff {t : Table key} {r : ρ} : t.insert r = none ↔ t.hasKey (key r) = true := by
  unfold insert
  split <;> simp_all

theorem rows_of_insert {t t' : Table key} {r : ρ} (h : t.insert r = some t') :
    t'.rows = t.rows ++ [r] := by
  unfold insert at h
  split at h
  · cases h
  · cases h; rfl

theorem not_hasKey_of_insert {t t' : Table key} {r : ρ} (h : t.insert r = some t') :
    t.hasKey (key r) = false := by
  rw [← Bool.not_eq_true, ← insert_eq_none_iff, h]
  simp

theorem mem_of_insert {t t' : Table key} {r r' : ρ} (h : t.insert r = some t') :
    r' ∈ t' ↔ r' ∈ t ∨ r' = r := by
  rw [mem_def, rows_of_insert h]
  simp [mem_def]

theorem hasKey_of_insert {t t' : Table key} {r : ρ} {k : κ} (h : t.insert r = some t') :
    t'.hasKey k = (t.hasKey k || decide (key r = k)) := by
  simp [hasKey, rows_of_insert h]

/-- Insert a row in place of the one with the same key, if there is one. -/
def replace (t : Table key) (r : ρ) : Table key where
  rows := t.rows.filter (key · ≠ key r) ++ [r]
  nodup := by
    rw [List.map_append, List.nodup_append]
    refine ⟨(List.Sublist.map key List.filter_sublist).nodup t.nodup, by simp, ?_⟩
    rintro a ha b hb rfl
    obtain ⟨r', hr', rfl⟩ := List.mem_map.mp ha
    simp only [List.map_cons, List.map_nil, List.mem_singleton] at hb
    simp [List.mem_filter, hb] at hr'

@[simp] theorem mem_replace {t : Table key} {r r' : ρ} :
    r' ∈ t.replace r ↔ (r' ∈ t ∧ key r' ≠ key r) ∨ r' = r := by
  simp [mem_def, replace]

@[simp] theorem hasKey_replace {t : Table key} {r : ρ} {k : κ} :
    (t.replace r).hasKey k = (t.hasKey k || decide (key r = k)) := by
  rw [Bool.eq_iff_iff, Bool.or_eq_true, hasKey_iff, hasKey_iff, decide_eq_true_eq]
  constructor
  · rintro ⟨r', hr', rfl⟩
    rcases mem_replace.mp hr' with ⟨hr', -⟩ | rfl
    · exact Or.inl ⟨r', hr', rfl⟩
    · exact Or.inr rfl
  · rintro (⟨r', hr', rfl⟩ | rfl)
    · by_cases hk : key r' = key r
      · exact ⟨r, mem_replace.mpr (Or.inr rfl), hk.symm⟩
      · exact ⟨r', mem_replace.mpr (Or.inl ⟨hr', hk⟩), rfl⟩
    · exact ⟨r, mem_replace.mpr (Or.inr rfl), rfl⟩

theorem find?_replace {t : Table key} {r : ρ} {k : κ} :
    (t.replace r).find? k = if key r = k then some r else t.find? k := by
  split
  · rename_i hkey
    exact find?_eq_some_iff.mpr ⟨mem_replace.mpr (.inr rfl), hkey⟩
  · rename_i hkey
    cases hfind : t.find? k with
    | none =>
      rw [find?_eq_none_iff, hasKey_replace, find?_eq_none_iff.mp hfind, decide_eq_false hkey]
      rfl
    | some r' =>
      obtain ⟨hmem, rfl⟩ := find?_eq_some_iff.mp hfind
      exact find?_eq_some_iff.mpr ⟨mem_replace.mpr (.inl ⟨hmem, Ne.symm hkey⟩), rfl⟩

end Keys

end Table

end Relational
