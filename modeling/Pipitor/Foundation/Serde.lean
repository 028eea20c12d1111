import Mathlib.Data.List.Nodup
import Mathlib.Data.List.Perm.Basic
import Pipitor.Foundation.Fields
import Pipitor.Foundation.Machine

/-!
# Deserialization

What a format hands over to the visitors, and the readers that the standard implementations and the derived ones
are made of. A format may read a value that is there as `Some` of it, or have optional values of its own.
-/

namespace Serde

open Machine

inductive Value
  | unit
  | none
  | some (v : Value)
  | bool (b : Bool)
  | i64 (n : Int64)
  | u64 (n : UInt64)
  | float
  | str (s : String)
  | seq (items : List Value)
  | map (members : List (String × Value))
  | variant (name : String) (content : Option Value)

structure Format where
  /-- A value that is there is `Some` of it. -/
  impliesSome : Bool
  /-- Elements of a sequence that nobody has asked for are an error. -/
  refusesRest : Bool
  /-- The visitor of a structure is handed whatever there is, not only a map or a sequence. -/
  structAsAny : Bool

inductive Error
  | fields (e : Fields.Error)
  | invalidType
  | invalidValue
  | invalidLength
  | custom (message : String)
deriving DecidableEq, Repr

variable {α : Type}

/-- What a conversion yields, or else the error. -/
def orInvalid : Option α → Except Error α
  | .some a => .ok a
  | .none => .error .invalidValue

def string : Value → Except Error String
  | .str s => .ok s
  | _ => .error .invalidType

def boolean : Value → Except Error Bool
  | .bool b => .ok b
  | _ => .error .invalidType

def i64 : Value → Except Error Int64
  | .i64 n => .ok n
  | .u64 n => orInvalid (tryIntoI64 n)
  | _ => .error .invalidType

def u64 : Value → Except Error UInt64
  | .u64 n => .ok n
  | .i64 n => orInvalid (tryIntoU64 n)
  | _ => .error .invalidType

def u32 (v : Value) : Except Error UInt32 := do
  let n ← u64 v
  if n.toNat < 2 ^ 32 then return n.toUInt32 else .error .invalidValue

def option (fmt : Format) (read : Value → Except Error α) : Value → Except Error (Option α)
  | .unit => .ok .none
  | .none => .ok .none
  | .some v => (read v).map .some
  | v => if fmt.impliesSome then (read v).map .some else .error .invalidType

def seq (read : Value → Except Error α) : Value → Except Error (List α)
  | .seq items => items.mapM read
  | _ => .error .invalidType

/-- The fields of a structure that have been read, by name or by their positions. -/
structure Record where
  fields : List (String × Value)
  positional : Bool

def record (fmt : Format) (names : List String) : Value → Except Error Record
  | .map members => match Fields.visit names [] members with
    | .ok fields => .ok ⟨fields, false⟩
    | .error e => .error (.fields e)
  | .seq items =>
    if fmt.refusesRest && names.length < items.length then .error .invalidLength else .ok ⟨names.zip items, true⟩
  | _ => .error .invalidType

namespace Record

variable (r : Record)

/-- A field without a value of its own if it is not there. -/
def required (name : String) (read : Value → Except Error α) : Except Error α :=
  match r.fields.lookup name with
  | .some v => read v
  | .none => if r.positional then .error .invalidLength else .error (.fields (.missing name))

/-- `#[serde(default)]`. -/
def default (name : String) (value : α) (read : Value → Except Error α) : Except Error α :=
  match r.fields.lookup name with
  | .some v => read v
  | .none => .ok value

/-- A field of a type `Option<_>`. -/
def optional (fmt : Format) (name : String) (read : Value → Except Error α) : Except Error (Option α) :=
  match r.fields.lookup name with
  | .some v => option fmt read v
  | .none => if r.positional then .error .invalidLength else .ok .none

end Record

/-- An optional value, as far as the value is one. -/
def optionally {β : Type} (f : α → Option β) (o : Option α) : Option (Option β) :=
  o.elim (some none) fun a => (f a).map .some

@[simp] theorem optionally_map {β γ : Type} (f : β → Option γ) (g : α → β) (o : Option α) :
    optionally f (o.map g) = optionally (fun a => f (g a)) o := by
  cases o <;> rfl

/-! ### What comes of it -/

@[simp] theorem toOption_bind {ε β : Type} (x : Except ε α) (f : α → Except ε β) :
    (x >>= f).toOption = x.toOption.bind fun a => (f a).toOption := by
  cases x <;> rfl

@[simp] theorem toOption_map {ε β : Type} (x : Except ε α) (f : α → β) : (x.map f).toOption = x.toOption.map f := by
  cases x <;> rfl

@[simp] theorem toOption_ok {ε : Type} (a : α) : (.ok a : Except ε α).toOption = .some a := rfl

@[simp] theorem toOption_pure {ε : Type} (a : α) : (pure a : Except ε α).toOption = .some a := rfl

@[simp] theorem toOption_orInvalid (o : Option α) : (orInvalid o).toOption = o := by
  cases o <;> rfl

theorem toOption_mapM {ε β : Type} (f : α → Except ε β) (l : List α) :
    (l.mapM f).toOption = l.mapM fun a => (f a).toOption := by
  induction l with
  | nil => rfl
  | cons a l ih =>
    rw [List.mapM_cons, List.mapM_cons, toOption_bind]
    cases f a with
    | error e => rfl
    | ok b =>
      show (l.mapM f >>= fun bs => pure (b :: bs)).toOption = _
      rw [toOption_bind, ih]
      rfl

/-- A property that a conversion preserves and reflects holds of all that is converted or of none of it. -/
theorem forall_mapM_iff {β : Type} {f : α → Option β} {l : List α} {l' : List β} (h : l.mapM f = some l')
    {P : α → Prop} {Q : β → Prop} (hiff : ∀ a b, f a = some b → (P a ↔ Q b)) :
    (∀ a ∈ l, P a) ↔ ∀ b ∈ l', Q b := by
  induction l generalizing l' with
  | nil =>
    rw [← Option.some.inj (show some [] = some l' from h)]
    exact ⟨fun _ _ h => absurd h List.not_mem_nil, fun _ _ h => absurd h List.not_mem_nil⟩
  | cons a l ih =>
    rw [List.mapM_cons] at h
    obtain ⟨b, hb, h⟩ := Option.bind_eq_some_iff.mp h
    obtain ⟨bs, hbs, h⟩ := Option.bind_eq_some_iff.mp h
    rw [← Option.some.inj h, List.forall_mem_cons, List.forall_mem_cons, hiff a b hb, ih hbs]

theorem optionally_ite {β : Type} (o : Option α) (b : Bool) (p : α → Bool) (f : α → Option β) :
    optionally (fun a => if b || !p a then f a else none) o =
      if b || !o.any p then optionally f o else none := by
  cases o with
  | none =>
    rw [Option.any_none, Bool.not_false, Bool.or_true, if_pos rfl]
    rfl
  | some a =>
    show (if b || !p a then f a else none).map some = if b || !p a then (f a).map some else none
    split
    · rfl
    · rfl

/-! ### What has been read -/

section Read

variable {fmt : Format} {read : Value → Except Error α} {r : Record} {name : String} {P : α → Prop}

theorem forall_option (hread : ∀ v a, read v = .ok a → P a) {v : Value} {o : Option α}
    (h : option fmt read v = .ok o) : ∀ a ∈ o, P a := by
  have hmap : ∀ {v}, (read v).map .some = .ok o → ∀ a ∈ o, P a := by
    intro v h
    cases hv : read v with
    | error e =>
      rw [hv] at h
      cases h
    | ok a =>
      rw [hv] at h
      rw [← Except.ok.inj h]
      rintro _ ⟨⟩
      exact hread v a hv
  unfold option at h
  split at h
  · rw [← Except.ok.inj h]
    exact fun _ h => by cases h
  · rw [← Except.ok.inj h]
    exact fun _ h => by cases h
  · exact hmap h
  · split at h
    · exact hmap h
    · cases h

theorem of_required (hread : ∀ v a, read v = .ok a → P a) {a : α} (h : r.required name read = .ok a) : P a := by
  unfold Record.required at h
  split at h
  · exact hread _ _ h
  · split at h
    · cases h
    · cases h

theorem of_default (hread : ∀ v a, read v = .ok a → P a) {value a : α} (hvalue : P value)
    (h : r.default name value read = .ok a) : P a := by
  unfold Record.default at h
  split at h
  · exact hread _ _ h
  · rw [← Except.ok.inj h]
    exact hvalue

theorem forall_optional (hread : ∀ v a, read v = .ok a → P a) {o : Option α}
    (h : r.optional fmt name read = .ok o) : ∀ a ∈ o, P a := by
  unfold Record.optional at h
  split at h
  · exact forall_option hread h
  · split at h
    · cases h
    · rw [← Except.ok.inj h]
      exact fun _ h => by cases h

theorem forall_default_option (hread : ∀ v a, read v = .ok a → P a) {o : Option α}
    (h : r.default name none (option fmt read) = .ok o) : ∀ a ∈ o, P a :=
  of_default (P := fun o => ∀ a ∈ o, P a) (fun _ _ => forall_option hread) (fun _ h => by cases h) h

end Read

/-! ### How a format writes -/

/-- The members that are there. -/
def present (raw : List (String × Option Value)) : List (String × Value) :=
  raw.filterMap fun x => x.2.map fun v => (x.1, v)

/-- How the values of a document are presented: the order of the members, the type of the integers, what is written
for an optional value or a value of a union. -/
structure Presentation (fmt : Format) where
  arrange : List (String × Value) → List (String × Value)
  perm : ∀ members, (arrange members).Perm members
  int : UInt64 → Value
  int_eq : ∀ n, int n = .u64 n ∨ ∃ i, tryIntoI64 n = .some i ∧ int n = .i64 i
  optional : Option Value → Option Value
  optional_none : optional .none = .none ∨ optional .none = .some .unit ∨ optional .none = .some .none
  optional_some : ∀ v, optional (.some v) = .some (.some v) ∨ fmt.impliesSome = true ∧ optional (.some v) = .some v
  union : String → Value → Value
  union_eq : ∀ name v, union name v = v ∨ union name v = .variant name (.some v)

/-- A record, with the members that are there. -/
def Presentation.record {fmt : Format} (pres : Presentation fmt) (raw : List (String × Option Value)) : Value :=
  .map (pres.arrange (present raw))

section Presented

variable {fmt : Format} (pres : Presentation fmt)

theorem lookup_present {raw : List (String × Option Value)} (hnodup : (raw.map (·.1)).Nodup) (name : String) :
    (present raw).lookup name = (raw.lookup name).join := by
  induction raw with
  | nil => rfl
  | cons x raw ih =>
    obtain ⟨name', v⟩ := x
    rw [List.map_cons, List.nodup_cons] at hnodup
    by_cases heq : name = name'
    · subst heq
      rw [List.lookup_cons_self]
      cases v with
      | some v => exact List.lookup_cons_self
      | none =>
        show (present raw).lookup name = none
        rw [ih hnodup.2, Option.join_eq_none_iff]
        refine .inl (List.lookup_eq_none_iff.mpr fun x hx => ?_)
        rw [bne_iff_ne]
        rintro rfl
        exact hnodup.1 (List.mem_map.mpr ⟨x, hx, rfl⟩)
    · rw [List.lookup_cons, beq_false_of_ne heq, ← ih hnodup.2]
      cases v with
      | some v =>
        show ((name', v) :: present raw).lookup name = _
        rw [List.lookup_cons, beq_false_of_ne heq]
      | none => rfl

theorem nodup_present {raw : List (String × Option Value)} (hnodup : (raw.map (·.1)).Nodup) :
    ((present raw).map (·.1)).Nodup := by
  have hsub : ((present raw).map (·.1)).Sublist (raw.map (·.1)) := by
    clear hnodup
    induction raw with
    | nil => exact List.Sublist.refl _
    | cons x raw ih =>
      obtain ⟨name, v⟩ := x
      cases v with
      | some v => exact ih.cons_cons name
      | none => exact ih.cons name
  exact hsub.nodup hnodup

theorem values_of_nodup {pairs : List (String × Value)} (hnodup : (pairs.map (·.1)).Nodup) (name : String) :
    Fields.values name pairs = (pairs.lookup name).toList := by
  induction pairs with
  | nil => rfl
  | cons pair pairs ih =>
    obtain ⟨name', v⟩ := pair
    rw [List.map_cons, List.nodup_cons] at hnodup
    by_cases heq : name' = name
    · subst heq
      rw [Fields.values_cons_self, List.lookup_cons_self, Fields.values_eq_nil]
      · rfl
      · rintro pair hpair rfl
        exact hnodup.1 (List.mem_map.mpr ⟨pair, hpair, rfl⟩)
    · rw [Fields.values_cons_of_ne heq, ih hnodup.2, List.lookup_cons, beq_false_of_ne (Ne.symm heq)]

/-- In any order, the members of a record are read by their names. -/
theorem record_presented (names : List String) (raw : List (String × Option Value)) (hnames : raw.map (·.1) = names)
    (hnodup : names.Nodup) :
    ∃ r, record fmt names (pres.record raw) = .ok r ∧ r.positional = false ∧
      ∀ name ∈ names, r.fields.lookup name = (raw.lookup name).join := by
  rw [← hnames] at hnodup
  have hvalues : ∀ name, Fields.values name (pres.arrange (present raw)) = ((raw.lookup name).join).toList := by
    intro name
    have hperm := ((pres.perm (present raw)).filter fun x => x.1 = name).map (·.2)
    have hold := values_of_nodup (nodup_present hnodup) name
    rw [lookup_present hnodup] at hold
    rw [← hold]
    cases hlookup : (raw.lookup name).join with
    | none =>
      rw [hlookup] at hold
      unfold Fields.values at hold
      rw [hold] at hperm
      exact (List.perm_nil.mp hperm).trans hold.symm
    | some v =>
      rw [hlookup] at hold
      rw [hold]
      exact Fields.values_of_perm (pres.perm (present raw)).symm hold
  have hvisit : ∃ fields, Fields.visit names [] (pres.arrange (present raw)) = .ok fields := by
    rw [Fields.exists_visit_iff]
    intro name _
    rw [List.lookup_nil, Option.toList_none, List.nil_append, hvalues]
    cases (raw.lookup name).join <;> simp
  obtain ⟨fields, hfields⟩ := hvisit
  refine ⟨⟨fields, false⟩, ?_, rfl, fun name hname => ?_⟩
  · unfold Presentation.record record
    dsimp only
    rw [hfields]
  · have hlookup := Fields.lookup_of_visit hfields hname
    rw [List.lookup_nil, Option.toList_none, List.nil_append, hvalues] at hlookup
    show fields.lookup name = _
    cases hfield : fields.lookup name with
    | none =>
      rw [hfield] at hlookup
      exact (Option.toList_eq_nil_iff.mp hlookup.symm).symm
    | some v =>
      rw [hfield] at hlookup
      exact (Option.toList_eq_singleton_iff.mp hlookup.symm).symm

theorem read_union {read visit : Value → Except Error α} (hvariant : ∀ name v, read (.variant name (some v)) = visit v)
    {v : Value} (hv : read v = visit v) (name : String) : read (pres.union name v) = visit v := by
  rcases pres.union_eq name v with h | h
  · rw [h, hv]
  · rw [h, hvariant]

/-- What holds of the integers of either type holds of those of a document. -/
theorem int_induction {P : Value → Prop} (hu64 : ∀ n, P (.u64 n)) (hi64 : ∀ i, P (.i64 i)) (n : UInt64) :
    P (pres.int n) := by
  rcases pres.int_eq n with h | ⟨i, -, h⟩
  · rw [h]
    exact hu64 n
  · rw [h]
    exact hi64 i

theorem toOption_u64_int (n : UInt64) : (u64 (pres.int n)).toOption = some n := by
  rcases pres.int_eq n with hint | ⟨i, hi, hint⟩
  · rw [hint]
    rfl
  · rw [hint]
    refine (toOption_orInvalid _).trans ?_
    have hcast := tryIntoI64_eq_some hi
    unfold tryIntoI64 at hi
    split at hi
    · cases hi
      have hnonneg : 0 ≤ n.toInt64 := by
        rw [Int64.le_iff_toInt_le, hcast]
        exact Int.natCast_nonneg _
      unfold tryIntoU64
      rw [if_pos hnonneg, UInt64.toUInt64_toInt64]
    · cases hi

theorem toOption_i64_int (n : UInt64) : (i64 (pres.int n)).toOption = tryIntoI64 n := by
  rcases pres.int_eq n with hint | ⟨i, hi, hint⟩
  · rw [hint]
    exact toOption_orInvalid _
  · rw [hint, hi]
    rfl

/-- A value that is not itself read as an optional one. -/
def Value.IsSolid : Value → Prop
  | .unit | .none | .some _ => False
  | _ => True

theorem option_of_isSolid {read : Value → Except Error α} {v : Value} (h : v.IsSolid) (himplies : fmt.impliesSome = true) :
    option fmt read v = (read v).map .some := by
  cases v with
  | unit => exact h.elim
  | none => exact h.elim
  | some v => exact h.elim
  | _ =>
    unfold option
    exact if_pos himplies

theorem optional_cases {o : Option Value} (hsolid : ∀ v ∈ o, v.IsSolid) (read : Value → Except Error α) :
    pres.optional o = .none ∧ o = .none ∨ ∃ v, pres.optional o = .some v ∧
      (option fmt read v).toOption = optionally (fun v => (read v).toOption) o := by
  cases o with
  | none =>
    rcases pres.optional_none with hnone | hunit | hnone
    · exact .inl ⟨hnone, rfl⟩
    · exact .inr ⟨_, hunit, rfl⟩
    · exact .inr ⟨_, hnone, rfl⟩
  | some v =>
    right
    rcases pres.optional_some v with hsome | ⟨himplies, hsame⟩
    · exact ⟨_, hsome, toOption_map _ _⟩
    · refine ⟨_, hsame, ?_⟩
      rw [option_of_isSolid (hsolid v rfl) himplies, toOption_map]
      rfl

theorem toOption_optional {r : Record} (hpositional : r.positional = false) {name : String} {o : Option Value}
    (hlookup : r.fields.lookup name = pres.optional o) (hsolid : ∀ v ∈ o, v.IsSolid)
    (read : Value → Except Error α) :
    (r.optional fmt name read).toOption = optionally (fun v => (read v).toOption) o := by
  unfold Record.optional
  rcases optional_cases pres hsolid read with ⟨hnone, rfl⟩ | ⟨v, hsome, hread⟩
  · rw [hlookup, hnone]
    dsimp only
    rw [hpositional]
    rfl
  · rw [hlookup, hsome]
    exact hread

theorem toOption_default_option {r : Record} {name : String} {o : Option Value}
    (hlookup : r.fields.lookup name = pres.optional o) (hsolid : ∀ v ∈ o, v.IsSolid)
    (read : Value → Except Error α) :
    (r.default name none (option fmt read)).toOption = optionally (fun v => (read v).toOption) o := by
  unfold Record.default
  rcases optional_cases pres hsolid read with ⟨hnone, rfl⟩ | ⟨v, hsome, hread⟩
  · rw [hlookup, hnone]
    rfl
  · rw [hlookup, hsome]
    exact hread

end Presented

end Serde
