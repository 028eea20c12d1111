import Mathlib.Data.List.Basic
import Pipitor.Foundation.Hex

/-!
# The names of SQLite databases

What opening a name means with URI filenames enabled: a plain name is a path, a `file:` URI has a path
between its authority and its query or fragment, in which `%HH` stands for a byte and an escaped zero ends
the path. `denotes` is that meaning; two paths lead to the same file if they have the same components.
-/

namespace SqliteName

/-! ### Texts and bytes -/

def utf8 (s : List Char) : List UInt8 := s.flatMap String.utf8EncodeChar

@[simp]
theorem utf8_nil : utf8 [] = [] := rfl

theorem utf8_cons (c : Char) (s : List Char) : utf8 (c :: s) = String.utf8EncodeChar c ++ utf8 s := rfl

theorem utf8_append (s t : List Char) : utf8 (s ++ t) = utf8 s ++ utf8 t := List.flatMap_append

theorem utf8_injective : Function.Injective utf8 := by
  intro s t h
  have hencode : s.utf8Encode = t.utf8Encode := congrArg List.toByteArray h
  rw [← String.toByteArray_ofList, ← String.toByteArray_ofList, String.toByteArray_inj] at hencode
  simpa using congrArg String.toList hencode

/-- A byte that is an ASCII character is the encoding of that character only. -/
theorem head_utf8EncodeChar {c : Char} {byte : UInt8} (hbyte : byte.toNat < 128)
    (h : (String.utf8EncodeChar c).head? = some byte) : c.toNat = byte.toNat := by
  unfold String.utf8EncodeChar at h
  dsimp only at h
  change c.val.toNat = byte.toNat
  split at h
  · rename_i hle
    rw [List.head?_cons, Option.some.injEq] at h
    rw [← h, UInt8.toNat_ofNat']
    omega
  split at h
  · rw [List.head?_cons, Option.some.injEq] at h
    rw [← h, UInt8.toNat_ofNat'] at hbyte
    omega
  split at h
  · rw [List.head?_cons, Option.some.injEq] at h
    rw [← h, UInt8.toNat_ofNat'] at hbyte
    omega
  · rw [List.head?_cons, Option.some.injEq] at h
    rw [← h, UInt8.toNat_ofNat'] at hbyte
    omega

/-- The rest of a text after a given start. -/
def strip (start s : List Char) : Option (List Char) := s.dropPrefix? start

theorem strip_eq_some_iff {start s rest : List Char} : strip start s = some rest ↔ s = start ++ rest := by
  unfold strip
  rw [List.dropPrefix?_eq_some_iff]
  constructor
  · intro h
    obtain ⟨start', hs, hstart⟩ := h
    rw [hs, eq_of_beq hstart]
  · intro h
    exact ⟨start, h, beq_self_eq_true start⟩

@[simp]
theorem strip_append (start rest : List Char) : strip start (start ++ rest) = some rest :=
  strip_eq_some_iff.mpr rfl

theorem strip_eq_none_iff {start s : List Char} : strip start s = none ↔ ∀ rest, s ≠ start ++ rest := by
  rw [Option.eq_none_iff_forall_ne_some]
  apply forall_congr'
  intro rest
  rw [ne_eq, strip_eq_some_iff]

/-! ### Escapes -/

def hexValue (c : Char) : Option ℕ := if c.toNat < 128 then Hex.value (.ofNat c.toNat) else none

/-- The byte that three characters are an escape of. -/
def escaped (c high low : Char) : Option UInt8 := do
  guard (c = '%')
  return .ofNat (16 * (← hexValue high) + (← hexValue low))

def decode : List Char → List UInt8
  | [] => []
  | [c] => utf8 [c]
  | [c, d] => utf8 [c, d]
  | c :: d :: e :: rest =>
    match escaped c d e with
    | none => utf8 [c] ++ decode (d :: e :: rest)
    | some byte => if byte = 0 then [] else byte :: decode rest

theorem decode_cons {c : Char} (h : c ≠ '%') (s : List Char) : decode (c :: s) = utf8 [c] ++ decode s := by
  rcases s with _ | ⟨d, _ | ⟨e, s⟩⟩
  · simp [decode]
  · simp [decode, utf8_cons]
  · have hnone : escaped c d e = none := by
      unfold escaped
      rw [guard, if_neg h]
      rfl
    rw [decode, hnone]

theorem decode_append {s : List Char} (h : '%' ∉ s) (t : List Char) : decode (s ++ t) = utf8 s ++ decode t := by
  induction s with
  | nil => rfl
  | cons c s ih =>
    rw [List.mem_cons, not_or] at h
    rw [List.cons_append, decode_cons (Ne.symm h.1), ih h.2, ← List.append_assoc, ← utf8_append]
    rfl

/-! ### Paths -/

def slash : UInt8 := 0x2f

/-- The names along a path; several slashes are one, and one at the end is none. -/
def components (path : List UInt8) : List (List UInt8) := (path.splitOn slash).filter (· ≠ [])

@[simp]
theorem components_nil : components [] = [] := rfl

theorem components_append_slash (path rest : List UInt8) :
    components (path ++ slash :: rest) = components path ++ components rest := by
  unfold components
  rw [List.splitOn_append_cons_self, List.filter_append]

theorem components_slash_cons (rest : List UInt8) : components (slash :: rest) = components rest :=
  components_append_slash [] rest

/-! ### Names -/

inductive Target
  | inMemory
  | temporary
  /-- An error: the authority is another host's. -/
  | foreign
  | absolute (path : List (List UInt8))
  | relative (path : List (List UInt8))
deriving DecidableEq

def memory : List Char := ":memory:".toList

def ofPath (path : List UInt8) : Target :=
  if path = [] then .temporary
  else if path = utf8 memory then .inMemory
  else if path.head? = some slash then .absolute (components path)
  else .relative (components path)

def scheme : List Char := "file:".toList

def localhost : List Char := "localhost".toList

/-- What follows the authority, which may be missing, empty or this host. -/
def afterAuthority (uri : List Char) : Option (List Char) :=
  match strip "//".toList uri with
  | none => some uri
  | some rest =>
    let authority := rest.takeWhile (· ≠ '/')
    if authority = [] ∨ authority = localhost then some (rest.dropWhile (· ≠ '/')) else none

/-- A character of the path: it starts neither a query nor a fragment. -/
def inPath (c : Char) : Bool := c ≠ '?' ∧ c ≠ '#'

def denotes (name : List Char) : Target :=
  match strip scheme name with
  | none => ofPath (utf8 name)
  | some uri => (afterAuthority uri).elim .foreign fun rest => ofPath (decode (rest.takeWhile inPath))

/-- The query and the fragment, as they are written. -/
def tail (name : List Char) : List Char :=
  match strip scheme name with
  | none => []
  | some uri => (afterAuthority uri).elim [] fun rest => rest.dropWhile inPath

/-- The target as it is seen from a working directory. -/
def Target.seenFrom (cwd : List (List UInt8)) : Target → Target
  | .relative path => .absolute (cwd ++ path)
  | target => target

def Target.IsRelative (target : Target) : Prop := ∃ path, target = .relative path

/-- A text that starts with exactly two slashes: after the scheme it has an authority. -/
def TwoSlashes (text : List Char) : Prop := ∃ rest, text = '/' :: '/' :: rest ∧ rest.head? ≠ some '/'

/-! ### Plain names -/

theorem denotes_plain {name : List Char} (h : strip scheme name = none) :
    denotes name = ofPath (utf8 name) := by
  rw [denotes, h]

theorem tail_plain {name : List Char} (h : strip scheme name = none) : tail name = [] := by
  rw [tail, h]

theorem strip_scheme_slash (rest : List Char) : strip scheme ('/' :: rest) = none := by
  rfl

theorem ofPath_slash (rest : List UInt8) : ofPath (slash :: rest) = .absolute (components rest) := by
  have hmemory : ¬ slash :: rest = utf8 memory := by
    intro h
    have hhead : slash = 0x3a := (List.cons.inj h).1
    exact absurd hhead (by decide)
  rw [ofPath, if_neg (List.cons_ne_nil _ _), if_neg hmemory, if_pos List.head?_cons, components_slash_cons]

theorem ofPath_eq_relative {path : List UInt8} (h : (ofPath path).IsRelative) :
    path ≠ [] ∧ path.head? ≠ some slash ∧ ofPath path = .relative (components path) := by
  obtain ⟨p, hp⟩ := h
  unfold ofPath at *
  split at hp
  · contradiction
  split at hp
  · contradiction
  split at hp
  · contradiction
  · simp_all

theorem utf8_slash_cons (rest : List Char) : utf8 ('/' :: rest) = slash :: utf8 rest := rfl

theorem decode_slash_cons (rest : List Char) : decode ('/' :: rest) = slash :: decode rest :=
  decode_cons (by decide) rest

theorem denotes_slash_cons (rest : List Char) : denotes ('/' :: rest) = .absolute (components (utf8 rest)) := by
  rw [denotes_plain (strip_scheme_slash rest), utf8_slash_cons, ofPath_slash]

theorem head_of_head_utf8 {s : List Char} (h : (utf8 s).head? = some slash) : s.head? = some '/' := by
  cases s with
  | nil => contradiction
  | cons c rest =>
    have hc : (String.utf8EncodeChar c).head? = some slash := by
      rw [utf8_cons, List.head?_append] at h
      cases hencode : String.utf8EncodeChar c with
      | nil => exact absurd hencode String.utf8EncodeChar_ne_nil
      | cons b bs => rwa [hencode] at h
    have hval := head_utf8EncodeChar (by decide) hc
    have hslash : c = '/' := Char.toNat_inj.mp hval
    rw [hslash]
    rfl

/-- A plain name that is neither empty nor the name of the memory nor rooted is relative. -/
theorem denotes_plain_relative {name : List Char} (h : strip scheme name = none) (hne : name ≠ [])
    (hmemory : name ≠ memory) (hroot : name.head? ≠ some '/') :
    denotes name = .relative (components (utf8 name)) := by
  have hne' : ¬ utf8 name = [] := fun hnil => hne (utf8_injective hnil)
  have hmemory' : ¬ utf8 name = utf8 memory := fun heq => hmemory (utf8_injective heq)
  have hroot' : ¬ (utf8 name).head? = some slash := fun hhead => hroot (head_of_head_utf8 hhead)
  rw [denotes_plain h, ofPath, if_neg hne', if_neg hmemory', if_neg hroot']

theorem strip_scheme_of_head {url : List Char} (h : url.head? = some '/') : strip scheme url = none := by
  obtain ⟨rest, rfl⟩ := List.head?_eq_some_iff.mp h
  exact strip_scheme_slash rest

theorem denotes_of_head {url : List Char} (h : url.head? = some '/') :
    denotes url = .absolute (components (utf8 url)) := by
  obtain ⟨rest, rfl⟩ := List.head?_eq_some_iff.mp h
  rw [denotes_slash_cons, utf8_slash_cons, components_slash_cons]

theorem isRelative_plain {name : List Char} (h : strip scheme name = none) :
    (denotes name).IsRelative ↔ name ≠ [] ∧ name ≠ memory ∧ name.head? ≠ some '/' := by
  constructor
  · rintro ⟨path, hpath⟩
    refine ⟨?_, ?_, ?_⟩
    · rintro rfl
      contradiction
    · rintro rfl
      contradiction
    · intro hroot
      rw [denotes_of_head hroot] at hpath
      contradiction
  · intro hname
    exact ⟨_, denotes_plain_relative h hname.1 hname.2.1 hname.2.2⟩

/-! ### URIs -/

theorem denotes_uri (uri : List Char) : denotes (scheme ++ uri) =
    (afterAuthority uri).elim .foreign fun rest => ofPath (decode (rest.takeWhile inPath)) := by
  rw [denotes, strip_append]

theorem tail_uri (uri : List Char) :
    tail (scheme ++ uri) = (afterAuthority uri).elim [] fun rest => rest.dropWhile inPath := by
  rw [tail, strip_append]

theorem afterAuthority_of_strip {uri : List Char} (h : strip "//".toList uri = none) :
    afterAuthority uri = some uri := by
  rw [afterAuthority, h]

theorem afterAuthority_of_head {uri : List Char} (h : uri.head? ≠ some '/') : afterAuthority uri = some uri := by
  apply afterAuthority_of_strip
  apply strip_eq_none_iff.mpr
  rintro rest rfl
  exact h rfl

theorem afterAuthority_slashes (rest : List Char) :
    afterAuthority ('/' :: '/' :: rest) =
      if rest.takeWhile (· ≠ '/') = [] ∨ rest.takeWhile (· ≠ '/') = localhost then
        some (rest.dropWhile (· ≠ '/'))
      else none := by
  have hsome : strip "//".toList ('/' :: '/' :: rest) = some rest := strip_append "//".toList rest
  rw [afterAuthority, hsome]

/-- A URI with a rooted path, unless its two slashes start an authority, names the file at that path. -/
theorem afterAuthority_rooted {text : List Char} (hroot : text.head? = some '/') (htwo : ¬ TwoSlashes text) :
    ∃ rest, afterAuthority text = some ('/' :: rest) ∧ (text = '/' :: rest ∨ text = '/' :: '/' :: '/' :: rest) := by
  obtain ⟨one, rfl⟩ := List.head?_eq_some_iff.mp hroot
  by_cases hone : one.head? = some '/'
  · obtain ⟨two, rfl⟩ := List.head?_eq_some_iff.mp hone
    by_cases htwo' : two.head? = some '/'
    · obtain ⟨three, rfl⟩ := List.head?_eq_some_iff.mp htwo'
      refine ⟨three, ?_, .inr rfl⟩
      rw [afterAuthority_slashes]
      simp
    · exact absurd ⟨two, rfl, htwo'⟩ htwo
  · refine ⟨one, ?_, .inl rfl⟩
    apply afterAuthority_of_strip
    apply strip_eq_none_iff.mpr
    intro rest h
    rw [(List.cons.inj h).2] at hone
    exact hone rfl

theorem decode_takeWhile_slash (rest : List Char) :
    decode (('/' :: rest).takeWhile inPath) = slash :: decode (rest.takeWhile inPath) := by
  rw [List.takeWhile_cons_of_pos (by decide), decode_slash_cons]

theorem denotes_uri_rooted {text : List Char} (hroot : text.head? = some '/') (htwo : ¬ TwoSlashes text) :
    denotes (scheme ++ text) = .absolute (components (decode (text.takeWhile inPath))) := by
  obtain ⟨rest, hafter, rfl | rfl⟩ := afterAuthority_rooted hroot htwo
  · rw [denotes_uri, hafter, Option.elim_some, decode_takeWhile_slash, ofPath_slash, components_slash_cons]
  · rw [denotes_uri, hafter, Option.elim_some, decode_takeWhile_slash, ofPath_slash, decode_takeWhile_slash,
      decode_takeWhile_slash, decode_takeWhile_slash, components_slash_cons, components_slash_cons,
      components_slash_cons]

theorem tail_uri_rooted {text : List Char} (hroot : text.head? = some '/') (htwo : ¬ TwoSlashes text) :
    tail (scheme ++ text) = text.dropWhile inPath := by
  obtain ⟨rest, hafter, rfl | rfl⟩ := afterAuthority_rooted hroot htwo
  · rw [tail_uri, hafter]
    rfl
  · rw [tail_uri, hafter]
    rfl

theorem dropWhile_ne_slash (s : List Char) :
    s.dropWhile (· ≠ '/') = [] ∨ ∃ rest, s.dropWhile (· ≠ '/') = '/' :: rest := by
  induction s with
  | nil => exact .inl rfl
  | cons c s ih =>
    by_cases hc : c = '/'
    · rw [hc, List.dropWhile_cons_of_neg (by decide)]
      exact .inr ⟨s, rfl⟩
    · rwa [List.dropWhile_cons_of_pos (by simpa using hc)]

theorem components_localhost (rest : List Char) :
    components (decode (('/' :: '/' :: (localhost ++ '/' :: rest)).takeWhile inPath)) =
      utf8 localhost :: components (decode (rest.takeWhile inPath)) := by
  have hpath : ('/' :: '/' :: localhost).all inPath := by decide
  have hsplit : ('/' :: '/' :: (localhost ++ '/' :: rest)).takeWhile inPath =
      '/' :: '/' :: localhost ++ '/' :: rest.takeWhile inPath :=
    List.takeWhile_append_of_pos (List.all_eq_true.mp hpath)
  rw [hsplit, decode_append (by decide), decode_slash_cons, components_append_slash]
  rfl

/-- Behind exactly two slashes the first name of the path is taken for an authority. -/
theorem denotes_uri_twoSlashes {text : List Char} (h : TwoSlashes text) :
    denotes (scheme ++ text) ≠ .absolute (components (decode (text.takeWhile inPath))) := by
  obtain ⟨rest, rfl, hrest⟩ := h
  rw [denotes_uri, afterAuthority_slashes]
  split
  · rename_i hauthority
    rcases dropWhile_ne_slash rest with hdrop | ⟨after, hdrop⟩
    · rw [hdrop]
      intro heq
      contradiction
    · have hparts := List.takeWhile_append_dropWhile (p := (· ≠ '/')) (l := rest)
      have hlocal : rest = localhost ++ '/' :: after := by
        rcases hauthority with hempty | hlocal
        · rw [hempty, hdrop] at hparts
          rw [← hparts] at hrest
          exact absurd rfl hrest
        · rw [← hparts, hlocal, hdrop]
      rw [hdrop, hlocal, components_localhost, Option.elim_some, decode_takeWhile_slash, ofPath_slash]
      intro heq
      have hlen := congrArg List.length (Target.absolute.inj heq)
      simp at hlen
  · intro heq
    contradiction

theorem head_afterAuthority {uri rest : List Char} (hroot : uri.head? = some '/')
    (h : afterAuthority uri = some rest) : rest = [] ∨ ∃ after, rest = '/' :: after := by
  by_cases htwo : TwoSlashes uri
  · obtain ⟨authority, rfl, -⟩ := htwo
    rw [afterAuthority_slashes] at h
    split at h
    · rw [← Option.some.inj h]
      exact dropWhile_ne_slash authority
    · contradiction
  · obtain ⟨after, hafter, -⟩ := afterAuthority_rooted hroot htwo
    rw [h] at hafter
    exact .inr ⟨after, Option.some.inj hafter⟩

theorem denotes_uri_of_afterAuthority {uri rest : List Char} (h : afterAuthority uri = some ('/' :: rest)) :
    denotes (scheme ++ uri) = .absolute (components (decode (rest.takeWhile inPath))) := by
  rw [denotes_uri, h, Option.elim_some, decode_takeWhile_slash, ofPath_slash]

theorem not_isRelative_rooted {uri : List Char} (hroot : uri.head? = some '/') :
    ¬ (denotes (scheme ++ uri)).IsRelative := by
  rintro ⟨path, hpath⟩
  cases hafter : afterAuthority uri with
  | none =>
    rw [denotes_uri, hafter] at hpath
    contradiction
  | some rest =>
    rcases head_afterAuthority hroot hafter with rfl | ⟨after, rfl⟩
    · rw [denotes_uri, hafter] at hpath
      contradiction
    · rw [denotes_uri_of_afterAuthority hafter] at hpath
      contradiction

end SqliteName
