import Pipitor.Foundation.SqliteName
import Pipitor.Manifest

/-!
# The database's name from another directory

`resolve_path` and `resolve_database_uri` of `manifest.rs`: the name of a database, which the manifest may
give as a path or as a `file:` URI, rewritten for a base directory. It is to do so for the names of relative
files only, and to name the same file.
-/

namespace Pipitor

open SqliteName

/-! ### Paths -/

/-- `Path::is_absolute`, on Unix. -/
def isAbsolute (path : List Char) : Bool := path.head? == some '/'

/-- `Path::join`. -/
def joinPath (base path : List Char) : List Char :=
  if isAbsolute path then path
  else if base = [] ∨ base.getLast? = some '/' then base ++ path
  else base ++ '/' :: path

def resolvePath (path base : List Char) : Option (List Char) :=
  if isAbsolute path then none else some (joinPath base path)

/-! ### URIs -/

def startsWith (start s : List Char) : Bool := start.isPrefixOf s

/-- Where the query starts, or else the fragment, or else the end of the path. -/
def pathEnd (path : List Char) : ℕ := ((path.idxOf? '?').or (path.idxOf? '#')).getD path.length

def resolveDatabaseUri (uri base : List Char) : Option (List Char) :=
  if startsWith "file:///".toList uri ∨ startsWith "file://localhost/".toList uri ∨
      (strip "file:/".toList uri).elim false (fun s => !startsWith ['/'] s) ∨ uri = ":memory:".toList then
    none
  else if (strip "file:".toList uri).elim false (fun s => !startsWith "//".toList s) then
    let path := uri.drop 5
    let i := pathEnd path
    (resolvePath (path.take i) base).map fun new => "file:".toList ++ new ++ path.drop i
  else resolvePath uri base

/-! ### What the code does with each kind of name -/

theorem isAbsolute_iff {path : List Char} : isAbsolute path = true ↔ path.head? = some '/' := by
  simp [isAbsolute]

theorem resolvePath_of_head {path : List Char} (base : List Char) (h : path.head? ≠ some '/') :
    resolvePath path base = some (joinPath base path) := by
  rw [resolvePath, if_neg (by simpa [isAbsolute] using h)]

/-- The base with the slash that `joinPath` puts behind it. -/
def asDirectory (base : List Char) : List Char :=
  if base = [] ∨ base.getLast? = some '/' then base else base ++ ['/']

theorem joinPath_of_head {path : List Char} (base : List Char) (h : path.head? ≠ some '/') :
    joinPath base path = asDirectory base ++ path := by
  rw [joinPath, if_neg (by simpa [isAbsolute] using h), asDirectory]
  split
  · rfl
  · simp

theorem startsWith_iff {start s : List Char} : startsWith start s = true ↔ ∃ rest, s = start ++ rest := by
  rw [startsWith, List.isPrefixOf_iff_prefix]
  constructor
  · intro h
    obtain ⟨rest, hrest⟩ := h
    exact ⟨rest, hrest.symm⟩
  · intro h
    obtain ⟨rest, hrest⟩ := h
    exact ⟨rest, hrest.symm⟩

theorem not_startsWith_scheme {url : List Char} (start : List Char) (h : strip scheme url = none) :
    ¬ startsWith (scheme ++ start) url = true := by
  intro hstart
  obtain ⟨rest, rfl⟩ := startsWith_iff.mp hstart
  rw [List.append_assoc, strip_append] at h
  exact Option.some_ne_none _ h

theorem resolveDatabaseUri_plain {url : List Char} (base : List Char) (h : strip scheme url = none) :
    resolveDatabaseUri url base = if url = memory then none else resolvePath url base := by
  have hthree : ¬ startsWith "file:///".toList url = true := not_startsWith_scheme "///".toList h
  have hlocal : ¬ startsWith "file://localhost/".toList url = true :=
    not_startsWith_scheme "//localhost/".toList h
  have hone : strip "file:/".toList url = none := by
    apply strip_eq_none_iff.mpr
    intro rest
    exact strip_eq_none_iff.mp h ('/' :: rest)
  have hscheme : strip "file:".toList url = none := h
  by_cases hmemory : url = memory
  · rw [if_pos hmemory]
    exact if_pos (.inr (.inr (.inr hmemory)))
  · have hnot : ¬ (startsWith "file:///".toList url = true ∨ startsWith "file://localhost/".toList url = true ∨
        (none : Option (List Char)).elim false (fun s => !startsWith ['/'] s) = true ∨
        url = ":memory:".toList) := by
      rintro (h | h | h | h)
      · exact hthree h
      · exact hlocal h
      · exact Bool.false_ne_true h
      · exact hmemory h
    unfold resolveDatabaseUri
    rw [hone, hscheme, if_neg hmemory, if_neg hnot]
    exact if_neg Bool.false_ne_true

theorem resolveDatabaseUri_uri (uri base : List Char) :
    resolveDatabaseUri (scheme ++ uri) base =
      if startsWith "///".toList uri ∨ startsWith "//localhost/".toList uri ∨
          (strip ['/'] uri).elim false (fun s => !startsWith ['/'] s) then none
      else if startsWith "//".toList uri then resolvePath (scheme ++ uri) base
      else (resolvePath (uri.take (pathEnd uri)) base).map fun new =>
        scheme ++ new ++ uri.drop (pathEnd uri) := by
  have hmemory : scheme ++ uri ≠ ":memory:".toList := by
    intro h
    exact absurd (List.cons.inj h).1 (by decide)
  have hscheme : strip "file:".toList (scheme ++ uri) = some uri := strip_append scheme uri
  have hthree : startsWith "file:///".toList (scheme ++ uri) = startsWith "///".toList uri := rfl
  have hlocal : startsWith "file://localhost/".toList (scheme ++ uri) = startsWith "//localhost/".toList uri := rfl
  have hone : strip "file:/".toList (scheme ++ uri) = strip ['/'] uri := rfl
  unfold resolveDatabaseUri
  rw [hthree, hlocal, hone, hscheme]
  simp only [hmemory, or_false]
  by_cases hleft : startsWith "///".toList uri = true ∨ startsWith "//localhost/".toList uri = true ∨
      (strip ['/'] uri).elim false (fun s => !startsWith ['/'] s) = true
  · rw [if_pos hleft, if_pos hleft]
  · rw [if_neg hleft, if_neg hleft, Option.elim_some]
    by_cases htwo : startsWith "//".toList uri = true
    · rw [if_pos htwo, htwo]
      rfl
    · rw [if_neg htwo, Bool.eq_false_iff.mpr htwo]
      rfl

theorem resolveDatabaseUri_relative {uri : List Char} (base : List Char) (h : uri.head? ≠ some '/') :
    resolveDatabaseUri (scheme ++ uri) base = some (scheme ++ (asDirectory base ++ uri)) := by
  have hstart (start : List Char) : ¬ startsWith ('/' :: start) uri = true := by
    intro hstart
    obtain ⟨rest, rfl⟩ := startsWith_iff.mp hstart
    exact h rfl
  have hstrip : strip ['/'] uri = none := by
    apply strip_eq_none_iff.mpr
    rintro rest rfl
    exact h rfl
  have hpath : (uri.take (pathEnd uri)).head? ≠ some '/' := by
    intro hhead
    obtain ⟨rest, hrest⟩ := List.head?_eq_some_iff.mp hhead
    have hparts := List.take_append_drop (pathEnd uri) uri
    rw [hrest] at hparts
    rw [← hparts] at h
    exact h rfl
  have hthree := hstart "//".toList
  have hlocal := hstart "/localhost/".toList
  have htwo : ¬ startsWith "//".toList uri = true := hstart ['/']
  have hnot : ¬ (startsWith "///".toList uri = true ∨ startsWith "//localhost/".toList uri = true ∨
      (none : Option (List Char)).elim false (fun s => !startsWith ['/'] s) = true) := by
    rintro (h | h | h)
    · exact hthree h
    · exact hlocal h
    · exact Bool.false_ne_true h
  rw [resolveDatabaseUri_uri, hstrip, if_neg hnot, if_neg htwo, resolvePath_of_head base hpath,
    joinPath_of_head base hpath, Option.map_some, List.append_assoc, List.append_assoc, List.take_append_drop]

theorem resolveDatabaseUri_rooted {uri : List Char} (base : List Char) (hroot : uri.head? = some '/')
    (htwo : ¬ TwoSlashes uri) : resolveDatabaseUri (scheme ++ uri) base = none := by
  obtain ⟨one, rfl⟩ := List.head?_eq_some_iff.mp hroot
  rw [resolveDatabaseUri_uri]
  apply if_pos
  by_cases hone : startsWith ['/'] one = true
  · obtain ⟨two, rfl⟩ := startsWith_iff.mp hone
    by_cases htwo' : two.head? = some '/'
    · obtain ⟨three, rfl⟩ := List.head?_eq_some_iff.mp htwo'
      exact .inl rfl
    · exact absurd ⟨two, rfl, htwo'⟩ htwo
  · have hstrip : strip ['/'] ('/' :: one) = some one := strip_append ['/'] one
    right
    right
    rw [hstrip]
    simpa using hone

theorem resolveDatabaseUri_localhost (base after : List Char) :
    resolveDatabaseUri (scheme ++ ("//localhost/".toList ++ after)) base = none := by
  rw [resolveDatabaseUri_uri]
  apply if_pos
  right
  left
  rfl

theorem resolveDatabaseUri_authority {rest : List Char} (base : List Char) (hrest : rest.head? ≠ some '/')
    (hlocal : ∀ after, rest ≠ "localhost/".toList ++ after) :
    resolveDatabaseUri (scheme ++ '/' :: '/' :: rest) base =
      some (asDirectory base ++ (scheme ++ '/' :: '/' :: rest)) := by
  have hstrip : strip ['/'] ('/' :: '/' :: rest) = some ('/' :: rest) := strip_append ['/'] ('/' :: rest)
  have hnot : ¬ (startsWith "///".toList ('/' :: '/' :: rest) = true ∨
      startsWith "//localhost/".toList ('/' :: '/' :: rest) = true ∨
      (some ('/' :: rest)).elim false (fun s => !startsWith ['/'] s) = true) := by
    rintro (h | h | h)
    · obtain ⟨after, hafter⟩ := startsWith_iff.mp h
      have heq : rest = '/' :: after := by simpa using hafter
      rw [heq] at hrest
      exact hrest rfl
    · obtain ⟨after, hafter⟩ := startsWith_iff.mp h
      exact hlocal after (by simpa using hafter)
    · exact Bool.false_ne_true h
  have hhead : (scheme ++ '/' :: '/' :: rest).head? ≠ some '/' := by
    intro h
    exact absurd (Option.some.inj h) (by decide)
  have htwo : startsWith "//".toList ('/' :: '/' :: rest) = true := rfl
  rw [resolveDatabaseUri_uri, hstrip, if_neg hnot, if_pos htwo, resolvePath_of_head base hhead,
    joinPath_of_head base hhead]

/-! ### Paths below the base -/

theorem exists_asDirectory {base : List Char} (h : base ≠ []) :
    ∃ dir, asDirectory base = dir ++ ['/'] ∧ components (utf8 dir) = components (utf8 base) ∧ dir ⊆ base := by
  unfold asDirectory
  by_cases hlast : base.getLast? = some '/'
  · obtain ⟨dir, rfl⟩ := List.getLast?_eq_some_iff.mp hlast
    refine ⟨dir, if_pos (.inr hlast), ?_, List.subset_append_left dir ['/']⟩
    rw [utf8_append, utf8_slash_cons, components_append_slash, utf8_nil, components_nil, List.append_nil]
  · refine ⟨base, if_neg ?_, rfl, List.Subset.refl base⟩
    exact not_or_intro h hlast

theorem components_below {base : List Char} (h : base ≠ []) (path : List Char) :
    components (utf8 (asDirectory base ++ path)) = components (utf8 base) ++ components (utf8 path) := by
  obtain ⟨dir, hdir, hcomponents, -⟩ := exists_asDirectory h
  rw [hdir, List.append_assoc, List.cons_append, List.nil_append, utf8_append, utf8_slash_cons,
    components_append_slash, hcomponents]

/-- A base that is written the same in a path and in a URI. -/
structure Literal (base : List Char) : Prop where
  ne_nil : base ≠ []
  no_query : '?' ∉ base
  no_fragment : '#' ∉ base
  no_escape : '%' ∉ base

theorem Literal.inPath_asDirectory {base : List Char} (h : Literal base) :
    ∀ c ∈ asDirectory base, inPath c = true := by
  obtain ⟨dir, hdir, -, hsubset⟩ := exists_asDirectory h.ne_nil
  intro c hc
  rw [hdir, List.mem_append, List.mem_singleton] at hc
  rcases hc with hc | rfl
  · have hquery : c ≠ '?' := fun heq => h.no_query (heq ▸ hsubset hc)
    have hfragment : c ≠ '#' := fun heq => h.no_fragment (heq ▸ hsubset hc)
    simp [inPath, hquery, hfragment]
  · rfl

theorem Literal.components_decode {base : List Char} (h : Literal base) (uri : List Char) :
    components (decode ((asDirectory base ++ uri).takeWhile inPath)) =
      components (utf8 base) ++ components (decode (uri.takeWhile inPath)) := by
  obtain ⟨dir, hdir, hcomponents, hsubset⟩ := exists_asDirectory h.ne_nil
  have hescape : '%' ∉ dir := fun hmem => h.no_escape (hsubset hmem)
  rw [List.takeWhile_append_of_pos h.inPath_asDirectory, hdir, List.append_assoc, List.cons_append,
    List.nil_append, decode_append hescape, decode_slash_cons, components_append_slash, hcomponents]

theorem Literal.dropWhile_below {base : List Char} (h : Literal base) (uri : List Char) :
    (asDirectory base ++ uri).dropWhile inPath = uri.dropWhile inPath :=
  List.dropWhile_append_of_pos h.inPath_asDirectory

theorem head_below {base : List Char} (h : base.head? = some '/') (path : List Char) :
    (asDirectory base ++ path).head? = some '/' := by
  obtain ⟨rest, rfl⟩ := List.head?_eq_some_iff.mp h
  unfold asDirectory
  split <;> rfl

theorem twoSlashes_cons {rest : List Char} : TwoSlashes ('/' :: '/' :: rest) ↔ rest.head? ≠ some '/' := by
  constructor
  · rintro ⟨rest', heq, h⟩
    rwa [(List.cons.inj (List.cons.inj heq).2).2]
  · intro h
    exact ⟨rest, rfl, h⟩

theorem not_twoSlashes {c d : Char} (h : d ≠ '/') (rest : List Char) : ¬ TwoSlashes (c :: d :: rest) := by
  rintro ⟨rest', heq, -⟩
  exact h (List.cons.inj (List.cons.inj heq).2).1

theorem twoSlashes_below {base uri : List Char} (hbase : base.head? = some '/') (huri : uri.head? ≠ some '/') :
    TwoSlashes (asDirectory base ++ uri) ↔ TwoSlashes base := by
  obtain ⟨one, rfl⟩ := List.head?_eq_some_iff.mp hbase
  rcases one with _ | ⟨c, two⟩
  · have hroot : ¬ TwoSlashes ['/'] := by
      rintro ⟨rest, heq, -⟩
      simp at heq
    have hjoined : ¬ TwoSlashes ('/' :: uri) := by
      rintro ⟨rest, heq, -⟩
      rw [(List.cons.inj heq).2] at huri
      exact huri rfl
    exact iff_of_false hjoined hroot
  · by_cases hc : c = '/'
    · rcases two with _ | ⟨d, three⟩
      · have hjoined : asDirectory ['/', c] = ['/', c] := if_pos (.inr (by rw [hc]; rfl))
        rw [hjoined, hc, List.cons_append, List.cons_append, List.nil_append, twoSlashes_cons, twoSlashes_cons]
        exact iff_of_true huri (by decide)
      · obtain ⟨more, hmore⟩ : ∃ more, asDirectory ('/' :: c :: d :: three) = '/' :: c :: d :: more := by
          unfold asDirectory
          split
          · exact ⟨three, rfl⟩
          · exact ⟨three ++ ['/'], rfl⟩
        rw [hmore, hc, List.cons_append, List.cons_append, twoSlashes_cons, twoSlashes_cons]
        rfl
    · obtain ⟨more, hmore⟩ : ∃ more, asDirectory ('/' :: c :: two) = '/' :: c :: more := by
        unfold asDirectory
        split
        · exact ⟨two, rfl⟩
        · exact ⟨two ++ ['/'], rfl⟩
      rw [hmore]
      exact iff_of_false (not_twoSlashes hc _) (not_twoSlashes hc _)

/-! ### What the rewriting is for -/

/-- Relative files only are rewritten, to names of the same files with the same query and fragment, which
are left alone from then on. -/
structure ResolvesRelative (url base : List Char) : Prop where
  none_iff : resolveDatabaseUri url base = none ↔ ¬ (denotes url).IsRelative
  redirected : ∀ new, resolveDatabaseUri url base = some new →
    denotes new = (denotes url).seenFrom (components (utf8 base)) ∧ tail new = tail url ∧
      resolveDatabaseUri new base = none

/-- Where the names are spelled so that the code can tell them: a plain name is not empty; a URI has a path
that is written with a slash at its start, or else names a relative file and is resolved from a base that
does not start with exactly two slashes. -/
def Spelled (url base : List Char) : Prop :=
  match strip scheme url with
  | none => url ≠ []
  | some uri => (afterAuthority uri).bind List.head? = some '/' ∨ (denotes url).IsRelative ∧ ¬ TwoSlashes base

theorem spelled_plain {url : List Char} (base : List Char) (h : strip scheme url = none) :
    Spelled url base ↔ url ≠ [] := by
  rw [Spelled, h]

theorem spelled_uri (uri base : List Char) :
    Spelled (scheme ++ uri) base ↔ (afterAuthority uri).bind List.head? = some '/' ∨
      (denotes (scheme ++ uri)).IsRelative ∧ ¬ TwoSlashes base := by
  rw [Spelled, strip_append]

theorem ResolvesRelative.of_none {url base : List Char} (h : resolveDatabaseUri url base = none)
    (hrelative : ¬ (denotes url).IsRelative) : ResolvesRelative url base where
  none_iff := iff_of_true h hrelative
  redirected := by
    intro new hnew
    rw [h] at hnew
    contradiction

theorem not_resolvesRelative {url base new : List Char} (h : resolveDatabaseUri url base = some new)
    (hrelative : ¬ (denotes url).IsRelative) : ¬ ResolvesRelative url base := by
  intro hresolves
  rw [hresolves.none_iff.mpr hrelative] at h
  contradiction

theorem resolveDatabaseUri_of_head {url : List Char} (base : List Char) (h : url.head? = some '/') :
    resolveDatabaseUri url base = none := by
  rw [resolveDatabaseUri_plain base (strip_scheme_of_head h)]
  split
  · rfl
  · exact if_pos (isAbsolute_iff.mpr h)

theorem resolveDatabaseUri_plain_relative {url : List Char} (base : List Char) (h : strip scheme url = none)
    (hrelative : (denotes url).IsRelative) : resolveDatabaseUri url base = some (asDirectory base ++ url) := by
  obtain ⟨-, hmemory, hroot⟩ := (isRelative_plain h).mp hrelative
  rw [resolveDatabaseUri_plain base h, if_neg hmemory, resolvePath_of_head base hroot, joinPath_of_head base hroot]

theorem resolveDatabaseUri_plain_none {url : List Char} (base : List Char) (h : strip scheme url = none)
    (hempty : url ≠ []) (hrelative : ¬ (denotes url).IsRelative) : resolveDatabaseUri url base = none := by
  rw [isRelative_plain h] at hrelative
  by_cases hmemory : url = memory
  · rw [hmemory]
    rfl
  · apply resolveDatabaseUri_of_head
    by_contra hroot
    exact hrelative ⟨hempty, hmemory, hroot⟩

theorem resolvesRelative_plain {url base : List Char} (hbase : base.head? = some '/')
    (h : strip scheme url = none) : ResolvesRelative url base ↔ url ≠ [] := by
  have hne : base ≠ [] := by
    rintro rfl
    contradiction
  by_cases hrelative : (denotes url).IsRelative
  · obtain ⟨hempty, hmemory, hroot⟩ := (isRelative_plain h).mp hrelative
    have hsome := resolveDatabaseUri_plain_relative base h hrelative
    have hbelow := head_below hbase url
    refine iff_of_true ?_ hempty
    constructor
    · rw [hsome]
      exact iff_of_false (Option.some_ne_none _) (fun hnot => hnot hrelative)
    · intro new hnew
      rw [hsome] at hnew
      obtain rfl := Option.some.inj hnew
      refine ⟨?_, ?_, resolveDatabaseUri_of_head base hbelow⟩
      · rw [denotes_of_head hbelow, denotes_plain_relative h hempty hmemory hroot, components_below hne]
        rfl
      · rw [tail_plain h, tail_plain (strip_scheme_of_head hbelow)]
  · by_cases hempty : url = []
    · subst hempty
      have hsome : resolveDatabaseUri [] base = some (joinPath base []) := rfl
      exact iff_of_false (not_resolvesRelative hsome hrelative) (fun hnot => hnot rfl)
    · exact iff_of_true (.of_none (resolveDatabaseUri_plain_none base h hempty hrelative) hrelative) hempty

theorem resolvesRelative_relative {uri base : List Char} (hbase : base.head? = some '/') (hliteral : Literal base)
    (h : uri.head? ≠ some '/') :
    ResolvesRelative (scheme ++ uri) base ↔ (denotes (scheme ++ uri)).IsRelative ∧ ¬ TwoSlashes base := by
  have hsome := resolveDatabaseUri_relative base h
  have hroot := head_below hbase uri
  have hafter := afterAuthority_of_head h
  have hdenotes : denotes (scheme ++ uri) = ofPath (decode (uri.takeWhile inPath)) := by
    rw [denotes_uri, hafter]
    rfl
  by_cases hrelative : (denotes (scheme ++ uri)).IsRelative
  · have hpath := (ofPath_eq_relative (hdenotes ▸ hrelative)).2.2
    have hseen : (denotes (scheme ++ uri)).seenFrom (components (utf8 base)) =
        .absolute (components (decode ((asDirectory base ++ uri).takeWhile inPath))) := by
      rw [hdenotes, hpath, hliteral.components_decode]
      rfl
    by_cases htwo : TwoSlashes base
    · refine iff_of_false ?_ (fun hspelled => hspelled.2 htwo)
      intro hresolves
      have hsame := (hresolves.redirected _ hsome).1
      rw [hseen] at hsame
      exact denotes_uri_twoSlashes ((twoSlashes_below hbase h).mpr htwo) hsame
    · have htwo' : ¬ TwoSlashes (asDirectory base ++ uri) := fun hjoined => htwo ((twoSlashes_below hbase h).mp hjoined)
      refine iff_of_true ?_ ⟨hrelative, htwo⟩
      constructor
      · rw [hsome]
        exact iff_of_false (Option.some_ne_none _) (fun hnot => hnot hrelative)
      · intro new hnew
        rw [hsome] at hnew
        obtain rfl := Option.some.inj hnew
        refine ⟨?_, ?_, resolveDatabaseUri_rooted base hroot htwo'⟩
        · rw [hseen, denotes_uri_rooted hroot htwo']
        · rw [tail_uri_rooted hroot htwo', hliteral.dropWhile_below, tail_uri, hafter]
          rfl
  · exact iff_of_false (not_resolvesRelative hsome hrelative) (fun hspelled => hrelative hspelled.1)

/-- A URI whose path is written with a slash at its start is left alone, behind whichever authority. -/
theorem resolvesRelative_of_slash {uri rest : List Char} (base : List Char)
    (h : afterAuthority uri = some ('/' :: rest)) : ResolvesRelative (scheme ++ uri) base := by
  have hnot : ¬ (denotes (scheme ++ uri)).IsRelative := by
    rintro ⟨path, hpath⟩
    rw [denotes_uri_of_afterAuthority h] at hpath
    exact Target.noConfusion hpath
  by_cases hroot : uri.head? = some '/'
  · by_cases htwo : TwoSlashes uri
    · obtain ⟨authority, rfl, hauthority⟩ := htwo
      have hparts := List.takeWhile_append_dropWhile (p := (· ≠ '/')) (l := authority)
      rw [afterAuthority_slashes] at h
      split at h
      · rename_i hlocal
        rw [Option.some.inj h] at hparts
        rcases hlocal with hempty | hlocal
        · rw [hempty] at hparts
          rw [← hparts] at hauthority
          exact absurd rfl hauthority
        · rw [hlocal] at hparts
          rw [← hparts] at hnot ⊢
          exact .of_none (resolveDatabaseUri_localhost base rest) hnot
      · contradiction
    · exact .of_none (resolveDatabaseUri_rooted base hroot htwo) hnot
  · rw [afterAuthority_of_head hroot] at h
    rw [Option.some.inj h] at hroot
    exact absurd rfl hroot

/-- A URI that has an authority and no path is taken for a plain name. -/
theorem not_resolvesRelative_authority {uri base : List Char} (hroot : uri.head? = some '/')
    (h : afterAuthority uri = some []) : ¬ ResolvesRelative (scheme ++ uri) base := by
  have htwo : TwoSlashes uri := by
    by_contra htwo
    obtain ⟨rest, hrest, -⟩ := afterAuthority_rooted hroot htwo
    rw [h] at hrest
    exact List.cons_ne_nil _ _ (Option.some.inj hrest).symm
  obtain ⟨authority, rfl, hauthority⟩ := htwo
  have hlocal : ∀ after, authority ≠ "localhost/".toList ++ after := by
    rintro after rfl
    have hslash : afterAuthority ('/' :: '/' :: ("localhost/".toList ++ after)) = some ('/' :: after) := rfl
    rw [hslash] at h
    exact List.cons_ne_nil _ _ (Option.some.inj h)
  apply not_resolvesRelative (resolveDatabaseUri_authority base hauthority hlocal)
  rintro ⟨path, hpath⟩
  rw [denotes_uri, h] at hpath
  exact Target.noConfusion hpath

/-- From an absolute base, and unless the name has another host's authority, the resolver does what it is for
just where the names are spelled so that it can tell them. -/
theorem resolvesRelative_iff {url base : List Char} (hbase : base.head? = some '/') (hliteral : Literal base)
    (hforeign : denotes url ≠ .foreign) : ResolvesRelative url base ↔ Spelled url base := by
  cases hscheme : strip scheme url with
  | none => rw [resolvesRelative_plain hbase hscheme, spelled_plain base hscheme]
  | some uri =>
    obtain rfl := strip_eq_some_iff.mp hscheme
    rw [spelled_uri]
    by_cases hroot : uri.head? = some '/'
    · cases hafter : afterAuthority uri with
      | none =>
        rw [denotes_uri, hafter] at hforeign
        exact absurd rfl hforeign
      | some rest =>
        rcases head_afterAuthority hroot hafter with rfl | ⟨after, rfl⟩
        · have htemporary : denotes (scheme ++ uri) = .temporary := by
            rw [denotes_uri, hafter]
            rfl
          refine iff_of_false (not_resolvesRelative_authority hroot hafter) ?_
          rintro (hslash | ⟨⟨path, hpath⟩, -⟩)
          · exact Option.some_ne_none _ hslash.symm
          · rw [htemporary] at hpath
            exact Target.noConfusion hpath
        · exact iff_of_true (resolvesRelative_of_slash base hafter) (.inl rfl)
    · rw [resolvesRelative_relative hbase hliteral hroot, afterAuthority_of_head hroot, Option.bind_some]
      constructor
      · intro h
        exact .inr h
      · rintro (hslash | h)
        · exact absurd hslash hroot
        · exact h

theorem resolvesRelative_iff_at : ResolvesRelative "file:db.sqlite3?mode=ro".toList "/srv".toList ↔
    Spelled "file:db.sqlite3?mode=ro".toList "/srv".toList :=
  resolvesRelative_iff rfl ⟨by decide, by decide, by decide, by decide⟩ (by decide)

/-- The memory, as a URI, becomes a file of that name. -/
theorem not_resolvesRelative_memory :
    "/base".toList.head? = some '/' ∧ Literal "/base".toList ∧
    denotes "file::memory:".toList = .inMemory ∧
    resolveDatabaseUri "file::memory:".toList "/base".toList = some "file:/base/:memory:".toList ∧
    ¬ ResolvesRelative "file::memory:".toList "/base".toList := by
  have hsome : resolveDatabaseUri "file::memory:".toList "/base".toList = some "file:/base/:memory:".toList := by
    decide
  have hmemory : denotes "file::memory:".toList = .inMemory := by decide
  refine ⟨rfl, ⟨by decide, by decide, by decide, by decide⟩, hmemory, hsome, ?_⟩
  apply not_resolvesRelative hsome
  rintro ⟨path, hpath⟩
  rw [hmemory] at hpath
  exact Target.noConfusion hpath

end Pipitor
