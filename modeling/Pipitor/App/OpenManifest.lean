import Pipitor.App.DatabaseUri
import Pipitor.Foundation.Fallible

/-!
# Opening the manifest

`Opt::open_manifest`: the manifest file is searched for, parsed by its extension, and the database's name in
it is resolved. The resolver takes the base for a directory, and what it is given here is the path of the
manifest file.
-/

namespace Pipitor

open SqliteName Fallible

/-- `io::ErrorKind`, as far as it is looked at. -/
inductive IoErrorKind
  | notFound
  | other
deriving DecidableEq

/-- What `open_manifest` asks the file system and the parsers for; `dhall` is there if the feature is. -/
structure Files where
  metadata : String → Except IoErrorKind Unit
  read : String → Except IoErrorKind (List UInt8)
  json : List UInt8 → Except String Manifest
  toml : List UInt8 → Except String Manifest
  dhall : Option (String → Except String Manifest)

inductive Cause
  | io (kind : IoErrorKind)
  | parse (message : String)

structure OpenError where
  context : String
  cause : Cause

structure Opt where
  manifestPath : Option String

/-- `Manifest::resolve_paths`. -/
def Manifest.resolvePaths (m : Manifest) (base : String) : Manifest :=
  match m.databaseUrl.bind fun path => resolveDatabaseUri path.toList base.toList with
  | some new => { m with databaseUrl := some (String.ofList new) }
  | none => m

/-! ### Paths -/

/-- `Path::file_name`. -/
def fileName (path : List Char) : Option (List Char) :=
  ((path.splitOn '/').filter fun name => name ≠ [] ∧ name ≠ ['.']).getLast?.filter (· ≠ ['.', '.'])

/-- `Path::extension`: what follows the last dot, if something precedes it. -/
def extension (path : List Char) : Option (List Char) := do
  let name ← fileName path
  let after := name.reverse.takeWhile (· ≠ '.')
  if after.length + 1 < name.length then some after.reverse else none

/-! ### The file -/

namespace Opt

/-- `search_manifest`. -/
def searchManifest {α : Type} (opt : Opt) (dhall : Bool) (f : String → Except IoErrorKind α) :
    Except IoErrorKind (α × String) :=
  match opt.manifestPath with
  | some path => (f path).map (·, path)
  | none =>
    match f "Pipitor.toml" with
    | .ok t => .ok (t, "Pipitor.toml")
    | .error .notFound =>
      match f "Pipitor.json" with
      | .ok t => .ok (t, "Pipitor.json")
      | .error .notFound =>
        if dhall then (f "Pipitor.dhall").map (·, "Pipitor.dhall") else .error .notFound
      | .error e => .error e
    | .error e => .error e

/-- The manifest as it is parsed, with the path of its file. -/
def readManifest (opt : Opt) (files : Files) : Except OpenError (String × Manifest) := do
  let (_, path) ← (opt.searchManifest files.dhall.isSome files.metadata).mapError
    fun e => ⟨"unable to access the manifest", .io e⟩
  let fromSlice (parser : List UInt8 → Except String Manifest) : Except OpenError Manifest := do
    let buf ← (files.read path).mapError fun e => ⟨"could not open the manifest", .io e⟩
    (parser buf).mapError fun e => ⟨"failed to parse the manifest", .parse e⟩
  let manifest ←
    if extension path.toList = some "json".toList then fromSlice files.json
    else if extension path.toList = some "dhall".toList then
      match files.dhall with
      | some fromFile => (fromFile path).mapError fun e => ⟨"failed to parse the manifest", .parse e⟩
      | none => fromSlice files.toml
    else fromSlice files.toml
  return (path, manifest)

def openManifest (opt : Opt) (files : Files) : Except OpenError Manifest := do
  let (path, manifest) ← opt.readManifest files
  return manifest.resolvePaths path

end Opt

theorem databaseUrl_resolvePaths {m : Manifest} {url : String} (base : String) (h : m.databaseUrl = some url) :
    (m.resolvePaths base).databaseUrl =
      some (((resolveDatabaseUri url.toList base.toList).map String.ofList).getD url) := by
  unfold Manifest.resolvePaths
  rw [h, Option.bind_some]
  cases resolveDatabaseUri url.toList base.toList with
  | none => exact h
  | some new => rfl

theorem openManifest_of_readManifest {opt : Opt} {files : Files} {path : String} {parsed : Manifest}
    (h : opt.readManifest files = .ok (path, parsed)) : opt.openManifest files = .ok (parsed.resolvePaths path) := by
  rw [Opt.openManifest, h]
  rfl

/-! ### Where the database is to be -/

/-- A path with a name at its end. -/
def NamesFile (path : List Char) : Prop := path ≠ [] ∧ path.getLast? ≠ some '/'

/-- The file in the directory of another one. -/
def beside (path : List Char) (file : List (List UInt8)) : Target :=
  if isAbsolute path then .absolute ((components (utf8 path)).dropLast ++ file)
  else .relative ((components (utf8 path)).dropLast ++ file)

/-- A name with a file as one of its directories. -/
def Below (path new : List Char) : Prop := ∃ rest, new = path ++ '/' :: rest ∨ new = scheme ++ (path ++ '/' :: rest)

/-- A relative name has come to mean the file of that name beside the manifest, and an absolute one or the
memory is as it was. -/
structure Located (path url new : List Char) : Prop where
  relative : ∀ file, denotes url = .relative file → denotes new = beside path file ∧ ¬ Below path new
  rooted : (∃ file, denotes url = .absolute file) ∨ denotes url = .inMemory → new = url

/-- The names that opening the manifest does not spoil: those that are not relative and, if they are URIs of
an absolute file, are written with a slash at the start of the path, and if they are the memory are not URIs. -/
def LeftAlone (url : List Char) : Prop :=
  ¬ (denotes url).IsRelative ∧
    ((∃ file, denotes url = .absolute file) ∨ denotes url = .inMemory →
      ∀ uri, url = scheme ++ uri → (afterAuthority uri).bind List.head? = some '/')

theorem asDirectory_of_namesFile {path : List Char} (h : NamesFile path) : asDirectory path = path ++ ['/'] := by
  apply if_neg
  intro hnot
  exact hnot.elim h.1 h.2

/-- A relative name is put below the path of the manifest file itself. -/
theorem resolveDatabaseUri_of_isRelative {url : List Char} (path : List Char) (h : (denotes url).IsRelative) :
    resolveDatabaseUri url path = some (asDirectory path ++ url) ∨
      ∃ uri, resolveDatabaseUri url path = some (scheme ++ (asDirectory path ++ uri)) := by
  cases hscheme : strip scheme url with
  | none => exact .inl (resolveDatabaseUri_plain_relative path hscheme h)
  | some uri =>
    obtain rfl := strip_eq_some_iff.mp hscheme
    have hroot : uri.head? ≠ some '/' := fun hroot => not_isRelative_rooted hroot h
    exact .inr ⟨uri, resolveDatabaseUri_relative path hroot⟩

theorem exists_below {url path : List Char} (hpath : NamesFile path) (h : (denotes url).IsRelative) :
    ∃ new, resolveDatabaseUri url path = some new ∧ Below path new := by
  have hdirectory := asDirectory_of_namesFile hpath
  rcases resolveDatabaseUri_of_isRelative path h with hsome | ⟨uri, hsome⟩
  · refine ⟨_, hsome, url, .inl ?_⟩
    rw [hdirectory, List.append_assoc, List.singleton_append]
  · refine ⟨_, hsome, uri, .inr ?_⟩
    rw [hdirectory, List.append_assoc, List.singleton_append]

theorem denotes_of_afterAuthority_ne {uri : List Char} (hroot : uri.head? = some '/')
    (h : (afterAuthority uri).bind List.head? ≠ some '/') :
    denotes (scheme ++ uri) = .foreign ∨ denotes (scheme ++ uri) = .temporary := by
  cases hafter : afterAuthority uri with
  | none =>
    left
    rw [denotes_uri, hafter]
    rfl
  | some rest =>
    rcases head_afterAuthority hroot hafter with rfl | ⟨after, rfl⟩
    · right
      rw [denotes_uri, hafter]
      rfl
    · rw [hafter] at h
      exact absurd rfl h

theorem located_iff {path url : List Char} (hpath : NamesFile path) :
    Located path url ((resolveDatabaseUri url path).getD url) ↔ LeftAlone url := by
  constructor
  · intro h
    refine ⟨?_, ?_⟩
    · rintro ⟨file, hfile⟩
      obtain ⟨new, hsome, hbelow⟩ := exists_below hpath ⟨file, hfile⟩
      rw [hsome] at h
      exact (h.relative file hfile).2 hbelow
    · rintro hrooted uri rfl
      by_contra hslash
      have hsame := h.rooted hrooted
      have hroot : uri.head? ≠ some '/' := by
        intro hroot
        rcases denotes_of_afterAuthority_ne hroot hslash with hdenotes | hdenotes
        · simp [hdenotes] at hrooted
        · simp [hdenotes] at hrooted
      rw [resolveDatabaseUri_relative path hroot, asDirectory_of_namesFile hpath, Option.getD_some] at hsame
      have hlen := congrArg List.length hsame
      simp only [List.length_append, List.length_singleton] at hlen
      omega
  · intro h
    refine ⟨fun file hfile => absurd ⟨file, hfile⟩ h.1, ?_⟩
    intro hrooted
    cases hscheme : strip scheme url with
    | none =>
      have hempty : url ≠ [] := by
        rintro rfl
        rcases hrooted with ⟨file, hfile⟩ | hmemory
        · contradiction
        · contradiction
      rw [resolveDatabaseUri_plain_none path hscheme hempty h.1]
      rfl
    | some uri =>
      obtain rfl := strip_eq_some_iff.mp hscheme
      obtain ⟨rest, hafter, hhead⟩ := Option.bind_eq_some_iff.mp (h.2 hrooted uri rfl)
      obtain ⟨after, rfl⟩ := List.head?_eq_some_iff.mp hhead
      rw [(resolvesRelative_of_slash path hafter).none_iff.mpr h.1]
      rfl

/-- After the manifest is opened its database is where it is to be just if opening it left the name alone. -/
theorem openManifest_located_iff {opt : Opt} {files : Files} {path url : String} {parsed : Manifest}
    (hread : opt.readManifest files = .ok (path, parsed)) (hurl : parsed.databaseUrl = some url)
    (hpath : NamesFile path.toList) :
    (∃ m new, opt.openManifest files = .ok m ∧ m.databaseUrl = some new ∧
      Located path.toList url.toList new.toList) ↔ LeftAlone url.toList := by
  rw [← located_iff hpath]
  have hnew : (((resolveDatabaseUri url.toList path.toList).map String.ofList).getD url).toList =
      (resolveDatabaseUri url.toList path.toList).getD url.toList := by
    cases resolveDatabaseUri url.toList path.toList with
    | none => rfl
    | some new => exact String.toList_ofList
  constructor
  · rintro ⟨m, new, hopen, hm, hlocated⟩
    rw [openManifest_of_readManifest hread] at hopen
    rw [← Except.ok.inj hopen, databaseUrl_resolvePaths path hurl] at hm
    rwa [← Option.some.inj hm, hnew] at hlocated
  · intro hlocated
    refine ⟨_, _, openManifest_of_readManifest hread, databaseUrl_resolvePaths path hurl, ?_⟩
    rwa [hnew]

/-- A file system with one manifest, which names a database. -/
def oneManifest (path databaseUrl : String) : Files where
  metadata p := if p = path then .ok () else .error .notFound
  read p := if p = path then .ok [] else .error .notFound
  json _ := .error "expected value"
  toml _ := .ok { databaseUrl := some databaseUrl, rule := [], websub := none, twitter := none, skipDuplicate := false }
  dhall := none

theorem openManifest_located_iff_at :
    (∃ m new, Opt.openManifest ⟨some "conf/Pipitor.toml"⟩ (oneManifest "conf/Pipitor.toml" "/var/db") = .ok m ∧
      m.databaseUrl = some new ∧ Located "conf/Pipitor.toml".toList "/var/db".toList new.toList) ↔
    LeftAlone "/var/db".toList :=
  @openManifest_located_iff ⟨some "conf/Pipitor.toml"⟩ (oneManifest "conf/Pipitor.toml" "/var/db") _ _ _
    rfl rfl ⟨by decide, by decide⟩

/-- The database of the documented configuration, in a manifest that is found by its default name, is put below
the manifest file. -/
theorem not_located_default :
    (∃ m, Opt.openManifest ⟨none⟩ (oneManifest "Pipitor.toml" "pipitor.sqlite3") = .ok m ∧
      m.databaseUrl = some "Pipitor.toml/pipitor.sqlite3") ∧
    denotes "pipitor.sqlite3".toList = .relative [utf8 "pipitor.sqlite3".toList] ∧
    denotes "Pipitor.toml/pipitor.sqlite3".toList =
      .relative [utf8 "Pipitor.toml".toList, utf8 "pipitor.sqlite3".toList] ∧
    beside "Pipitor.toml".toList [utf8 "pipitor.sqlite3".toList] = .relative [utf8 "pipitor.sqlite3".toList] ∧
    ¬ Located "Pipitor.toml".toList "pipitor.sqlite3".toList "Pipitor.toml/pipitor.sqlite3".toList := by
  have hrelative : denotes "pipitor.sqlite3".toList = .relative [utf8 "pipitor.sqlite3".toList] := by decide
  refine ⟨⟨_, rfl, by decide⟩, hrelative, by decide, by decide, ?_⟩
  intro h
  exact (h.relative _ hrelative).2 ⟨"pipitor.sqlite3".toList, .inl rfl⟩

end Pipitor
