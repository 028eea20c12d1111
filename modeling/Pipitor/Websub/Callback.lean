import Mathlib.Algebra.Group.Nat.Defs
import Mathlib.Data.List.TakeWhile
import Pipitor.Foundation.Base64
import Pipitor.Foundation.Machine
import Pipitor.Websub.Hub

/-!
# Callback URIs

The callback of a subscription is the configured URI followed by the id, as `encode_callback_id` of
`websub.rs` writes it; `Service::call` strips the path of the configured URI and reads the rest with
`decode_callback_id`. `Base64Url` and `HttpUri` are what the crates `base64` and `http` document of the
functions that these call.
-/

namespace Pipitor

namespace Uri

/-- `Uri::path`. -/
def path (uri : Uri) : String :=
  match uri.pathAndQuery with
  | none => ""
  | some pathAndQuery =>
    let path := pathAndQuery.toList.takeWhile (· ≠ '?')
    if path.isEmpty then "/" else .ofList path

/-- `Uri::query`. -/
def query (uri : Uri) : Option String :=
  match uri.pathAndQuery with
  | none => none
  | some pathAndQuery => match pathAndQuery.toList.dropWhile (· ≠ '?') with
    | [] => none
    | _ :: query => some (.ofList query)

theorem path_eq {uri : Uri} {p : String} (h : uri.pathAndQuery = some p) (hne : p.toList ≠ [])
    (hquery : ∀ c ∈ p.toList, c ≠ '?') : uri.path = p := by
  have htake : p.toList.takeWhile (· ≠ '?') = p.toList :=
    List.takeWhile_eq_self_iff.mpr fun c hc => by simpa using hquery c hc
  unfold path
  rw [h]
  dsimp only
  rw [htake, if_neg (by simpa using hne), String.ofList_toList]

theorem query_eq_none_iff {uri : Uri} {p : String} (h : uri.pathAndQuery = some p) :
    uri.query = none ↔ ∀ c ∈ p.toList, c ≠ '?' := by
  unfold query
  rw [h]
  dsimp only
  cases hdrop : p.toList.dropWhile (· ≠ '?') with
  | nil =>
    rw [List.dropWhile_eq_nil_iff] at hdrop
    simpa using hdrop
  | cons c rest =>
    have hne : ¬ p.toList.dropWhile (· ≠ '?') = [] := by rw [hdrop]; exact List.cons_ne_nil c rest
    rw [List.dropWhile_eq_nil_iff] at hne
    simpa using hne

end Uri

namespace Websub

/-- `str::strip_prefix`. -/
def stripPrefix (s start : String) : Option String :=
  (start.toList.isPrefixOf? s.toList).map .ofList

theorem stripPrefix_append (start rest : String) : stripPrefix (start ++ rest) start = some rest := by
  unfold stripPrefix
  rw [String.toList_append, List.isPrefixOf?_eq_some_iff_append_eq.mpr rfl]
  simp

/-! ### The decoder -/

/-- A panic: the decoded bytes do not fit into the buffer. -/
structure BufferTooSmall where
deriving DecidableEq, Repr

/-- `base64::decode_config_slice`: the number of bytes that are written, and the buffer. -/
def decodeConfigSlice (decode : String → Option (List UInt8)) (input : String) (buf : List UInt8) :
    Except BufferTooSmall (Option (ℕ × List UInt8)) :=
  match decode input with
  | none => .ok none
  | some bytes =>
    if bytes.length ≤ buf.length then .ok (some (bytes.length, bytes ++ buf.drop bytes.length))
    else .error ⟨⟩

/-- `u64::from_le_bytes`. -/
def fromLeBytes (bytes : List UInt8) : UInt64 := .ofNat (bytes.foldr (fun b n => b.toNat + 256 * n) 0)

def decodeCallbackId (decode : String → Option (List UInt8)) (id : String) :
    Except BufferTooSmall (Option UInt64) :=
  if 11 < id.utf8ByteSize then .ok none
  else match decodeConfigSlice decode id (.replicate 9 0) with
  | .error e => .error e
  | .ok none => .ok none
  | .ok (some (n, buf)) => if 8 < n then .ok none else .ok (some (fromLeBytes (buf.take 8)))

/-! ### The libraries -/

/-- What `base64` documents of `URL_SAFE_NO_PAD`. -/
structure Base64Url (encode : List UInt8 → String) (decode : String → Option (List UInt8)) : Prop where
  alphabet : ∀ bytes, ∀ c ∈ (encode bytes).toList, Base64.IsUrlSafe c
  length : ∀ bytes, (encode bytes).utf8ByteSize = (4 * bytes.length + 2) / 3
  decode_encode : ∀ bytes, decode (encode bytes) = some bytes

theorem base64Url_encode :
    Base64Url (fun bytes => .ofList (Base64.encode bytes)) (fun s => Base64.decode s.toList) where
  alphabet bytes c hc := Base64.isUrlSafe_encode bytes c (by simpa using hc)
  length := Base64.utf8ByteSize_encode
  decode_encode bytes := by simp [Base64.decode_encode]

/-- What `http` documents of `Uri`: an absolute URI has an authority and a path, a path stays one when
characters that a path may have are appended, and a scheme, an authority and a path make a URI. -/
structure HttpUri (lib : Libraries) (parse : String → Except String Uri) : Prop where
  absolute : ∀ s uri, parse s = .ok uri → uri.scheme.isSome = true → uri.authority.isSome = true ∧
    ∃ p, uri.pathAndQuery = some p ∧ p ≠ "" ∧ lib.isPathAndQuery p = true
  append : ∀ p t, lib.isPathAndQuery p = true →
    (∀ c ∈ t.toList, c = '/' ∨ Base64.IsUrlSafe c) → lib.isPathAndQuery (p ++ t) = true
  fromParts : ∀ uri : Uri, uri.scheme.isSome = true → uri.authority.isSome = true →
    uri.pathAndQuery.isSome = true → lib.isUriParts uri = true

/-! ### The round trip of an id -/

theorem toLeBytes_length (id : Int64) : (toLeBytes id).length = 8 := rfl

theorem fromLeBytes_toLeBytes (id : Int64) : fromLeBytes (toLeBytes id) = id.toUInt64 := by
  have hlt := id.toUInt64.toNat_lt
  apply UInt64.toNat_inj.mp
  unfold fromLeBytes toLeBytes
  simp only [List.range, List.range.loop, List.map_cons, List.map_nil, List.foldr_cons, List.foldr_nil,
    UInt64.toNat_toUInt8, UInt64.toNat_shiftRight, UInt64.toNat_ofNat', Nat.shiftRight_eq_div_pow]
  simp
  omega

theorem take_append_zeroes (bytes : List UInt8) :
    ∃ i ≤ bytes.length, (bytes.reverse.findIdx? (· ≠ 0)).getD bytes.length = i ∧
      bytes.take (bytes.length - i) ++ List.replicate i 0 = bytes := by
  have hzero : ∀ i ≤ bytes.length, (∀ j, (h : j < i) → (hj : j < bytes.reverse.length) →
      bytes.reverse[j] = 0) → bytes.take (bytes.length - i) ++ List.replicate i 0 = bytes := by
    intro i hi hall
    have hdrop : bytes.drop (bytes.length - i) = List.replicate i 0 := by
      refine List.eq_replicate_iff.mpr ⟨by simp; omega, fun b hb => ?_⟩
      rw [← List.mem_reverse, ← List.take_reverse] at hb
      obtain ⟨j, hj, rfl⟩ := List.mem_take_iff_getElem.mp hb
      exact hall j (by omega) (by omega)
    rw [← hdrop, List.take_append_drop]
  cases hfind : bytes.reverse.findIdx? (· ≠ 0) with
  | none =>
    refine ⟨bytes.length, le_refl _, rfl, hzero _ (le_refl _) fun j _ hj => ?_⟩
    simpa using List.findIdx?_eq_none_iff.mp hfind _ (List.getElem_mem hj)
  | some i =>
    obtain ⟨hi, -, hbefore⟩ := List.findIdx?_eq_some_iff_getElem.mp hfind
    rw [List.length_reverse] at hi
    refine ⟨i, hi.le, rfl, hzero i hi.le fun j hj _ => ?_⟩
    simpa using hbefore j hj

variable {lib : Libraries} {decode : String → Option (List UInt8)}

theorem decode_encodeCallbackId (hbase64 : Base64Url lib.base64 decode) {bytes : List UInt8}
    (hlength : bytes.length = 8) :
    decodeCallbackId decode (encodeCallbackId lib bytes) = .ok (some (fromLeBytes bytes)) := by
  obtain ⟨i, hi, hstrip, hbytes⟩ := take_append_zeroes bytes
  have hshort : (bytes.take (bytes.length - i)).length = 8 - i := by
    rw [List.length_take]
    omega
  unfold encodeCallbackId decodeCallbackId decodeConfigSlice
  dsimp only
  rw [hstrip, hbase64.length, hbase64.decode_encode, hshort, if_neg (by omega)]
  dsimp only
  rw [List.length_replicate, hshort, if_pos (by omega)]
  dsimp only
  rw [if_neg (by omega), List.drop_replicate, show 9 - (8 - i) = i + 1 by omega, List.replicate_succ',
    ← List.append_assoc, hbytes, List.take_left' hlength]

/-- A URI to which ids may be appended: absolute, without a query, its path ending with a slash. -/
structure IsCallbackPrefix (lib : Libraries) (uri : Uri) (p : String) : Prop where
  scheme : uri.scheme.isSome = true
  authority : uri.authority.isSome = true
  path : uri.pathAndQuery = some p
  valid : lib.isPathAndQuery p = true
  no_query : ∀ c ∈ p.toList, c ≠ '?'
  nonempty : p.toList ≠ []

namespace IsCallbackPrefix

variable {parse : String → Except String Uri} {uri : Uri} {p : String}

theorem path_eq (h : IsCallbackPrefix lib uri p) : uri.path = p := Uri.path_eq h.path h.nonempty h.no_query

theorem makeCallback (h : IsCallbackPrefix lib uri p) (hbase64 : Base64Url lib.base64 decode)
    (hhttp : HttpUri lib parse) (id : Int64) : makeCallback lib uri id =
      .ok { uri with pathAndQuery := some (p ++ encodeCallbackId lib (toLeBytes id)) } := by
  have hpath : lib.isPathAndQuery (p ++ encodeCallbackId lib (toLeBytes id)) = true :=
    hhttp.append p _ h.valid fun c hc => Or.inr (hbase64.alphabet _ c hc)
  unfold Websub.makeCallback
  rw [h.path]
  dsimp only
  rw [hpath, hhttp.fromParts { uri with pathAndQuery := some _ } h.scheme h.authority rfl]
  rfl

theorem callback_path (h : IsCallbackPrefix lib uri p) (hbase64 : Base64Url lib.base64 decode) (id : Int64) :
    Uri.path { uri with pathAndQuery := some (p ++ encodeCallbackId lib (toLeBytes id)) } =
      uri.path ++ encodeCallbackId lib (toLeBytes id) := by
  rw [h.path_eq]
  refine Uri.path_eq rfl ?_ ?_
  · rw [String.toList_append]
    simp [h.nonempty]
  · intro c hc
    rw [String.toList_append, List.mem_append] at hc
    rcases hc with hc | hc
    · exact h.no_query c hc
    · rintro rfl
      have hsafe := hbase64.alphabet _ _ hc
      revert hsafe
      decide

end IsCallbackPrefix

theorem encodeCallbackId_injective (hbase64 : Base64Url lib.base64 decode) {id id' : Int64}
    (h : encodeCallbackId lib (toLeBytes id) = encodeCallbackId lib (toLeBytes id')) : id = id' := by
  have hid := decode_encodeCallbackId hbase64 (toLeBytes_length id)
  rw [h, decode_encodeCallbackId hbase64 (toLeBytes_length id'), fromLeBytes_toLeBytes,
    fromLeBytes_toLeBytes] at hid
  have heq : id'.toUInt64 = id.toUInt64 := by simpa using hid
  simpa using (congrArg UInt64.toInt64 heq).symm

theorem tryIntoI64_toUInt64 {id : Int64} (h : 0 ≤ id) : Machine.tryIntoI64 id.toUInt64 = some id := by
  have hlt : id.toUInt64.toNat < 2 ^ 63 := by
    have hnat := Machine.toNat_toUInt64 h
    have hmax := id.toInt_lt
    omega
  unfold Machine.tryIntoI64
  rw [if_pos hlt]
  rfl

end Websub

end Pipitor
