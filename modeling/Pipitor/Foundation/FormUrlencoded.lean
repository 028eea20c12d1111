import Mathlib.Data.List.Basic
import Mathlib.Data.Nat.Notation
import Pipitor.Foundation.Hex

/-!
# `application/x-www-form-urlencoded`

A text of names and values, `name=value` each, with `&` in between. The bytes of their UTF-8 stand for
themselves where they are letters, digits or one of `*-._`, a space is a plus sign, and the others are
percent-encoded. A reader takes whatever it is given: an empty part is skipped, a part without `=` is a name
without a value, and a percent sign that no two digits follow stands for itself. `parse_serialize` is the
round trip, for a reader that decodes UTF-8 where it is valid.
-/

namespace FormUrlencoded

/-- `&`, which separates the pairs. -/
def ampersand : UInt8 := 0x26

/-- `=`, which separates a name from its value. -/
def equals : UInt8 := 0x3d

/-! ### Bytes -/

/-- The bytes that stand for themselves. -/
def isUnreserved (b : UInt8) : Bool :=
  (0x61 ≤ b && b ≤ 0x7a) || (0x41 ≤ b && b ≤ 0x5a) || (0x30 ≤ b && b ≤ 0x39) ||
    b = 0x2a || b = 0x2d || b = 0x2e || b = 0x5f

/-- An upper-case hexadecimal digit. -/
def hexDigit (n : ℕ) : UInt8 := if n < 10 then .ofNat (0x30 + n) else .ofNat (0x37 + n)

def encodeByte (b : UInt8) : List UInt8 :=
  if isUnreserved b then [b]
  else if b = 0x20 then [0x2b]
  else [0x25, hexDigit (b.toNat / 16), hexDigit (b.toNat % 16)]

def encode (bytes : List UInt8) : List UInt8 := bytes.flatMap encodeByte

/-- The byte that a percent sign and two digits stand for. -/
def decodeDigits (high low : UInt8) : Option UInt8 :=
  match Hex.value high, Hex.value low with
  | some high, some low => some (.ofNat (16 * high + low))
  | _, _ => none

def decode : List UInt8 → List UInt8
  | [] => []
  | b :: rest =>
    if b = 0x2b then 0x20 :: decode rest
    else if b = 0x25 then
      match rest with
      | high :: low :: rest' => match decodeDigits high low with
        | some b => b :: decode rest'
        | none => 0x25 :: decode (high :: low :: rest')
      | rest => 0x25 :: decode rest
    else b :: decode rest

theorem decodeDigits_hexDigit (b : UInt8) :
    decodeDigits (hexDigit (b.toNat / 16)) (hexDigit (b.toNat % 16)) = some b := by
  have hdigit : ∀ n < 16, Hex.value (hexDigit n) = some n := by decide
  have hlt := b.toNat_lt
  unfold decodeDigits
  rw [hdigit _ (by omega), hdigit _ (by omega)]
  dsimp only
  rw [Nat.div_add_mod, UInt8.ofNat_toNat]

theorem decode_of_ne {b : UInt8} (hplus : b ≠ 0x2b) (hpercent : b ≠ 0x25) (rest : List UInt8) :
    decode (b :: rest) = b :: decode rest := by
  rcases rest with _ | ⟨high, _ | ⟨low, rest⟩⟩ <;> simp [decode, hplus, hpercent]

theorem decode_plus (rest : List UInt8) : decode (0x2b :: rest) = 0x20 :: decode rest := by
  rcases rest with _ | ⟨high, _ | ⟨low, rest⟩⟩ <;> simp [decode]

theorem decode_percent {high low b : UInt8} (h : decodeDigits high low = some b) (rest : List UInt8) :
    decode (0x25 :: high :: low :: rest) = b :: decode rest := by
  rw [decode, if_neg (by decide), if_pos rfl, h]

theorem decode_encodeByte (b : UInt8) (rest : List UInt8) :
    decode (encodeByte b ++ rest) = b :: decode rest := by
  unfold encodeByte
  by_cases hun : isUnreserved b = true
  · have hplain : b ≠ 0x2b ∧ b ≠ 0x25 := by
      refine ⟨?_, ?_⟩
      · rintro rfl
        revert hun
        decide
      · rintro rfl
        revert hun
        decide
    rw [if_pos hun, List.singleton_append, decode_of_ne hplain.1 hplain.2]
  · rw [if_neg hun]
    by_cases hspace : b = 0x20
    · rw [if_pos hspace, hspace, List.singleton_append, decode_plus]
    · rw [if_neg hspace]
      exact decode_percent (decodeDigits_hexDigit b) rest

theorem decode_encode (bytes : List UInt8) : decode (encode bytes) = bytes := by
  induction bytes with
  | nil => rfl
  | cons b bytes ih => rw [encode, List.flatMap_cons, decode_encodeByte, ← encode, ih]

/-- What an encoded byte consists of: none of it separates anything, and all of it is ASCII. -/
def IsPlain (b : UInt8) : Prop := b ≠ ampersand ∧ b ≠ equals ∧ b.toNat < 128

instance (b : UInt8) : Decidable (IsPlain b) := inferInstanceAs (Decidable (_ ∧ _ ∧ _))

theorem isPlain_encode (bytes : List UInt8) : ∀ c ∈ encode bytes, IsPlain c := by
  have hdigit : ∀ n < 16, IsPlain (hexDigit n) := by decide
  intro c hc
  obtain ⟨b, -, hc⟩ := List.mem_flatMap.mp hc
  have hlt := b.toNat_lt
  unfold encodeByte at hc
  split at hc
  · rename_i hun
    obtain rfl := List.mem_singleton.mp hc
    have hall : ∀ n < 256, isUnreserved (.ofNat n) = true → IsPlain (.ofNat n) := by decide +kernel
    have hplain := hall c.toNat hlt
    rw [UInt8.ofNat_toNat] at hplain
    exact hplain hun
  · split at hc
    · obtain rfl := List.mem_singleton.mp hc
      decide
    · simp only [List.mem_cons, List.not_mem_nil, or_false] at hc
      rcases hc with rfl | rfl | rfl
      · decide
      · exact hdigit _ (by omega)
      · exact hdigit _ (by omega)

/-! ### Pairs of bytes -/

def serializePair (pair : List UInt8 × List UInt8) : List UInt8 := encode pair.1 ++ equals :: encode pair.2

def serializeBytes (pairs : List (List UInt8 × List UInt8)) : List UInt8 :=
  List.intercalate [ampersand] (pairs.map serializePair)

def parsePair (part : List UInt8) : List UInt8 × List UInt8 :=
  (decode (part.takeWhile (· ≠ equals)), decode ((part.dropWhile (· ≠ equals)).drop 1))

def parseBytes (input : List UInt8) : List (List UInt8 × List UInt8) :=
  ((input.splitOn ampersand).filter (· ≠ [])).map parsePair

theorem parsePair_serializePair (pair : List UInt8 × List UInt8) : parsePair (serializePair pair) = pair := by
  have hname : ∀ c ∈ encode pair.1, decide (c ≠ equals) = true := fun c hc =>
    decide_eq_true (isPlain_encode pair.1 c hc).2.1
  unfold parsePair serializePair
  rw [List.takeWhile_append_of_pos hname, List.dropWhile_append_of_pos hname,
    List.takeWhile_cons_of_neg (by simp), List.dropWhile_cons_of_neg (by simp), List.append_nil, List.drop_one,
    List.tail_cons, decode_encode, decode_encode]

theorem serializePair_ascii (pair : List UInt8 × List UInt8) : ∀ c ∈ serializePair pair,
    c ≠ ampersand ∧ c.toNat < 128 := by
  intro c hc
  rcases List.mem_append.mp hc with hc | hc
  · exact ⟨(isPlain_encode _ c hc).1, (isPlain_encode _ c hc).2.2⟩
  · rcases List.mem_cons.mp hc with rfl | hc
    · decide
    · exact ⟨(isPlain_encode _ c hc).1, (isPlain_encode _ c hc).2.2⟩

theorem splitOn_intercalate {parts : List (List UInt8)} (hne : parts ≠ [])
    (hparts : ∀ part ∈ parts, ampersand ∉ part) :
    (List.intercalate [ampersand] parts).splitOn ampersand = parts := by
  induction parts with
  | nil => exact absurd rfl hne
  | cons part parts ih =>
    have hpart := hparts part List.mem_cons_self
    cases parts with
    | nil => rw [List.intercalate_singleton, List.splitOn_eq_singleton hpart]
    | cons next rest =>
      rw [List.intercalate_cons_cons, List.append_assoc, List.singleton_append,
        List.splitOn_append_cons_self_of_not_mem hpart,
        ih (List.cons_ne_nil _ _) fun p hp => hparts p (List.mem_cons_of_mem _ hp)]

theorem parseBytes_serializeBytes (pairs : List (List UInt8 × List UInt8)) :
    parseBytes (serializeBytes pairs) = pairs := by
  have hnonempty : ∀ part ∈ pairs.map serializePair, decide (part ≠ []) = true := by
    intro part hpart
    obtain ⟨pair, -, rfl⟩ := List.mem_map.mp hpart
    simp [serializePair]
  unfold parseBytes serializeBytes
  cases pairs with
  | nil => rfl
  | cons pair pairs =>
    rw [splitOn_intercalate (by simp) ?_, List.filter_eq_self.mpr hnonempty, List.map_map]
    · refine (List.map_congr_left fun pair _ => parsePair_serializePair pair).trans (List.map_id' _)
    · intro part hpart hmem
      obtain ⟨pair, -, rfl⟩ := List.mem_map.mp hpart
      exact (serializePair_ascii pair _ hmem).1 rfl

theorem serializeBytes_ascii (pairs : List (List UInt8 × List UInt8)) :
    ∀ c ∈ serializeBytes pairs, c.toNat < 128 := by
  induction pairs with
  | nil => simp [serializeBytes, List.intercalate_nil]
  | cons pair pairs ih =>
    intro c hc
    unfold serializeBytes at ih hc
    rw [List.map_cons] at hc
    cases hrest : pairs.map serializePair with
    | nil =>
      rw [hrest, List.intercalate_singleton] at hc
      exact (serializePair_ascii pair c hc).2
    | cons next rest =>
      rw [hrest] at ih hc
      rw [List.intercalate_cons_cons, List.append_assoc] at hc
      rcases List.mem_append.mp hc with hc | hc
      · exact (serializePair_ascii pair c hc).2
      · rcases List.mem_append.mp hc with hc | hc
        · obtain rfl := List.mem_singleton.mp hc
          decide
        · exact ih c hc

/-! ### Pairs of texts -/

/-- The bytes of a text. -/
def utf8 (s : String) : List UInt8 := s.toUTF8.data.toList

/-- The text of bytes that are all ASCII. -/
def ofAscii (bytes : List UInt8) : String := .ofList (bytes.map fun b => .ofNat b.toNat)

theorem utf8_ofAscii {bytes : List UInt8} (h : ∀ b ∈ bytes, b.toNat < 128) : utf8 (ofAscii bytes) = bytes := by
  have hall : ∀ n < 128, String.utf8EncodeChar (.ofNat n) = [.ofNat n] := by decide +kernel
  have hflat : (bytes.map fun b => Char.ofNat b.toNat).flatMap String.utf8EncodeChar = bytes := by
    induction bytes with
    | nil => rfl
    | cons b bytes ih =>
      obtain ⟨hb, hbytes⟩ := List.forall_mem_cons.mp h
      rw [List.map_cons, List.flatMap_cons, hall _ hb, UInt8.ofNat_toNat, ih hbytes, List.singleton_append]
  unfold utf8 ofAscii
  rw [String.toUTF8, String.toByteArray_ofList, List.utf8Encode, hflat, List.toList_data_toByteArray]

/-- A decoder of UTF-8 that may do as it likes with what is none. -/
def IsUtf8Decoder (decodeUtf8 : List UInt8 → String) : Prop := ∀ s, decodeUtf8 (utf8 s) = s

/-- The decoder that makes a single replacement character of what is none. -/
def decodeOrReplace (bytes : List UInt8) : String :=
  (String.fromUTF8? ⟨bytes.toArray⟩).getD (String.singleton '\uFFFD')

theorem isUtf8Decoder_decodeOrReplace : IsUtf8Decoder decodeOrReplace := by
  intro s
  have hbytes : (⟨(utf8 s).toArray⟩ : ByteArray) = s.toByteArray := by
    rw [utf8, Array.toArray_toList, String.toUTF8]
  unfold decodeOrReplace String.fromUTF8?
  rw [hbytes, dif_pos s.isValidUTF8]
  rfl

def serialize (pairs : List (String × String)) : String :=
  ofAscii (serializeBytes (pairs.map fun pair => (utf8 pair.1, utf8 pair.2)))

def parse (decodeUtf8 : List UInt8 → String) (text : String) : List (String × String) :=
  (parseBytes (utf8 text)).map fun pair => (decodeUtf8 pair.1, decodeUtf8 pair.2)

theorem parse_serialize {decodeUtf8 : List UInt8 → String} (h : IsUtf8Decoder decodeUtf8)
    (pairs : List (String × String)) : parse decodeUtf8 (serialize pairs) = pairs := by
  unfold parse serialize
  rw [utf8_ofAscii (serializeBytes_ascii _), parseBytes_serializeBytes, List.map_map]
  refine (List.map_congr_left fun pair _ => ?_).trans (List.map_id' _)
  simp only [Function.comp_apply, h _]

end FormUrlencoded
