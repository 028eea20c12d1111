import Pipitor.Foundation.Decimal
import Pipitor.Foundation.Fallible
import Pipitor.Foundation.Fields
import Pipitor.Foundation.FormUrlencoded
import Pipitor.Websub.Hub

/-!
# The wire format

A request to a hub and a hub's verification of it are `application/x-www-form-urlencoded`. `hub::Form` and
`hub::Verify` derive their serializers and deserializers: each is an enum that `hub.mode` tells the variant
of. What a text has to consist of in order to be understood is in `Spelled`.
-/

namespace Pipitor.Websub

open Fields FormUrlencoded

/-- `Display` and `FromStr` of `http::Uri`, by which `http_serde::uri` goes. -/
structure UriText where
  display : Uri → String
  parse : String → Except String Uri

/-- `deserialize_from_str` of a `u64`. -/
def deserializeFromStr (name text : String) : Except Fields.Error UInt64 :=
  match Decimal.parse UInt64.size text with
  | some n => .ok (.ofNat n)
  | none => .error (.invalid name)

theorem deserializeFromStr_eq_ok_iff {name text : String} {n : UInt64} :
    deserializeFromStr name text = .ok n ↔ Decimal.Denotes text n.toNat := by
  have hparse : ∀ k, Decimal.parse UInt64.size text = some k ↔ Decimal.Denotes text k ∧ k < UInt64.size :=
    fun k => Decimal.parse_eq_some_iff (by decide)
  unfold deserializeFromStr
  cases hp : Decimal.parse UInt64.size text with
  | none =>
    refine iff_of_false (by simp) fun h => ?_
    rw [(hparse n.toNat).mpr ⟨h, n.toNat_lt_size⟩] at hp
    cases hp
  | some k =>
    obtain ⟨hk, hlt⟩ := (hparse k).mp hp
    have hnat : (UInt64.ofNat k).toNat = k := UInt64.toNat_ofNat_of_lt hlt
    show Except.ok (UInt64.ofNat k) = .ok n ↔ _
    rw [Except.ok.injEq]
    constructor
    · rintro rfl
      rwa [hnat]
    · intro h
      rw [← UInt64.ofNat_toNat (x := n), h.unique hk]

/-- The names that the two formats know. -/
def wireNames : List String :=
  ["hub.mode", "hub.callback", "hub.topic", "hub.secret", "hub.challenge", "hub.lease_seconds"]

/-! ### Verifications -/

namespace Verify

/-- The derived `Serialize`. -/
def params : Verify → List (String × String)
  | subscribe topic challenge leaseSeconds => [("hub.mode", "subscribe"), ("hub.topic", topic),
      ("hub.challenge", challenge), ("hub.lease_seconds", toString leaseSeconds.toNat)]
  | unsubscribe topic challenge =>
    [("hub.mode", "unsubscribe"), ("hub.topic", topic), ("hub.challenge", challenge)]

/-- The derived `Deserialize` of the variants, from what is left beside the tag. -/
def ofVariant (mode : String) (content : List (String × String)) : Except Fields.Error Verify :=
  if mode = "subscribe" then do
    let fields ← visit ["hub.topic", "hub.challenge", "hub.lease_seconds"] [] content
    let topic ← required "hub.topic" fields
    let challenge ← required "hub.challenge" fields
    let leaseSeconds ← required "hub.lease_seconds" fields
    let leaseSeconds ← deserializeFromStr "hub.lease_seconds" leaseSeconds
    .ok (subscribe topic challenge leaseSeconds)
  else if mode = "unsubscribe" then do
    let fields ← visit ["hub.topic", "hub.challenge"] [] content
    let topic ← required "hub.topic" fields
    let challenge ← required "hub.challenge" fields
    .ok (unsubscribe topic challenge)
  else .error (.invalid "hub.mode")

def ofParams (params : List (String × String)) : Except Fields.Error Verify := do
  let (mode, content) ← tagged "hub.mode" none [] params
  ofVariant mode content

/-- `serde_urlencoded::from_str`. -/
def fromStr (decodeUtf8 : List UInt8 → String) (query : String) : Option Verify :=
  (ofParams (parse decodeUtf8 query)).toOption

/-- What the names and values have to be. -/
def Spelled (params : List (String × String)) : Verify → Prop
  | subscribe topic challenge leaseSeconds => values "hub.mode" params = ["subscribe"] ∧
      values "hub.topic" params = [topic] ∧ values "hub.challenge" params = [challenge] ∧
      ∃ text, values "hub.lease_seconds" params = [text] ∧ Decimal.Denotes text leaseSeconds.toNat
  | unsubscribe topic challenge => values "hub.mode" params = ["unsubscribe"] ∧
      values "hub.topic" params = [topic] ∧ values "hub.challenge" params = [challenge]

end Verify

/-! ### Requests -/

namespace Form

/-- The derived `Serialize`. -/
def params (uris : UriText) : Form → List (String × String)
  | subscribe callback topic secret => [("hub.mode", "subscribe"), ("hub.callback", uris.display callback),
      ("hub.topic", topic), ("hub.secret", secret)]
  | unsubscribe callback topic => [("hub.mode", "unsubscribe"), ("hub.callback", uris.display callback),
      ("hub.topic", topic)]

/-- `http_serde::uri::deserialize`. -/
def callbackOf (uris : UriText) (text : String) : Except Fields.Error Uri :=
  match uris.parse text with
  | .ok uri => .ok uri
  | .error _ => .error (.invalid "hub.callback")

/-- The derived `Deserialize` of the variants, from what is left beside the tag. -/
def ofVariant (uris : UriText) (mode : String) (content : List (String × String)) :
    Except Fields.Error Form :=
  if mode = "subscribe" then do
    let fields ← visit ["hub.callback", "hub.topic", "hub.secret"] [] content
    let callback ← required "hub.callback" fields
    let callback ← callbackOf uris callback
    let topic ← required "hub.topic" fields
    let secret ← required "hub.secret" fields
    .ok (subscribe callback topic secret)
  else if mode = "unsubscribe" then do
    let fields ← visit ["hub.callback", "hub.topic"] [] content
    let callback ← required "hub.callback" fields
    let callback ← callbackOf uris callback
    let topic ← required "hub.topic" fields
    .ok (unsubscribe callback topic)
  else .error (.invalid "hub.mode")

def ofParams (uris : UriText) (params : List (String × String)) : Except Fields.Error Form := do
  let (mode, content) ← tagged "hub.mode" none [] params
  ofVariant uris mode content

/-- `serde_urlencoded::to_string`, the body of the request. -/
def body (uris : UriText) (form : Form) : String := serialize (form.params uris)

/-- `serde_urlencoded::from_str`. -/
def fromStr (uris : UriText) (decodeUtf8 : List UInt8 → String) (body : String) : Option Form :=
  (ofParams uris (parse decodeUtf8 body)).toOption

end Form

/-! ### What is understood -/

theorem Verify.ofVariant_subscribe_iff {content : List (String × String)} {v : Verify} :
    ofVariant "subscribe" content = .ok v ↔ ∃ topic challenge text leaseSeconds,
      (values "hub.topic" content = [topic] ∧ values "hub.challenge" content = [challenge] ∧
        values "hub.lease_seconds" content = [text]) ∧
      Decimal.Denotes text leaseSeconds.toNat ∧ subscribe topic challenge leaseSeconds = v := by
  unfold ofVariant
  rw [if_pos rfl]
  simp only [Fallible.bind_eq_ok_iff]
  constructor
  · rintro ⟨fields, hvisit, topic, htopic, challenge, hchallenge, text, htext, leaseSeconds, hlease, hv⟩
    have hvalues := (exists_required_iff content
      [("hub.topic", topic), ("hub.challenge", challenge), ("hub.lease_seconds", text)] rfl).mp
      ⟨fields, hvisit, by simp [htopic, hchallenge, htext]⟩
    simp only [List.forall_mem_cons] at hvalues
    obtain ⟨htopic, hchallenge, htext, -⟩ := hvalues
    exact ⟨topic, challenge, text, leaseSeconds, ⟨htopic, hchallenge, htext⟩,
      deserializeFromStr_eq_ok_iff.mp hlease, Except.ok.inj hv⟩
  · rintro ⟨topic, challenge, text, leaseSeconds, ⟨htopic, hchallenge, htext⟩, hlease, hv⟩
    obtain ⟨fields, hvisit, hrequired⟩ := (exists_required_iff content
      [("hub.topic", topic), ("hub.challenge", challenge), ("hub.lease_seconds", text)] rfl).mpr
      (by simp [htopic, hchallenge, htext])
    simp only [List.forall_mem_cons] at hrequired
    obtain ⟨htopic, hchallenge, htext, -⟩ := hrequired
    exact ⟨fields, hvisit, topic, htopic, challenge, hchallenge, text, htext, leaseSeconds,
      deserializeFromStr_eq_ok_iff.mpr hlease, congrArg _ hv⟩

theorem Verify.ofVariant_unsubscribe_iff {content : List (String × String)} {v : Verify} :
    ofVariant "unsubscribe" content = .ok v ↔ ∃ topic challenge,
      (values "hub.topic" content = [topic] ∧ values "hub.challenge" content = [challenge]) ∧
      unsubscribe topic challenge = v := by
  unfold ofVariant
  rw [if_neg (by decide), if_pos rfl]
  simp only [Fallible.bind_eq_ok_iff]
  constructor
  · rintro ⟨fields, hvisit, topic, htopic, challenge, hchallenge, hv⟩
    have hvalues := (exists_required_iff content [("hub.topic", topic), ("hub.challenge", challenge)] rfl).mp
      ⟨fields, hvisit, by simp [htopic, hchallenge]⟩
    simp only [List.forall_mem_cons] at hvalues
    exact ⟨topic, challenge, ⟨hvalues.1, hvalues.2.1⟩, Except.ok.inj hv⟩
  · rintro ⟨topic, challenge, ⟨htopic, hchallenge⟩, hv⟩
    obtain ⟨fields, hvisit, hrequired⟩ := (exists_required_iff content
      [("hub.topic", topic), ("hub.challenge", challenge)] rfl).mpr (by simp [htopic, hchallenge])
    simp only [List.forall_mem_cons] at hrequired
    exact ⟨fields, hvisit, topic, hrequired.1, challenge, hrequired.2.1, congrArg _ hv⟩

theorem Verify.ofParams_eq_ok_iff {params : List (String × String)} {v : Verify} :
    Verify.ofParams params = .ok v ↔ v.Spelled params := by
  unfold ofParams
  rw [Fallible.bind_eq_ok_iff]
  constructor
  · rintro ⟨⟨mode, content⟩, htag, hv⟩
    obtain ⟨hmode, rfl⟩ := tagged_ok_iff.mp htag
    by_cases hsubscribe : mode = "subscribe"
    · subst hsubscribe
      obtain ⟨topic, challenge, text, leaseSeconds, ⟨htopic, hchallenge, htext⟩, hlease, rfl⟩ :=
        ofVariant_subscribe_iff.mp hv
      rw [values_filter_ne (by decide)] at htopic hchallenge htext
      exact ⟨hmode, htopic, hchallenge, text, htext, hlease⟩
    · by_cases hunsubscribe : mode = "unsubscribe"
      · subst hunsubscribe
        obtain ⟨topic, challenge, ⟨htopic, hchallenge⟩, rfl⟩ := ofVariant_unsubscribe_iff.mp hv
        rw [values_filter_ne (by decide)] at htopic hchallenge
        exact ⟨hmode, htopic, hchallenge⟩
      · dsimp only [ofVariant] at hv
        rw [if_neg hsubscribe, if_neg hunsubscribe] at hv
        cases hv
  · intro h
    cases v with
    | subscribe topic challenge leaseSeconds =>
      obtain ⟨hmode, htopic, hchallenge, text, htext, hlease⟩ := h
      refine ⟨_, tagged_ok_iff.mpr ⟨hmode, rfl⟩, ofVariant_subscribe_iff.mpr
        ⟨topic, challenge, text, leaseSeconds, ⟨?_, ?_, ?_⟩, hlease, rfl⟩⟩
      · rwa [values_filter_ne (by decide)]
      · rwa [values_filter_ne (by decide)]
      · rwa [values_filter_ne (by decide)]
    | unsubscribe topic challenge =>
      obtain ⟨hmode, htopic, hchallenge⟩ := h
      refine ⟨_, tagged_ok_iff.mpr ⟨hmode, rfl⟩, ofVariant_unsubscribe_iff.mpr ⟨topic, challenge, ⟨?_, ?_⟩, rfl⟩⟩
      · rwa [values_filter_ne (by decide)]
      · rwa [values_filter_ne (by decide)]

theorem Verify.fromStr_eq_some_iff {decodeUtf8 : List UInt8 → String} {query : String} {v : Verify} :
    Verify.fromStr decodeUtf8 query = some v ↔ v.Spelled (parse decodeUtf8 query) := by
  rw [← Verify.ofParams_eq_ok_iff]
  unfold Verify.fromStr
  cases Verify.ofParams (parse decodeUtf8 query) <;> simp [Except.toOption]

/-- A verification, in whatever order its parameters are and with whatever others among them. -/
theorem Verify.spelled_of_perm {v : Verify} {params extra : List (String × String)}
    (hextra : ∀ p ∈ extra, p.1 ∉ wireNames) (hperm : (v.params ++ extra).Perm params) : v.Spelled params := by
  have hvalues : ∀ name ∈ wireNames, ∀ value, values name v.params = [value] →
      values name params = [value] := by
    intro name hname value hvalue
    refine values_of_perm hperm ?_
    have hnone : values name extra = [] := values_eq_nil fun p hp heq => hextra p hp (heq ▸ hname)
    rw [values_append, hvalue, hnone, List.append_nil]
  cases v with
  | subscribe topic challenge leaseSeconds =>
    refine ⟨?_, ?_, ?_, _, ?_, Decimal.denotes_toString _⟩
    · exact hvalues _ (by decide) _ rfl
    · exact hvalues _ (by decide) _ rfl
    · exact hvalues _ (by decide) _ rfl
    · exact hvalues _ (by decide) _ rfl
  | unsubscribe topic challenge =>
    refine ⟨?_, ?_, ?_⟩
    · exact hvalues _ (by decide) _ rfl
    · exact hvalues _ (by decide) _ rfl
    · exact hvalues _ (by decide) _ rfl

/-- **What a hub says is what is understood**: a query is taken for a verification exactly if it has the
verification's parameters, each once, and so is every query that a hub makes of them. -/
theorem verify_understood_iff {decodeUtf8 : List UInt8 → String} (hutf8 : IsUtf8Decoder decodeUtf8)
    (v : Verify) :
    (∀ query, Verify.fromStr decodeUtf8 query = some v ↔ v.Spelled (parse decodeUtf8 query)) ∧
      ∀ params extra, (∀ p ∈ extra, p.1 ∉ wireNames) → (v.params ++ extra).Perm params →
        Verify.fromStr decodeUtf8 (serialize params) = some v := by
  refine ⟨fun query => Verify.fromStr_eq_some_iff, fun params extra hextra hperm => ?_⟩
  rw [Verify.fromStr_eq_some_iff, parse_serialize hutf8]
  exact Verify.spelled_of_perm hextra hperm

/-- A hub that puts the mode last and adds a parameter of its own. -/
theorem verify_understood_reordered :
    Verify.fromStr decodeOrReplace (serialize [("hub.lease_seconds", "864000"), ("hub.topic", "a b&c"),
      ("hub.verify_token", ""), ("hub.challenge", "é"), ("hub.mode", "subscribe")]) =
        some (.subscribe "a b&c" "é" 864000) :=
  (verify_understood_iff isUtf8Decoder_decodeOrReplace (.subscribe "a b&c" "é" 864000)).2 _
    [("hub.verify_token", "")] (by decide) (by decide)

/-! ### Requests are read back -/

def Form.callback : Form → Uri
  | subscribe callback _ _ => callback
  | unsubscribe callback _ => callback

theorem Form.fromStr_body {uris : UriText} {decodeUtf8 : List UInt8 → String} (hutf8 : IsUtf8Decoder decodeUtf8)
    {form : Form} (huri : uris.parse (uris.display form.callback) = .ok form.callback) :
    Form.fromStr uris decodeUtf8 (form.body uris) = some form := by
  have hparams : Form.ofParams uris (form.params uris) = .ok form := by
    cases form with
    | subscribe callback topic secret =>
      simp only [Form.callback] at huri
      simp [ofParams, params, tagged, ofVariant, visit, required, callbackOf, List.lookup_cons, huri]
    | unsubscribe callback topic =>
      simp only [Form.callback] at huri
      simp [ofParams, params, tagged, ofVariant, visit, required, callbackOf, List.lookup_cons, huri]
  unfold fromStr body
  rw [parse_serialize hutf8, hparams]
  rfl

end Pipitor.Websub
