import Pipitor.App.Callback
import Pipitor.App.Lease
import Pipitor.App.OpenManifest
import Pipitor.Foundation.Serde

/-!
# The manifest as a document

How `manifest.rs` deserializes what a TOML, JSON or Dhall parser hands over, with the defaults of what is left out.
The values of a union may come as they are or as variants, whose names are not looked at. Of the errors of a document
it is not always the first that is returned here.
-/

namespace Pipitor

open Serde

/-- The parsers of strings: `Regex::from_str`, that of `http_serde::uri`, and `SocketAddr::from_str`. -/
structure Parsers where
  regex : String → Except String Regex
  uri : String → Except String Uri
  socketAddr : String → Except String Unit

variable (fmt : Format) (parsers : Parsers)

/-- `Serde<Regex>`. -/
def Regex.deserialize (v : Value) : Except Error Regex := do
  let s ← string v
  (parsers.regex s).mapError .custom

def Filter.deserialize : Value → Except Error Filter
  | .str s => do return ⟨← (parsers.regex s).mapError .custom, none⟩
  | .map members => do
    let r ← record fmt ["title", "text"] (.map members)
    let title ← r.required "title" (Regex.deserialize parsers)
    let text ← r.default "text" none (option fmt (Regex.deserialize parsers))
    return ⟨title, text⟩
  | _ => .error .invalidType

/-- The methods of the visitor of a `TopicId` but for `visit_enum`. -/
def TopicId.visit : Value → Except Error TopicId
  | .str s => .ok (.feed s)
  | v => (i64 v).map .twitter

def TopicId.deserialize : Value → Except Error TopicId
  | .variant _ (some v) => visit v
  | v => visit v

/-- The methods of the visitor of an `Outbox` but for `visit_enum`. -/
def Outbox.visit (v : Value) : Except Error Outbox := (i64 v).map .twitter

def Outbox.deserialize : Value → Except Error Outbox
  | .variant _ (some v) => visit v
  | v => visit v

/-- `de_outbox`. A variant stands in a sequence only. -/
def deOutbox : Value → Except Error (List Outbox)
  | .seq items => items.mapM Outbox.deserialize
  | v => (i64 v).map fun id => [.twitter id]

def Rule.deserialize (v : Value) : Except Error Rule := do
  let r ← record fmt ["filter", "exclude", "outbox", "topics"] v
  let filter ← r.default "filter" none (option fmt (Filter.deserialize fmt parsers))
  let exclude ← r.default "exclude" none (option fmt (Filter.deserialize fmt parsers))
  let outbox ← r.required "outbox" deOutbox
  let topics ← r.required "topics" (seq TopicId.deserialize)
  return ⟨⟨filter, exclude, outbox⟩, topics⟩

/-- The fields of a `Duration::deserialize`. -/
def Duration.fields (v : Value) : Except Error DurationValue := do
  let r ← record fmt ["secs", "nanos"] v
  return .fields (← r.required "secs" u64) (← r.required "nanos" u32)

/-- What is handed to the visitor of `de_duration_from_secs`, which asks for a structure. `Duration::deserialize`
refuses the fields that it does not know. -/
def durationValue : Value → Except Error DurationValue
  | .i64 v => if fmt.structAsAny then .ok (.i64 v) else .error .invalidType
  | .u64 v => if fmt.structAsAny then .ok (.u64 v) else .error .invalidType
  | .seq items => Duration.fields fmt (.seq items)
  | .map members =>
    if members.all fun x => x.1 = "secs" ∨ x.1 = "nanos" then Duration.fields fmt (.map members)
    else .error .invalidValue
  | _ => .error .invalidType

/-- `de_duration_from_secs`. -/
def Duration.deserialize (v : Value) : Except Error Duration := do
  (deDurationFromSecs (← durationValue fmt v)).mapError .custom

def oneHour : Duration := visitU64 (60 * 60)

def oneSec : Duration := visitU64 1

/-- `de_callback`. -/
def Uri.deserialize (v : Value) : Except Error Uri := do
  (App.deCallback parsers.uri (← string v)).mapError .custom

/-- `socket::Addr`. -/
def Addr.deserialize (v : Value) : Except Error String := do
  let s ← string v
  if "tcp://".toList.isPrefixOf s.toList then
    (parsers.socketAddr (String.ofList (s.toList.drop 6))).mapError .custom
    return s
  else if "unix://".toList.isPrefixOf s.toList then return s
  else .error (.custom "unknown bind address type")

def WebSub.deserialize (v : Value) : Except Error WebSub := do
  let r ← record fmt ["callback", "bind", "renewal_margin"] v
  let callback ← r.required "callback" (Uri.deserialize parsers)
  let bind ← r.optional fmt "bind" (Addr.deserialize parsers)
  let renewalMargin ← r.default "renewal_margin" oneHour (Duration.deserialize fmt)
  return ⟨callback, bind, renewalMargin⟩

/-- `NonZeroU64`. -/
def nonZero (v : Value) : Except Error { id : UInt64 // id ≠ 0 } := do
  let id ← u64 v
  if h : id ≠ 0 then return ⟨id, h⟩ else .error .invalidValue

def TwitterList.deserialize (v : Value) : Except Error TwitterList := do
  let r ← record fmt ["id", "interval", "delay"] v
  let id ← r.required "id" nonZero
  let interval ← r.default "interval" oneSec (Duration.deserialize fmt)
  let delay ← r.default "delay" oneSec (Duration.deserialize fmt)
  return ⟨id, interval, delay⟩

/-- `CredentialsDef`. -/
def Credentials.deserialize (v : Value) : Except Error Credentials := do
  let r ← record fmt ["identifier", "secret"] v
  return ⟨← r.required "identifier" string, ← r.required "secret" string⟩

def Twitter.deserialize (v : Value) : Except Error Twitter := do
  let r ← record fmt ["client", "user", "stream", "list"] v
  let client ← r.required "client" (Credentials.deserialize fmt)
  let user ← r.required "user" i64
  let stream ← r.default "stream" true boolean
  let list ← r.default "list" none (option fmt (TwitterList.deserialize fmt))
  return ⟨client, user, stream, list⟩

def Manifest.validated (ret : Manifest) : Except Error Manifest :=
  match ret.validate? with
  | some e => .error (.custom e)
  | none => .ok ret

/-- `Manifest::deserialize`, which validates. -/
def Manifest.deserialize (v : Value) : Except Error Manifest := do
  let r ← record fmt ["database_url", "rule", "websub", "twitter", "skip_duplicate"] v
  let databaseUrl ← r.default "database_url" none (option fmt string)
  let rule ← r.required "rule" (seq (Rule.deserialize fmt parsers))
  let websub ← r.default "websub" none (option fmt (WebSub.deserialize fmt parsers))
  let twitter ← r.default "twitter" none (option fmt (Twitter.deserialize fmt))
  let skipDuplicate ← r.default "skip_duplicate" false boolean
  Manifest.validated ⟨databaseUrl, rule, websub, twitter, skipDuplicate⟩

end Pipitor
