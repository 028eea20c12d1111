import Pipitor.App.Document

/-!
# The Dhall package

`package.dhall`: the types of a configuration, the defaults of its record completion, and `Manifest/validate`. The
same configuration may be written in TOML or JSON, with shorthands and with what has a default left out.
`toOption_deserialize` says what the deserializer makes of it either way.
-/

namespace Pipitor.Dhall

open Serde

/-- `Natural`, which is 64 bits wide in the parser. -/
abbrev Natural := UInt64

structure Duration where
  secs : Natural
  nanos : Natural
deriving DecidableEq

namespace Duration

def fromSecs (secs : Natural) : Duration := ⟨secs, 0⟩

def fromHours (hours : Natural) : Duration := fromSecs (60 * 60 * hours)

end Duration

inductive Topic
  | feed (uri : String)
  | twitter (id : Natural)

inductive Outbox
  | twitter (id : Natural)

structure Filter where
  title : String
  text : Option String

structure Rule where
  filter : Option Filter
  exclude : Option Filter
  outbox : List Outbox
  topics : List Topic

structure WebSub where
  callback : String
  bind : Option String
  renewalMargin : Duration

structure TwitterList where
  id : Natural
  interval : Duration
  delay : Duration

structure Twitter where
  client : Credentials
  user : Natural
  stream : Bool
  list : Option TwitterList

structure Manifest where
  databaseUrl : Option String
  websub : Option WebSub
  twitter : Option Twitter
  rule : List Rule
  skipDuplicate : Bool

def Rule.twitterTopics (rule : Rule) : List Natural := rule.topics.filterMap fun
  | .feed _ => none
  | .twitter id => some id

def Rule.twitterOutboxes (rule : Rule) : List Natural := rule.outbox.map fun
  | .twitter id => id

namespace Manifest

def twitterTopics (manifest : Manifest) : List Natural := manifest.rule.flatMap (·.twitterTopics)

def twitterOutboxes (manifest : Manifest) : List Natural := manifest.rule.flatMap (·.twitterOutboxes)

/-- `Manifest/validate`. -/
def validate (manifest : Manifest) : Bool :=
  !manifest.twitter.isNone || (manifest.twitterTopics ++ manifest.twitterOutboxes).isEmpty

end Manifest

/-! ### What is written -/

namespace Written

/-- A filter may be its `title`. -/
inductive Filter
  | regex (title : String)
  | record (title : String) (text : Option String)

/-- A duration may be its seconds. -/
inductive Duration
  | seconds (secs : Natural)
  | record (secs nanos : Natural)

/-- One user may stand for the list. -/
inductive Outbox
  | one (id : Natural)
  | many (outbox : List Dhall.Outbox)

structure Rule where
  filter : Option Filter
  exclude : Option Filter
  outbox : Outbox
  topics : List Topic

structure WebSub where
  callback : String
  bind : Option String
  renewalMargin : Option Duration

structure TwitterList where
  id : Natural
  interval : Option Duration
  delay : Option Duration

structure Twitter where
  client : Credentials
  user : Natural
  stream : Option Bool
  list : Option TwitterList

structure Manifest where
  databaseUrl : Option String
  websub : Option WebSub
  twitter : Option Twitter
  rule : List Rule
  skipDuplicate : Option Bool

end Written

/-- The defaults that are values. -/
structure Defaults where
  renewalMargin : Duration
  interval : Duration
  delay : Duration
  stream : Bool
  skipDuplicate : Bool

/-- Those of the package. -/
def packageDefaults : Defaults := ⟨.fromHours 1, .fromSecs 1, .fromSecs 0, false, false⟩

/-- Those of the deserializer. -/
def serdeDefaults : Defaults := ⟨.fromSecs (60 * 60), .fromSecs 1, .fromSecs 1, true, false⟩

/-! ### Completion -/

namespace Written

def Filter.complete : Filter → Dhall.Filter
  | .regex title => ⟨title, none⟩
  | .record title text => ⟨title, text⟩

def Duration.complete : Duration → Dhall.Duration
  | .seconds secs => .fromSecs secs
  | .record secs nanos => ⟨secs, nanos⟩

def Outbox.complete : Outbox → List Dhall.Outbox
  | .one id => [.twitter id]
  | .many outbox => outbox

def Rule.complete (rule : Rule) : Dhall.Rule where
  filter := rule.filter.map (·.complete)
  exclude := rule.exclude.map (·.complete)
  outbox := rule.outbox.complete
  topics := rule.topics

variable (defaults : Defaults)

def WebSub.complete (websub : WebSub) : Dhall.WebSub where
  callback := websub.callback
  bind := websub.bind
  renewalMargin := (websub.renewalMargin.map (·.complete)).getD defaults.renewalMargin

def TwitterList.complete (list : TwitterList) : Dhall.TwitterList where
  id := list.id
  interval := (list.interval.map (·.complete)).getD defaults.interval
  delay := (list.delay.map (·.complete)).getD defaults.delay

def Twitter.complete (twitter : Twitter) : Dhall.Twitter where
  client := twitter.client
  user := twitter.user
  stream := twitter.stream.getD defaults.stream
  list := twitter.list.map (·.complete defaults)

/-- The record with every item, `Manifest::{ .. }` where the defaults are those of the package. -/
def Manifest.complete (manifest : Manifest) : Dhall.Manifest where
  databaseUrl := manifest.databaseUrl
  websub := manifest.websub.map (·.complete defaults)
  twitter := manifest.twitter.map (·.complete defaults)
  rule := manifest.rule.map (·.complete)
  skipDuplicate := manifest.skipDuplicate.getD defaults.skipDuplicate

end Written

/-! ### The meaning of a record -/

section Translate

variable (parsers : Parsers)

def Duration.translate (d : Duration) : Option Pipitor.Duration :=
  if d.nanos.toNat < 2 ^ 32 then (deDurationFromSecs (.fields d.secs d.nanos.toUInt32)).toOption else none

def Topic.translate : Topic → Option TopicId
  | .feed uri => some (.feed uri)
  | .twitter id => (Machine.tryIntoI64 id).map .twitter

def Outbox.translate : Outbox → Option Pipitor.Outbox
  | .twitter id => (Machine.tryIntoI64 id).map .twitter

def Filter.translate (filter : Filter) : Option Pipitor.Filter := do
  let title ← (parsers.regex filter.title).toOption
  let text ← optionally (fun text => (parsers.regex text).toOption) filter.text
  return ⟨title, text⟩

def Rule.translate (rule : Rule) : Option Pipitor.Rule := do
  let filter ← optionally (Filter.translate parsers) rule.filter
  let exclude ← optionally (Filter.translate parsers) rule.exclude
  let outbox ← rule.outbox.mapM Outbox.translate
  let topics ← rule.topics.mapM Topic.translate
  return ⟨⟨filter, exclude, outbox⟩, topics⟩

def WebSub.translate (websub : WebSub) : Option Pipitor.WebSub := do
  let callback ← (App.deCallback parsers.uri websub.callback).toOption
  let bind ← optionally (fun addr => (Addr.deserialize parsers (.str addr)).toOption) websub.bind
  let renewalMargin ← websub.renewalMargin.translate
  return ⟨callback, bind, renewalMargin⟩

def nonZero? (id : Natural) : Option { id : UInt64 // id ≠ 0 } :=
  if h : id ≠ 0 then some ⟨id, h⟩ else none

def TwitterList.translate (list : TwitterList) : Option Pipitor.TwitterList := do
  let id ← nonZero? list.id
  let interval ← list.interval.translate
  let delay ← list.delay.translate
  return ⟨id, interval, delay⟩

def Twitter.translate (twitter : Twitter) : Option Pipitor.Twitter := do
  let user ← Machine.tryIntoI64 twitter.user
  let list ← optionally TwitterList.translate twitter.list
  return ⟨twitter.client, user, twitter.stream, list⟩

/-- The manifest that a record stands for. -/
def Manifest.translate (manifest : Manifest) : Option Pipitor.Manifest :=
  if manifest.validate then do
    let rule ← manifest.rule.mapM (Rule.translate parsers)
    let websub ← optionally (WebSub.translate parsers) manifest.websub
    let twitter ← optionally Twitter.translate manifest.twitter
    return ⟨manifest.databaseUrl, rule, websub, twitter, manifest.skipDuplicate⟩
  else none

end Translate

/-! ### The document -/

namespace Written

def Duration.isNumber : Duration → Bool
  | .seconds _ => true
  | .record _ _ => false

def WebSub.hasNumber (websub : WebSub) : Bool := websub.renewalMargin.any (·.isNumber)

def TwitterList.hasNumber (list : TwitterList) : Bool :=
  list.interval.any (·.isNumber) || list.delay.any (·.isNumber)

def Twitter.hasNumber (twitter : Twitter) : Bool := twitter.list.any (·.hasNumber)

/-- One of the durations is written as a number. -/
def Manifest.hasNumber (manifest : Manifest) : Bool :=
  manifest.websub.any (·.hasNumber) || manifest.twitter.any (·.hasNumber)

variable {fmt : Format} (pres : Presentation fmt)

def filterMembers (title : String) (text : Option String) : List (String × Option Value) :=
  [("title", some (.str title)), ("text", pres.optional (text.map .str))]

def Filter.toValue : Filter → Value
  | .regex title => .str title
  | .record title text => pres.record (filterMembers pres title text)

def durationMembers (secs nanos : Natural) : List (String × Option Value) :=
  [("secs", some (pres.int secs)), ("nanos", some (pres.int nanos))]

def Duration.toValue : Duration → Value
  | .seconds secs => pres.int secs
  | .record secs nanos => pres.record (durationMembers pres secs nanos)

def topicValue : Topic → Value
  | .feed uri => pres.union "Feed" (.str uri)
  | .twitter id => pres.union "Twitter" (pres.int id)

def outboxValue : Dhall.Outbox → Value
  | .twitter id => pres.union "Twitter" (pres.int id)

def Outbox.toValue : Outbox → Value
  | .one id => pres.int id
  | .many outbox => .seq (outbox.map (outboxValue pres))

def Rule.members (rule : Rule) : List (String × Option Value) :=
  [("filter", pres.optional (rule.filter.map (·.toValue pres))),
    ("exclude", pres.optional (rule.exclude.map (·.toValue pres))), ("outbox", some (rule.outbox.toValue pres)),
    ("topics", some (.seq (rule.topics.map (topicValue pres))))]

def Rule.toValue (rule : Rule) : Value := pres.record (rule.members pres)

def WebSub.members (websub : WebSub) : List (String × Option Value) :=
  [("callback", some (.str websub.callback)), ("bind", pres.optional (websub.bind.map .str)),
    ("renewal_margin", websub.renewalMargin.map (·.toValue pres))]

def WebSub.toValue (websub : WebSub) : Value := pres.record (websub.members pres)

def TwitterList.members (list : TwitterList) : List (String × Option Value) :=
  [("id", some (pres.int list.id)), ("interval", list.interval.map (·.toValue pres)),
    ("delay", list.delay.map (·.toValue pres))]

def TwitterList.toValue (list : TwitterList) : Value := pres.record (list.members pres)

def credentialsMembers (client : Credentials) : List (String × Option Value) :=
  [("identifier", some (.str client.identifier)), ("secret", some (.str client.secret))]

def Twitter.members (twitter : Twitter) : List (String × Option Value) :=
  [("client", some (pres.record (credentialsMembers twitter.client))), ("user", some (pres.int twitter.user)),
    ("stream", twitter.stream.map .bool), ("list", pres.optional (twitter.list.map (·.toValue pres)))]

def Twitter.toValue (twitter : Twitter) : Value := pres.record (twitter.members pres)

def Manifest.members (manifest : Manifest) : List (String × Option Value) :=
  [("database_url", pres.optional (manifest.databaseUrl.map .str)),
    ("rule", some (.seq (manifest.rule.map (·.toValue pres)))),
    ("websub", pres.optional (manifest.websub.map (·.toValue pres))),
    ("twitter", pres.optional (manifest.twitter.map (·.toValue pres))),
    ("skip_duplicate", manifest.skipDuplicate.map .bool)]

def Manifest.toValue (manifest : Manifest) : Value := pres.record (manifest.members pres)

end Written

/-! ### Reading it -/

section Read

variable {fmt : Format} (pres : Presentation fmt) (parsers : Parsers)

theorem toOption_mapError {α ε ε' : Type} (f : ε → ε') (x : Except ε α) : (x.mapError f).toOption = x.toOption := by
  cases x <;> rfl

theorem toOption_regex (title : String) :
    (Regex.deserialize parsers (.str title)).toOption = (parsers.regex title).toOption := by
  unfold Regex.deserialize
  exact toOption_mapError _ _

theorem isSolid_str {o : Option String} : ∀ v ∈ o.map Value.str, v.IsSolid := by
  intro v hv
  obtain ⟨s, -, rfl⟩ := Option.map_eq_some_iff.mp hv
  trivial

theorem isSolid_record {α : Type} {o : Option α} {f : α → Value} (h : ∀ a, (f a).IsSolid) :
    ∀ v ∈ o.map f, v.IsSolid := by
  intro v hv
  obtain ⟨a, -, rfl⟩ := Option.map_eq_some_iff.mp hv
  exact h a

theorem isSolid_filter (filter : Written.Filter) : (filter.toValue pres).IsSolid := by
  cases filter with
  | regex title => trivial
  | record title text => trivial

theorem required_eq {α : Type} {r : Record} {name : String} {v : Value} (h : r.fields.lookup name = some v)
    (read : Value → Except Error α) : r.required name read = read v := by
  unfold Record.required
  rw [h]

theorem toOption_filter (filter : Written.Filter) :
    (Filter.deserialize fmt parsers (filter.toValue pres)).toOption = filter.complete.translate parsers := by
  cases filter with
  | regex title =>
    unfold Written.Filter.toValue Filter.deserialize Written.Filter.complete Filter.translate
    simp only [toOption_bind, toOption_mapError, toOption_pure]
    rfl
  | record title text =>
    obtain ⟨r, hrecord, -, hfields⟩ := record_presented pres ["title", "text"]
      (Written.filterMembers pres title text) rfl (by decide)
    have htitle : r.fields.lookup "title" = some (.str title) := hfields "title" (by decide)
    have htext : r.fields.lookup "text" = pres.optional (text.map .str) := hfields "text" (by decide)
    have hread : Filter.deserialize fmt parsers (Written.Filter.toValue pres (.record title text)) = (do
        let r ← Serde.record fmt ["title", "text"] (Written.Filter.toValue pres (.record title text))
        let title ← r.required "title" (Regex.deserialize parsers)
        let text ← r.default "text" none (option fmt (Regex.deserialize parsers))
        return ⟨title, text⟩) := rfl
    rw [hread, show Serde.record fmt ["title", "text"] (Written.Filter.toValue pres (.record title text)) =
      .ok r from hrecord]
    simp only [toOption_bind, toOption_pure]
    show ((r.required "title" (Regex.deserialize parsers)).toOption.bind _) = _
    rw [required_eq htitle, toOption_regex]
    simp only [toOption_default_option pres htext isSolid_str, optionally_map, toOption_regex]
    rfl

theorem translate_fromSecs (secs : Natural) : (Duration.fromSecs secs).translate = some (visitU64 secs) := by
  have hnew : Timespec.Duration.new secs 0 = some ⟨secs, 0, by decide⟩ := dif_pos (by decide)
  have hzero : (Duration.fromSecs secs).nanos.toNat < 2 ^ 32 := show (0 : Natural).toNat < 2 ^ 32 by decide
  unfold Duration.translate
  rw [if_pos hzero]
  show (deDurationFromSecs (.fields secs 0)).toOption = _
  unfold deDurationFromSecs
  dsimp only
  rw [hnew]
  exact congrArg some (Nat.add_zero _)

theorem deDuration_int (secs : Natural) : (Duration.deserialize fmt (pres.int secs)).toOption =
    if fmt.structAsAny then some (visitU64 secs) else none := by
  have hu64 := toOption_u64_int pres secs
  unfold Duration.deserialize
  rw [toOption_bind]
  simp only [toOption_mapError]
  rcases pres.int_eq secs with hint | ⟨i, -, hint⟩
  · rw [hint]
    unfold durationValue
    dsimp only
    split
    · rfl
    · rfl
  · rw [hint] at hu64 ⊢
    have hi : Machine.tryIntoU64 i = some secs := (toOption_orInvalid _).symm.trans hu64
    unfold durationValue
    dsimp only
    split
    · show (deDurationFromSecs (.i64 i)).toOption = _
      unfold deDurationFromSecs
      dsimp only
      rw [hi]
      rfl
    · rfl

theorem toOption_u32_int (n : Natural) :
    (u32 (pres.int n)).toOption = if n.toNat < 2 ^ 32 then some n.toUInt32 else none := by
  unfold u32
  rw [toOption_bind, toOption_u64_int]
  show (if n.toNat < 2 ^ 32 then _ else _ : Except Error UInt32).toOption = _
  split
  · rfl
  · rfl

/-- A duration is read as it is meant, but for a number in a format that does not hand one over. -/
theorem toOption_duration (d : Written.Duration) :
    (Duration.deserialize fmt (d.toValue pres)).toOption =
      if fmt.structAsAny || !d.isNumber then d.complete.translate else none := by
  cases d with
  | seconds secs =>
    show (Duration.deserialize fmt (pres.int secs)).toOption = _
    rw [deDuration_int]
    unfold Written.Duration.isNumber Written.Duration.complete
    dsimp only
    rw [translate_fromSecs, Bool.not_true, Bool.or_false]
  | record secs nanos =>
    obtain ⟨r, hrecord, -, hfields⟩ := record_presented pres ["secs", "nanos"]
      (Written.durationMembers pres secs nanos) rfl (by decide)
    have hsecs : r.fields.lookup "secs" = some (pres.int secs) := hfields "secs" (by decide)
    have hnanos : r.fields.lookup "nanos" = some (pres.int nanos) := hfields "nanos" (by decide)
    have hknown : ((pres.arrange (present (Written.durationMembers pres secs nanos))).all fun x =>
        x.1 = "secs" ∨ x.1 = "nanos") = true := by
      rw [(pres.perm _).all_eq]
      rfl
    have hvalue : (durationValue fmt (Written.Duration.toValue pres (.record secs nanos))).toOption =
        if nanos.toNat < 2 ^ 32 then some (.fields secs nanos.toUInt32) else none := by
      have hread : durationValue fmt (Written.Duration.toValue pres (.record secs nanos)) =
          Duration.fields fmt (Written.Duration.toValue pres (.record secs nanos)) := if_pos hknown
      rw [hread]
      unfold Duration.fields
      rw [show Serde.record fmt ["secs", "nanos"] (Written.Duration.toValue pres (.record secs nanos)) = .ok r from hrecord]
      show ((r.required "secs" u64) >>= fun secs => (r.required "nanos" u32) >>= fun nanos =>
        pure (DurationValue.fields secs nanos)).toOption = _
      rw [required_eq hsecs, required_eq hnanos]
      simp only [toOption_bind, toOption_u64_int, toOption_u32_int, toOption_pure, Option.bind_some]
      split
      · rfl
      · rfl
    unfold Duration.deserialize
    rw [toOption_bind, hvalue]
    unfold Written.Duration.isNumber Written.Duration.complete Duration.translate
    dsimp only
    rw [Bool.not_false, Bool.or_true, if_pos rfl]
    split
    · exact toOption_mapError _ _
    · rfl

theorem toOption_default_duration {r : Record} {name : String} {d : Option Written.Duration}
    (hlookup : r.fields.lookup name = d.map (·.toValue pres)) {value : Pipitor.Duration} {default : Duration}
    (hdefault : default.translate = some value) :
    (r.default name value (Duration.deserialize fmt)).toOption =
      if fmt.structAsAny || !d.any (·.isNumber) then ((d.map (·.complete)).getD default).translate else none := by
  unfold Record.default
  rw [hlookup]
  cases d with
  | none =>
    rw [Option.any_none, Bool.not_false, Bool.or_true, if_pos rfl]
    exact hdefault.symm
  | some d => exact toOption_duration pres d

theorem toOption_topic (topic : Topic) :
    (TopicId.deserialize (Written.topicValue pres topic)).toOption = topic.translate := by
  have hvariant : ∀ name v, TopicId.deserialize (.variant name (some v)) = TopicId.visit v := fun _ _ => rfl
  cases topic with
  | feed uri =>
    show (TopicId.deserialize (pres.union "Feed" (.str uri))).toOption = _
    rw [read_union pres hvariant (show _ = TopicId.visit (.str uri) from rfl)]
    rfl
  | twitter id =>
    have hint : TopicId.deserialize (pres.int id) = TopicId.visit (pres.int id) :=
      int_induction (P := fun v => TopicId.deserialize v = TopicId.visit v) pres (fun _ => rfl) (fun _ => rfl) id
    have hvisit : TopicId.visit (pres.int id) = (i64 (pres.int id)).map .twitter :=
      int_induction (P := fun v => TopicId.visit v = (i64 v).map .twitter) pres (fun _ => rfl) (fun _ => rfl) id
    show (TopicId.deserialize (pres.union "Twitter" (pres.int id))).toOption = _
    rw [read_union pres hvariant hint, hvisit, toOption_map, toOption_i64_int]
    rfl

theorem toOption_outbox (outbox : Dhall.Outbox) :
    (Outbox.deserialize (Written.outboxValue pres outbox)).toOption = outbox.translate := by
  obtain ⟨id⟩ := outbox
  have hint : Outbox.deserialize (pres.int id) = Outbox.visit (pres.int id) :=
    int_induction (P := fun v => Outbox.deserialize v = Outbox.visit v) pres (fun _ => rfl) (fun _ => rfl) id
  show (Outbox.deserialize (pres.union "Twitter" (pres.int id))).toOption = _
  rw [read_union pres (fun _ _ => rfl) hint]
  unfold Outbox.visit
  rw [toOption_map, toOption_i64_int]
  rfl

theorem toOption_deOutbox (outbox : Written.Outbox) :
    (deOutbox (outbox.toValue pres)).toOption = outbox.complete.mapM Dhall.Outbox.translate := by
  cases outbox with
  | one id =>
    have hint : deOutbox (pres.int id) = (i64 (pres.int id)).map fun id => [.twitter id] :=
      int_induction (P := fun v => deOutbox v = (i64 v).map fun id => [.twitter id]) pres (fun _ => rfl)
        (fun _ => rfl) id
    show (deOutbox (pres.int id)).toOption = [Dhall.Outbox.twitter id].mapM Dhall.Outbox.translate
    rw [hint, toOption_map, toOption_i64_int]
    rw [List.mapM_cons, List.mapM_nil]
    show _ = (Machine.tryIntoI64 id).map Pipitor.Outbox.twitter >>= _
    cases Machine.tryIntoI64 id with
    | none => rfl
    | some id => rfl
  | many outbox =>
    show ((outbox.map (Written.outboxValue pres)).mapM Outbox.deserialize).toOption = _
    rw [toOption_mapM, List.mapM_map]
    congr 1
    funext outbox
    exact toOption_outbox pres outbox

theorem toOption_rule (rule : Written.Rule) :
    (Rule.deserialize fmt parsers (rule.toValue pres)).toOption = rule.complete.translate parsers := by
  obtain ⟨r, hrecord, -, hfields⟩ := record_presented pres ["filter", "exclude", "outbox", "topics"]
    (rule.members pres) rfl (by decide)
  have hfilter : r.fields.lookup "filter" = pres.optional (rule.filter.map (·.toValue pres)) :=
    hfields "filter" (by decide)
  have hexclude : r.fields.lookup "exclude" = pres.optional (rule.exclude.map (·.toValue pres)) :=
    hfields "exclude" (by decide)
  have houtbox : r.fields.lookup "outbox" = some (rule.outbox.toValue pres) := hfields "outbox" (by decide)
  have htopics : r.fields.lookup "topics" = some (.seq (rule.topics.map (Written.topicValue pres))) :=
    hfields "topics" (by decide)
  have hreadTopics : (seq TopicId.deserialize (.seq (rule.topics.map (Written.topicValue pres)))).toOption =
      rule.topics.mapM Topic.translate := by
    show ((rule.topics.map (Written.topicValue pres)).mapM TopicId.deserialize).toOption = _
    rw [toOption_mapM, List.mapM_map]
    congr 1
    funext topic
    exact toOption_topic pres topic
  unfold Rule.deserialize
  rw [show Serde.record fmt ["filter", "exclude", "outbox", "topics"] (rule.toValue pres) = .ok r from hrecord]
  simp only [toOption_bind, toOption_pure, toOption_ok, Option.bind_some, required_eq houtbox, required_eq htopics,
    toOption_default_option pres hfilter (isSolid_record (isSolid_filter pres)),
    toOption_default_option pres hexclude (isSolid_record (isSolid_filter pres)), optionally_map, toOption_filter,
    toOption_deOutbox, hreadTopics]
  unfold Dhall.Rule.translate Written.Rule.complete
  simp only [optionally_map]
  rfl

theorem toOption_webSub (websub : Written.WebSub) :
    (WebSub.deserialize fmt parsers (websub.toValue pres)).toOption =
      if fmt.structAsAny || !websub.hasNumber then (websub.complete serdeDefaults).translate parsers else none := by
  obtain ⟨r, hrecord, hnamed, hfields⟩ := record_presented pres ["callback", "bind", "renewal_margin"]
    (websub.members pres) rfl (by decide)
  have hcallback : r.fields.lookup "callback" = some (.str websub.callback) := hfields "callback" (by decide)
  have hbind : r.fields.lookup "bind" = pres.optional (websub.bind.map .str) := hfields "bind" (by decide)
  have hmargin : r.fields.lookup "renewal_margin" = websub.renewalMargin.map (·.toValue pres) :=
    hfields "renewal_margin" (by decide)
  have hreadCallback : (Uri.deserialize parsers (.str websub.callback)).toOption =
      (App.deCallback parsers.uri websub.callback).toOption := by
    unfold Uri.deserialize
    exact toOption_mapError _ _
  have hdefault : serdeDefaults.renewalMargin.translate = some oneHour := translate_fromSecs (60 * 60)
  unfold WebSub.deserialize
  rw [show Serde.record fmt ["callback", "bind", "renewal_margin"] (websub.toValue pres) = .ok r from hrecord]
  simp only [toOption_bind, toOption_pure, toOption_ok, Option.bind_some, required_eq hcallback,
    toOption_optional pres hnamed hbind isSolid_str, optionally_map,
    toOption_default_duration pres hmargin hdefault]
  by_cases h : (fmt.structAsAny || !websub.renewalMargin.any (·.isNumber)) = true
  · rw [if_pos (show (fmt.structAsAny || !websub.hasNumber) = true from h)]
    simp only [if_pos h, hreadCallback]
    rfl
  · rw [if_neg (show ¬ (fmt.structAsAny || !websub.hasNumber) = true from h)]
    simp only [if_neg h, Option.bind_none, Option.bind_fun_none]

theorem toOption_twitterList (list : Written.TwitterList) :
    (TwitterList.deserialize fmt (list.toValue pres)).toOption =
      if fmt.structAsAny || !list.hasNumber then (list.complete serdeDefaults).translate else none := by
  obtain ⟨r, hrecord, -, hfields⟩ := record_presented pres ["id", "interval", "delay"] (list.members pres) rfl
    (by decide)
  have hid : r.fields.lookup "id" = some (pres.int list.id) := hfields "id" (by decide)
  have hinterval : r.fields.lookup "interval" = list.interval.map (·.toValue pres) := hfields "interval" (by decide)
  have hdelay : r.fields.lookup "delay" = list.delay.map (·.toValue pres) := hfields "delay" (by decide)
  have hreadId : (nonZero (pres.int list.id)).toOption = nonZero? list.id := by
    unfold nonZero nonZero?
    rw [toOption_bind, toOption_u64_int]
    show (if h : list.id ≠ 0 then _ else _ : Except Error { id : UInt64 // id ≠ 0 }).toOption = _
    split
    · rfl
    · rfl
  have hdefaultInterval : serdeDefaults.interval.translate = some oneSec := translate_fromSecs 1
  have hdefaultDelay : serdeDefaults.delay.translate = some oneSec := translate_fromSecs 1
  unfold TwitterList.deserialize
  rw [show Serde.record fmt ["id", "interval", "delay"] (list.toValue pres) = .ok r from hrecord]
  simp only [toOption_bind, toOption_pure, toOption_ok, Option.bind_some, required_eq hid, hreadId,
    toOption_default_duration pres hinterval hdefaultInterval, toOption_default_duration pres hdelay hdefaultDelay]
  by_cases hi : (fmt.structAsAny || !list.interval.any (·.isNumber)) = true
  · by_cases hd : (fmt.structAsAny || !list.delay.any (·.isNumber)) = true
    · have h : (fmt.structAsAny || !list.hasNumber) = true := by
        unfold Written.TwitterList.hasNumber
        rw [Bool.not_or, Bool.or_and_distrib_left, hi, hd]
        rfl
      simp only [if_pos hi, if_pos hd, if_pos h]
      rfl
    · have h : ¬ (fmt.structAsAny || !list.hasNumber) = true := by
        unfold Written.TwitterList.hasNumber
        rw [Bool.not_or, Bool.or_and_distrib_left, Bool.and_eq_true]
        exact fun h => hd h.2
      simp only [if_neg hd, if_neg h, Option.bind_none, Option.bind_fun_none]
  · have h : ¬ (fmt.structAsAny || !list.hasNumber) = true := by
      unfold Written.TwitterList.hasNumber
      rw [Bool.not_or, Bool.or_and_distrib_left, Bool.and_eq_true]
      exact fun h => hi h.1
    simp only [if_neg hi, if_neg h, Option.bind_none, Option.bind_fun_none]

theorem toOption_credentials (client : Credentials) :
    (Credentials.deserialize fmt (pres.record (Written.credentialsMembers client))).toOption = some client := by
  obtain ⟨r, hrecord, -, hfields⟩ := record_presented pres ["identifier", "secret"]
    (Written.credentialsMembers client) rfl (by decide)
  have hidentifier : r.fields.lookup "identifier" = some (.str client.identifier) := hfields "identifier" (by decide)
  have hsecret : r.fields.lookup "secret" = some (.str client.secret) := hfields "secret" (by decide)
  unfold Credentials.deserialize
  rw [hrecord]
  simp only [toOption_bind, toOption_pure, toOption_ok, Option.bind_some, required_eq hidentifier, required_eq hsecret]
  rfl

theorem toOption_default_boolean {r : Record} {name : String} {b : Option Bool}
    (hlookup : r.fields.lookup name = b.map .bool) (value : Bool) :
    (r.default name value boolean).toOption = some (b.getD value) := by
  unfold Record.default
  rw [hlookup]
  cases b with
  | none => rfl
  | some b => rfl

theorem isSolid_twitterList (list : Written.TwitterList) : (list.toValue pres).IsSolid := trivial

theorem toOption_twitter (twitter : Written.Twitter) :
    (Twitter.deserialize fmt (twitter.toValue pres)).toOption =
      if fmt.structAsAny || !twitter.hasNumber then (twitter.complete serdeDefaults).translate else none := by
  obtain ⟨r, hrecord, -, hfields⟩ := record_presented pres ["client", "user", "stream", "list"]
    (twitter.members pres) rfl (by decide)
  have hclient : r.fields.lookup "client" = some (pres.record (Written.credentialsMembers twitter.client)) :=
    hfields "client" (by decide)
  have huser : r.fields.lookup "user" = some (pres.int twitter.user) := hfields "user" (by decide)
  have hstream : r.fields.lookup "stream" = twitter.stream.map .bool := hfields "stream" (by decide)
  have hlist : r.fields.lookup "list" = pres.optional (twitter.list.map (·.toValue pres)) :=
    hfields "list" (by decide)
  unfold Twitter.deserialize
  rw [show Serde.record fmt ["client", "user", "stream", "list"] (twitter.toValue pres) = .ok r from hrecord]
  simp only [toOption_bind, toOption_pure, toOption_ok, Option.bind_some, required_eq hclient, required_eq huser,
    toOption_credentials, toOption_i64_int, toOption_default_boolean hstream,
    toOption_default_option pres hlist (isSolid_record (isSolid_twitterList pres)), optionally_map,
    toOption_twitterList, optionally_ite]
  by_cases h : (fmt.structAsAny || !twitter.list.any (·.hasNumber)) = true
  · rw [if_pos (show (fmt.structAsAny || !twitter.hasNumber) = true from h)]
    simp only [if_pos h]
    unfold Dhall.Twitter.translate Written.Twitter.complete
    simp only [optionally_map]
    rfl
  · rw [if_neg (show ¬ (fmt.structAsAny || !twitter.hasNumber) = true from h)]
    simp only [if_neg h, Option.bind_none, Option.bind_fun_none]

end Read

/-! ### Validation -/

section Validate

variable {parsers : Parsers}

theorem ne_twitter_iff {topic : Topic} {topic' : TopicId} (h : topic.translate = some topic') :
    (∀ id, topic ≠ .twitter id) ↔ ∀ user, topic' ≠ .twitter user := by
  cases topic with
  | feed uri =>
    rw [← Option.some.inj h]
    exact ⟨fun _ _ h => TopicId.noConfusion h, fun _ _ h => Topic.noConfusion h⟩
  | twitter id =>
    obtain ⟨user, -, rfl⟩ := Option.map_eq_some_iff.mp h
    exact ⟨fun h => absurd rfl (h id), fun h => absurd rfl (h user)⟩

theorem Manifest.twitterTopics_eq_nil_iff (manifest : Manifest) : manifest.twitterTopics = [] ↔
    ∀ rule ∈ manifest.rule, ∀ topic ∈ rule.topics, ∀ id, topic ≠ .twitter id := by
  unfold Manifest.twitterTopics Rule.twitterTopics
  simp only [List.flatMap_eq_nil_iff, List.filterMap_eq_nil_iff]
  refine forall₂_congr fun rule _ => forall₂_congr fun topic _ => ?_
  cases topic with
  | feed uri => exact ⟨fun _ _ h => Topic.noConfusion h, fun _ => rfl⟩
  | twitter id => exact ⟨fun h => absurd h (Option.some_ne_none id), fun h => absurd rfl (h id)⟩

theorem twitterTopics_eq_nil_iff (m : Pipitor.Manifest) :
    m.twitterTopics = [] ↔ ∀ rule ∈ m.rule, ∀ topic ∈ rule.topics, ∀ user, topic ≠ .twitter user := by
  unfold Pipitor.Manifest.twitterTopics Pipitor.Manifest.topics
  simp only [List.filterMap_eq_nil_iff, List.mem_flatMap, forall_exists_index, and_imp]
  constructor
  · intro h rule hrule topic htopic user heq
    have hnone := h topic rule hrule htopic
    rw [heq] at hnone
    cases hnone
  · intro h topic rule hrule htopic
    cases topic with
    | feed uri => rfl
    | twitter user => exact absurd rfl (h rule hrule _ htopic user)

theorem Rule.translate_eq_some {rule : Rule} {rule' : Pipitor.Rule} (h : rule.translate parsers = some rule') :
    rule.topics.mapM Topic.translate = some rule'.topics ∧
      rule.outbox.mapM Outbox.translate = some rule'.route.outbox := by
  obtain ⟨filter, -, h⟩ := Option.bind_eq_some_iff.mp h
  obtain ⟨exclude, -, h⟩ := Option.bind_eq_some_iff.mp h
  obtain ⟨outbox, houtbox, h⟩ := Option.bind_eq_some_iff.mp h
  obtain ⟨topics, htopics, h⟩ := Option.bind_eq_some_iff.mp h
  rw [← Option.some.inj h]
  exact ⟨htopics, houtbox⟩

/-- `Manifest/validate` says of a record what `validate_` says of the manifest. -/
theorem validate_iff {manifest : Manifest} {m : Pipitor.Manifest}
    (hrule : manifest.rule.mapM (Rule.translate parsers) = some m.rule)
    (htwitter : m.twitter.isNone = manifest.twitter.isNone) : manifest.validate = true ↔ m.validate? = none := by
  have htopics : manifest.twitterTopics = [] ↔ m.twitterTopics = [] := by
    rw [manifest.twitterTopics_eq_nil_iff, twitterTopics_eq_nil_iff]
    refine forall_mapM_iff hrule fun rule rule' htranslate => ?_
    exact forall_mapM_iff (Rule.translate_eq_some htranslate).1 fun topic topic' => ne_twitter_iff
  have houtboxes : manifest.twitterOutboxes = [] ↔ m.twitterOutboxes = [] := by
    unfold Manifest.twitterOutboxes Rule.twitterOutboxes Pipitor.Manifest.twitterOutboxes Pipitor.Manifest.outboxes
    simp only [List.flatMap_eq_nil_iff, List.map_eq_nil_iff]
    refine forall_mapM_iff hrule fun rule rule' htranslate => ?_
    have hiff := forall_mapM_iff (Rule.translate_eq_some htranslate).2 (P := fun _ => False) (Q := fun _ => False)
      fun _ _ _ => Iff.rfl
    rw [List.eq_nil_iff_forall_not_mem, List.eq_nil_iff_forall_not_mem]
    exact hiff
  unfold Manifest.validate Pipitor.Manifest.validate?
  rw [Bool.or_eq_true, List.isEmpty_iff, List.append_eq_nil_iff, htopics, houtboxes, htwitter]
  cases manifest.twitter with
  | some twitter => exact ⟨fun _ => rfl, fun _ => .inl rfl⟩
  | none =>
    by_cases ht : m.twitterTopics = []
    · by_cases ho : m.twitterOutboxes = []
      · simp [ht, ho]
      · simp [ht, ho]
    · simp [ht]

theorem isNone_of_optionally {α β : Type} {f : α → Option β} {o : Option α} {o' : Option β}
    (h : optionally f o = some o') : o'.isNone = o.isNone := by
  cases o with
  | none =>
    rw [← Option.some.inj h]
    rfl
  | some a =>
    obtain ⟨b, -, rfl⟩ := Option.map_eq_some_iff.mp h
    rfl

/-- It is all the same whether the record is validated or the manifest. -/
theorem toOption_validated {manifest : Manifest} {rule : List Pipitor.Rule} {websub : Option Pipitor.WebSub}
    {twitter : Option Pipitor.Twitter} (hrule : manifest.rule.mapM (Rule.translate parsers) = some rule)
    (htwitter : optionally Twitter.translate manifest.twitter = some twitter) (databaseUrl : Option String)
    (skipDuplicate : Bool) :
    (Manifest.validated ⟨databaseUrl, rule, websub, twitter, skipDuplicate⟩).toOption =
      if manifest.validate then some ⟨databaseUrl, rule, websub, twitter, skipDuplicate⟩ else none := by
  have hiff := validate_iff (m := ⟨databaseUrl, rule, websub, twitter, skipDuplicate⟩) hrule
    (isNone_of_optionally htwitter)
  unfold Pipitor.Manifest.validated
  by_cases hvalid : manifest.validate = true
  · rw [hiff.mp hvalid, if_pos hvalid]
    rfl
  · rw [if_neg hvalid]
    split
    · rfl
    · rename_i hnone
      exact absurd (hiff.mpr hnone) hvalid

theorem Manifest.translate_eq (manifest : Manifest) : manifest.translate parsers =
    (manifest.rule.mapM (Rule.translate parsers)).bind fun rule =>
      (optionally (WebSub.translate parsers) manifest.websub).bind fun websub =>
        (optionally Twitter.translate manifest.twitter).bind fun twitter =>
          (Manifest.validated ⟨manifest.databaseUrl, rule, websub, twitter, manifest.skipDuplicate⟩).toOption := by
  unfold Manifest.translate
  cases hrule : manifest.rule.mapM (Rule.translate parsers) with
  | none => exact ite_self _
  | some rule =>
    cases optionally (WebSub.translate parsers) manifest.websub with
    | none => exact ite_self _
    | some websub =>
      cases htwitter : optionally Twitter.translate manifest.twitter with
      | none => exact ite_self _
      | some twitter => exact (toOption_validated hrule htwitter _ _).symm

end Validate

section Read

variable {fmt : Format} (pres : Presentation fmt) (parsers : Parsers)

theorem isSolid_webSub (websub : Written.WebSub) : (websub.toValue pres).IsSolid := trivial

theorem isSolid_twitter (twitter : Written.Twitter) : (twitter.toValue pres).IsSolid := trivial

/-- The manifest that comes of a document is the one that the record stands for, which `Manifest/validate` accepts. A
number for a duration is refused by a format whose numbers are no structures. -/
theorem toOption_deserialize (manifest : Written.Manifest) :
    (Manifest.deserialize fmt parsers (manifest.toValue pres)).toOption =
      if fmt.structAsAny || !manifest.hasNumber then (manifest.complete serdeDefaults).translate parsers else none := by
  obtain ⟨r, hrecord, -, hfields⟩ := record_presented pres
    ["database_url", "rule", "websub", "twitter", "skip_duplicate"] (manifest.members pres) rfl (by decide)
  have hurl : r.fields.lookup "database_url" = pres.optional (manifest.databaseUrl.map .str) :=
    hfields "database_url" (by decide)
  have hrule : r.fields.lookup "rule" = some (.seq (manifest.rule.map (·.toValue pres))) := hfields "rule" (by decide)
  have hwebsub : r.fields.lookup "websub" = pres.optional (manifest.websub.map (·.toValue pres)) :=
    hfields "websub" (by decide)
  have htwitter : r.fields.lookup "twitter" = pres.optional (manifest.twitter.map (·.toValue pres)) :=
    hfields "twitter" (by decide)
  have hskip : r.fields.lookup "skip_duplicate" = manifest.skipDuplicate.map .bool :=
    hfields "skip_duplicate" (by decide)
  have hreadUrl : optionally (fun s => (string (.str s)).toOption) manifest.databaseUrl = some manifest.databaseUrl := by
    cases manifest.databaseUrl with
    | none => rfl
    | some url => rfl
  have hreadRule : (seq (Rule.deserialize fmt parsers) (.seq (manifest.rule.map (·.toValue pres)))).toOption =
      (manifest.rule.map (·.complete)).mapM (Rule.translate parsers) := by
    show ((manifest.rule.map (·.toValue pres)).mapM (Rule.deserialize fmt parsers)).toOption = _
    rw [toOption_mapM, List.mapM_map, List.mapM_map]
    congr 1
    funext rule
    exact toOption_rule pres parsers rule
  unfold Manifest.deserialize
  rw [show Serde.record fmt ["database_url", "rule", "websub", "twitter", "skip_duplicate"] (manifest.toValue pres) =
    .ok r from hrecord]
  simp only [toOption_bind, toOption_ok, Option.bind_some, required_eq hrule, hreadRule,
    toOption_default_option pres hurl isSolid_str, toOption_default_boolean hskip,
    toOption_default_option pres hwebsub (isSolid_record (isSolid_webSub pres)),
    toOption_default_option pres htwitter (isSolid_record (isSolid_twitter pres)), optionally_map, hreadUrl,
    toOption_webSub, toOption_twitter, optionally_ite]
  by_cases hw : (fmt.structAsAny || !manifest.websub.any (·.hasNumber)) = true
  · by_cases ht : (fmt.structAsAny || !manifest.twitter.any (·.hasNumber)) = true
    · have h : (fmt.structAsAny || !manifest.hasNumber) = true := by
        unfold Written.Manifest.hasNumber
        rw [Bool.not_or, Bool.or_and_distrib_left, hw, ht]
        rfl
      simp only [if_pos hw, if_pos ht, if_pos h, Manifest.translate_eq]
      unfold Written.Manifest.complete
      simp only [optionally_map]
      rfl
    · have h : ¬ (fmt.structAsAny || !manifest.hasNumber) = true := by
        unfold Written.Manifest.hasNumber
        rw [Bool.not_or, Bool.or_and_distrib_left, Bool.and_eq_true]
        exact fun h => ht h.2
      simp only [if_neg ht, if_neg h, Option.bind_none, Option.bind_fun_none]
  · have h : ¬ (fmt.structAsAny || !manifest.hasNumber) = true := by
      unfold Written.Manifest.hasNumber
      rw [Bool.not_or, Bool.or_and_distrib_left, Bool.and_eq_true]
      exact fun h => hw h.1
    simp only [if_neg hw, if_neg h, Option.bind_none, Option.bind_fun_none]

end Read

/-! ### The defaults of the package -/

/-- The record with all that it has written out. -/
def Filter.written (filter : Filter) : Written.Filter := .record filter.title filter.text

def Duration.written (d : Duration) : Written.Duration := .record d.secs d.nanos

def Rule.written (rule : Rule) : Written.Rule where
  filter := rule.filter.map (·.written)
  exclude := rule.exclude.map (·.written)
  outbox := .many rule.outbox
  topics := rule.topics

def WebSub.written (websub : WebSub) : Written.WebSub where
  callback := websub.callback
  bind := websub.bind
  renewalMargin := some websub.renewalMargin.written

def TwitterList.written (list : TwitterList) : Written.TwitterList where
  id := list.id
  interval := some list.interval.written
  delay := some list.delay.written

def Twitter.written (twitter : Twitter) : Written.Twitter where
  client := twitter.client
  user := twitter.user
  stream := some twitter.stream
  list := twitter.list.map (·.written)

def Manifest.written (manifest : Manifest) : Written.Manifest where
  databaseUrl := manifest.databaseUrl
  websub := manifest.websub.map (·.written)
  twitter := manifest.twitter.map (·.written)
  rule := manifest.rule.map (·.written)
  skipDuplicate := some manifest.skipDuplicate

namespace Written

/-- Nothing is left to a default about which the package and the deserializer differ. -/
def Twitter.settled (twitter : Twitter) : Bool := twitter.stream.isSome && twitter.list.all (·.delay.isSome)

def Manifest.settled (manifest : Manifest) : Bool := manifest.twitter.all (·.settled)

/-- What the package makes of what the deserializer has made of a list. -/
def TwitterList.asPackage (list : TwitterList) (x : Pipitor.TwitterList) : Pipitor.TwitterList :=
  { x with delay := if list.delay.isSome then x.delay else 0 }

def Twitter.asPackage (twitter : Twitter) (x : Pipitor.Twitter) : Pipitor.Twitter :=
  { x with
    stream := if twitter.stream.isSome then x.stream else false
    list := twitter.list.bind fun list => x.list.map list.asPackage }

def Manifest.asPackage (manifest : Manifest) (x : Pipitor.Manifest) : Pipitor.Manifest :=
  { x with twitter := manifest.twitter.bind fun twitter => x.twitter.map twitter.asPackage }

end Written

section Package

variable {parsers : Parsers}

theorem Manifest.complete_written (manifest : Manifest) (defaults : Defaults) :
    manifest.written.complete defaults = manifest := by
  have hrule : ∀ rule : Rule, rule.written.complete = rule := by
    intro rule
    unfold Rule.written Written.Rule.complete
    simp only [Option.map_map]
    rw [show Written.Filter.complete ∘ Filter.written = id from rfl, Option.map_id]
    rfl
  have htwitter : ∀ twitter : Twitter, twitter.written.complete defaults = twitter := by
    intro twitter
    unfold Twitter.written Written.Twitter.complete
    simp only [Option.map_map]
    rw [show (fun list : Written.TwitterList => list.complete defaults) ∘ TwitterList.written = id from rfl,
      Option.map_id]
    rfl
  unfold Manifest.written Written.Manifest.complete
  simp only [Option.map_map, List.map_map]
  rw [show (fun rule : Written.Rule => rule.complete) ∘ Rule.written = id from funext hrule, List.map_id,
    show (fun twitter : Written.Twitter => twitter.complete defaults) ∘ Twitter.written = id from funext htwitter,
    Option.map_id, show (fun websub : Written.WebSub => websub.complete defaults) ∘ WebSub.written = id from rfl,
    Option.map_id]
  rfl

theorem Manifest.hasNumber_written (manifest : Manifest) : manifest.written.hasNumber = false := by
  have hlist : ∀ list : TwitterList, list.written.hasNumber = false := fun _ => rfl
  have htwitter : ∀ twitter : Twitter, twitter.written.hasNumber = false := by
    intro twitter
    unfold Written.Twitter.hasNumber Twitter.written
    cases twitter.list with
    | none => rfl
    | some list => rfl
  unfold Written.Manifest.hasNumber Manifest.written
  cases manifest.websub with
  | none =>
    cases manifest.twitter with
    | none => rfl
    | some twitter => exact htwitter twitter
  | some websub =>
    cases manifest.twitter with
    | none => rfl
    | some twitter => exact htwitter twitter

theorem TwitterList.translate_package {list : Written.TwitterList} {x : Pipitor.TwitterList}
    (h : (list.complete serdeDefaults).translate = some x) :
    (list.complete packageDefaults).translate = some (list.asPackage x) ∧
      (list.asPackage x = x ↔ list.delay.isSome = true) := by
  obtain ⟨id, hid, h⟩ := Option.bind_eq_some_iff.mp h
  obtain ⟨interval, hinterval, h⟩ := Option.bind_eq_some_iff.mp h
  obtain ⟨delay, hdelay, h⟩ := Option.bind_eq_some_iff.mp h
  rw [← Option.some.inj h]
  have htranslate : (list.complete packageDefaults).translate =
      (nonZero? list.id).bind fun id => (list.complete serdeDefaults).interval.translate.bind fun interval =>
        (list.complete packageDefaults).delay.translate.bind fun delay => some ⟨id, interval, delay⟩ := rfl
  rw [htranslate, show nonZero? list.id = some id from hid, hinterval]
  simp only [Option.bind_some]
  unfold Written.TwitterList.complete at hdelay ⊢
  unfold Written.TwitterList.asPackage
  cases hgiven : list.delay with
  | none =>
    rw [hgiven] at hdelay
    have hserde : serdeDefaults.delay.translate = some oneSec := translate_fromSecs 1
    have hpackage : packageDefaults.delay.translate = some 0 := translate_fromSecs 0
    obtain rfl : oneSec = delay := Option.some.inj (hserde.symm.trans hdelay)
    constructor
    · show packageDefaults.delay.translate.bind _ = _
      rw [hpackage]
      rfl
    · refine ⟨fun heq => ?_, fun h => Bool.noConfusion h⟩
      have hzero : (0 : Pipitor.Duration) = oneSec := congrArg (·.delay) heq
      exact absurd hzero (by decide)
  | some d =>
    rw [hgiven] at hdelay
    constructor
    · show d.complete.translate.bind _ = _
      rw [show d.complete.translate = some delay from hdelay]
      rfl
    · exact ⟨fun _ => rfl, fun _ => rfl⟩

theorem optionally_adjust {α β : Type} {f g : α → Option β} {adjust : α → β → β} {p : α → Bool} {o : Option α}
    {o' : Option β} (h : optionally f o = some o')
    (hadjust : ∀ a b, f a = some b → g a = some (adjust a b) ∧ (adjust a b = b ↔ p a = true)) :
    optionally g o = some (o.bind fun a => o'.map (adjust a)) ∧
      ((o.bind fun a => o'.map (adjust a)) = o' ↔ o.all p = true) := by
  cases o with
  | none =>
    rw [← Option.some.inj h]
    exact ⟨rfl, fun _ => rfl, fun _ => rfl⟩
  | some a =>
    obtain ⟨b, hb, rfl⟩ := Option.map_eq_some_iff.mp h
    obtain ⟨hg, hiff⟩ := hadjust a b hb
    constructor
    · show (g a).map some = _
      rw [hg]
      rfl
    · rw [Option.all_some, ← hiff]
      exact Option.some_inj

theorem Twitter.translate_package {twitter : Written.Twitter} {x : Pipitor.Twitter}
    (h : (twitter.complete serdeDefaults).translate = some x) :
    (twitter.complete packageDefaults).translate = some (twitter.asPackage x) ∧
      (twitter.asPackage x = x ↔ twitter.settled = true) := by
  obtain ⟨user, huser, h⟩ := Option.bind_eq_some_iff.mp h
  obtain ⟨list, hlist, h⟩ := Option.bind_eq_some_iff.mp h
  rw [← Option.some.inj h]
  have hlist' : optionally (fun list : Written.TwitterList => (list.complete serdeDefaults).translate) twitter.list =
      some list := by
    rw [← hlist]
    exact (optionally_map _ _ _).symm
  obtain ⟨hpackage, hsame⟩ := optionally_adjust hlist' fun _ _ => TwitterList.translate_package
  constructor
  · have htranslate : (twitter.complete packageDefaults).translate =
        (Machine.tryIntoI64 twitter.user).bind fun user =>
          (optionally TwitterList.translate (twitter.list.map (·.complete packageDefaults))).bind fun list =>
            some ⟨twitter.client, user, twitter.stream.getD false, list⟩ := rfl
    rw [htranslate, show Machine.tryIntoI64 twitter.user = some user from huser, optionally_map, hpackage]
    simp only [Option.bind_some]
    unfold Written.Twitter.asPackage Written.Twitter.complete
    cases twitter.stream with
    | none => rfl
    | some stream => rfl
  · unfold Written.Twitter.settled
    rw [Bool.and_eq_true, ← hsame]
    unfold Written.Twitter.asPackage Written.Twitter.complete
    rw [Pipitor.Twitter.mk.injEq]
    cases twitter.stream with
    | none =>
      refine ⟨fun h => ?_, fun h => Bool.noConfusion h.1⟩
      exact Bool.noConfusion (show false = true from h.2.2.1)
    | some stream => exact ⟨fun h => ⟨rfl, h.2.2.2⟩, fun h => ⟨rfl, rfl, rfl, h.2⟩⟩

theorem Manifest.translate_package {manifest : Written.Manifest} {x : Pipitor.Manifest}
    (h : (manifest.complete serdeDefaults).translate parsers = some x) :
    (manifest.complete packageDefaults).translate parsers = some (manifest.asPackage x) ∧
      (manifest.asPackage x = x ↔ manifest.settled = true) := by
  unfold Manifest.translate at h ⊢
  have hvalid : (manifest.complete packageDefaults).validate = (manifest.complete serdeDefaults).validate := by
    unfold Manifest.validate Written.Manifest.complete
    simp only [Option.isNone_map]
    rfl
  rw [hvalid]
  split at h
  · rename_i hvalid
    rw [if_pos hvalid]
    obtain ⟨rule, hrule, h⟩ := Option.bind_eq_some_iff.mp h
    obtain ⟨websub, hwebsub, h⟩ := Option.bind_eq_some_iff.mp h
    obtain ⟨twitter, htwitter, h⟩ := Option.bind_eq_some_iff.mp h
    rw [← Option.some.inj h]
    have htwitter' : optionally (fun twitter : Written.Twitter => (twitter.complete serdeDefaults).translate)
        manifest.twitter = some twitter := by
      rw [← htwitter]
      exact (optionally_map _ _ _).symm
    obtain ⟨hpackage, hsame⟩ := optionally_adjust htwitter' fun _ _ => Twitter.translate_package
    have hmargin : packageDefaults.renewalMargin = serdeDefaults.renewalMargin := by decide
    have hcomplete : (manifest.complete packageDefaults).websub = (manifest.complete serdeDefaults).websub := by
      unfold Written.Manifest.complete Written.WebSub.complete
      rw [hmargin]
    constructor
    · show (((manifest.complete serdeDefaults).rule.mapM (Rule.translate parsers)).bind fun rule =>
        (optionally (WebSub.translate parsers) (manifest.complete packageDefaults).websub).bind fun websub =>
          (optionally Twitter.translate (manifest.twitter.map (·.complete packageDefaults))).bind fun twitter =>
            some (⟨manifest.databaseUrl, rule, websub, twitter, (manifest.complete serdeDefaults).skipDuplicate⟩ :
              Pipitor.Manifest)) = _
      rw [hrule, hcomplete, hwebsub, optionally_map, hpackage]
      rfl
    · unfold Written.Manifest.settled Written.Manifest.asPackage
      rw [← hsame, Pipitor.Manifest.mk.injEq]
      exact ⟨fun h => h.2.2.2.1, fun h => ⟨rfl, rfl, rfl, h, rfl⟩⟩
  · cases h

variable {fmt fmt' : Format} (pres : Presentation fmt) (pres' : Presentation fmt')

theorem eq_ok_of_toOption {ε α : Type} {x : Except ε α} {a : α} (h : x.toOption = some a) : x = .ok a := by
  cases x with
  | error e => cases h
  | ok b => rw [Option.some.inj h]

/-- A document and the record that the package completes it to are the same manifest only if nothing is left to the
default of `stream` or `delay`. -/
theorem deserialize_package {manifest : Written.Manifest} {x : Pipitor.Manifest}
    (h : Manifest.deserialize fmt parsers (manifest.toValue pres) = .ok x) :
    Manifest.deserialize fmt' parsers ((manifest.complete packageDefaults).written.toValue pres') =
        .ok (manifest.asPackage x) ∧
      (manifest.asPackage x = x ↔ manifest.settled = true) := by
  have hread := toOption_deserialize pres parsers manifest
  rw [h] at hread
  split at hread
  · obtain ⟨hpackage, hsame⟩ := Manifest.translate_package hread.symm
    refine ⟨eq_ok_of_toOption ?_, hsame⟩
    rw [toOption_deserialize, Manifest.hasNumber_written, Bool.not_false, Bool.or_true, if_pos rfl,
      Manifest.complete_written]
    exact hpackage
  · cases hread

end Package

/-! ### An example -/

def jsonFormat : Format := ⟨true, true, false⟩

def dhallFormat : Format := ⟨false, false, true⟩

/-- Numbers and optional values are written as they are. -/
def jsonPresentation : Presentation jsonFormat where
  arrange := id
  perm _ := .refl _
  int := .u64
  int_eq _ := .inl rfl
  optional := id
  optional_none := .inl rfl
  optional_some _ := .inr ⟨rfl, rfl⟩
  union _ v := v
  union_eq _ _ := .inl rfl

/-- Optional values and unions are of types of their own. -/
def dhallPresentation : Presentation dhallFormat where
  arrange := id
  perm _ := .refl _
  int := .u64
  int_eq _ := .inl rfl
  optional o := some (o.elim .none .some)
  optional_none := .inr (.inr rfl)
  optional_some _ := .inl rfl
  union name v := .variant name (some v)
  union_eq _ _ := .inr rfl

/-- A list of which only the ID is given. -/
def listed : Written.Manifest where
  databaseUrl := none
  websub := none
  twitter := some ⟨⟨"key", "secret"⟩, 12345, none, some ⟨12345, none, none⟩⟩
  rule := [⟨none, none, .one 12345, [.twitter 783214]⟩]
  skipDuplicate := none

def noParsers : Parsers := ⟨fun _ => .error "regex", fun _ => .error "uri", fun _ => .error "address"⟩

/-- The streaming API is used or not, and the list is read with a delay or without. -/
theorem deserialize_package_listed : ∃ x y,
    Manifest.deserialize jsonFormat noParsers (listed.toValue jsonPresentation) = .ok x ∧
      Manifest.deserialize dhallFormat noParsers ((listed.complete packageDefaults).written.toValue dhallPresentation) =
        .ok y ∧ y ≠ x := by
  obtain ⟨x, hx⟩ : ∃ x, Manifest.deserialize jsonFormat noParsers (listed.toValue jsonPresentation) = .ok x :=
    ⟨_, by with_unfolding_all rfl⟩
  obtain ⟨hy, hsame⟩ := deserialize_package jsonPresentation dhallPresentation hx
  exact ⟨x, _, hx, hy, fun heq => Bool.noConfusion (hsame.mp heq)⟩

end Pipitor.Dhall
