import Pipitor.Feed
import Pipitor.Foundation.Hex
import Pipitor.Websub.Callback
import Pipitor.Websub.Service

/-!
# Content distribution

`Service::call`: a request with a query is a verification of intent, any other one brings an updated feed.
The latter is answered before its body is there; the future that is spawned folds the body into the content
and the MAC and, if the signature is that of the content, sends the feed to the `Subscriber`.

`delivered_iff` says exactly which requests put something into the channel.
-/

namespace Pipitor.Websub

open Machine Resumption Relational

/-- `http::Request`. The names of the headers are in lower case. An item of the body is a chunk or an error
of the transport. -/
structure Request where
  uri : Uri
  headers : List (String × List UInt8)
  body : List (Except String (List UInt8))

/-- `HeaderMap::get`: the first value of a header. -/
def Request.header (req : Request) (name : String) : Option (List UInt8) :=
  (req.headers.find? (·.1 = name)).map (·.2)

/-- The whole body, if it ends without an error. -/
def Request.content (req : Request) : Option (List UInt8) :=
  match req.body.mapM id with
  | .ok chunks => some chunks.flatten
  | .error _ => none

/-- A message authentication code that is fed with chunks. -/
structure Digest where
  State : Type
  new : List UInt8 → State
  update : State → List UInt8 → State
  finalize : State → List UInt8

/-- The third-party functions that `call` calls, besides those of `Libraries`. -/
structure CallLibraries where
  /-- `base64::decode_config` with `URL_SAFE_NO_PAD`. -/
  decode : String → Option (List UInt8)
  /-- `HeaderValue::to_str`. -/
  toStr : List UInt8 → Option String
  /-- `str::parse::<Mime>`. -/
  parseMime : String → Option Mime
  /-- `hex::decode_to_slice`, with the length of the slice. -/
  hexDecode : List UInt8 → ℕ → Option (List UInt8)
  /-- `Hmac::<Sha1>`. -/
  hmac : Digest
  readers : Readers

/-- How `call` may panic. -/
inductive CallPanic
  | decode
  | verify (e : Abort)
deriving DecidableEq, Repr

/-- The future that `call` spawns. -/
structure VerifySignature (lib : CallLibraries) where
  kind : MediaType
  signature : List UInt8
  topic : String
  mac : lib.hmac.State
  body : List (Except String (List UInt8))

def hubSignature : String := "x-hub-signature"

def sha1 : List UInt8 := [115, 104, 97, 49]

/-- The length of the output of SHA-1. -/
def sha1Len : ℕ := 20

/-- `str::as_bytes`. -/
def asBytes (s : String) : List UInt8 := s.toUTF8.data.toList

/-- The bytes before and after the first `=`. -/
def splitSignature (header : List UInt8) : Option (List UInt8 × List UInt8) :=
  (header.findIdx? (· = 61)).map fun i => (header.take i, header.drop (i + 1))

namespace VerifySignature

variable {lib : CallLibraries} (v : VerifySignature lib)

/-- The closure of `try_fold`. -/
def fold (s : List UInt8 × lib.hmac.State) (item : Except String (List UInt8)) :
    Except String (List UInt8 × lib.hmac.State) :=
  match item with
  | .ok chunk => .ok (s.1 ++ chunk, lib.hmac.update s.2 chunk)
  | .error e => .error e

/-- What the future sends to the channel. -/
def run : Option (String × Feed) :=
  match v.body.foldlM fold ([], v.mac) with
  | .error _ => none
  | .ok (content, mac) =>
    if lib.hmac.finalize mac = v.signature then
      (Feed.parse lib.readers v.kind content).map fun feed => (v.topic, feed)
    else none

end VerifySignature

namespace Service

variable (svc : Service) (lib : CallLibraries)

/-- `call` for a request without a query, once the id is there. -/
def receive (id : Int64) (req : Request) :
    Prog World CallPanic (Response × Option (VerifySignature lib)) :=
  let contentType := (req.header "content-type").bind fun v =>
    (lib.toStr v).bind fun s => (lib.parseMime s).bind MediaType.ofMime
  match contentType with
  | none => pure (⟨415, ""⟩, none)
  | some kind => match req.header hubSignature with
    | none => pure (⟨200, ""⟩, none)
    | some header => match splitSignature header with
      | none => pure (⟨400, ""⟩, none)
      | some (method, hex) =>
        if method = sha1 then match lib.hexDecode hex sha1Len with
          | none => pure (⟨400, ""⟩, none)
          | some signature => do
            let cols ← Prog.read fun w => w.db.subscriptions.find? id
            match cols with
            | none => pure (⟨410, ""⟩, none)
            | some s =>
              pure (⟨200, ""⟩, some ⟨kind, signature, s.topic, lib.hmac.new (asBytes s.secret), req.body⟩)
        else pure (⟨406, ""⟩, none)

/-- `Service::call`: the response, and the future that is spawned. -/
def call (req : Request) (now : UInt64) :
    Prog World CallPanic (Response × Option (VerifySignature lib)) :=
  match stripPrefix req.uri.path svc.callback.path with
  | none => pure (.notFound, none)
  | some id => match decodeCallbackId lib.decode id with
    | .error _ => .abort .decode
    | .ok none => pure (⟨400, ""⟩, none)
    | .ok (some id) => match tryIntoI64 id with
      | none => pure (⟨400, ""⟩, none)
      | some id => match req.uri.query with
        | some queryString => do
          let response ← (svc.verifyIntent id queryString now).mapAbort .verify
          pure (response, none)
        | none => receive lib id req

/-- What a request puts into the channel. -/
def delivered (req : Request) (now : UInt64) (w : World) : List (String × Feed) :=
  match ((svc.call lib req now).run w).1 with
  | .ok (_, some task) => task.run.toList
  | _ => []

end Service

/-! ### The signed updates -/

/-- `hmac` is the message authentication code that `digest` computes from any chunks. -/
structure Incremental (digest : Digest) (hmac : List UInt8 → List UInt8 → List UInt8) : Prop where
  length : ∀ secret content, (hmac secret content).length = sha1Len
  update : ∀ secret (chunks : List (List UInt8)),
    digest.finalize (chunks.foldl digest.update (digest.new secret)) = hmac secret chunks.flatten

/-- What `hex` documents of `decode_to_slice`: the text has two digits, in either case, for each byte of the
slice. -/
def HexSlice (hexDecode : List UInt8 → ℕ → Option (List UInt8)) : Prop :=
  ∀ text n bytes, hexDecode text n = some bytes ↔ bytes.length = n ∧ Hex.Denotes text bytes

/-- The media type of a request. -/
def IsMediaType (lib : CallLibraries) (req : Request) (kind : MediaType) : Prop :=
  ∃ value text mime, req.header "content-type" = some value ∧ lib.toStr value = some text ∧
    lib.parseMime text = some mime ∧ MediaType.ofMime mime = some kind

/-- A signed update of a subscription, and the item that it is. -/
structure IsUpdate (svc : Service) (lib : CallLibraries) (hmac : List UInt8 → List UInt8 → List UInt8)
    (db : Database) (req : Request) (s : Subscription) (item : String × Feed) : Prop where
  path : ∃ rest id, stripPrefix req.uri.path svc.callback.path = some rest ∧
    decodeCallbackId lib.decode rest = .ok (some id) ∧ id.toNat < 2 ^ 63 ∧ s.id = id.toInt64
  mem : s ∈ db.subscriptions
  feed : ∃ kind content feed, IsMediaType lib req kind ∧ req.content = some content ∧
    (∃ digits, req.header hubSignature = some (sha1 ++ 61 :: digits) ∧
      Hex.Denotes digits (hmac (asBytes s.secret) content)) ∧
    Feed.parse lib.readers kind content = some feed ∧ item = (s.topic, feed)

section Delivery

variable {lib : CallLibraries} {hmac : List UInt8 → List UInt8 → List UInt8} {svc : Service} {req : Request}

theorem splitSignature_eq_some {header method hex : List UInt8} :
    splitSignature header = some (method, hex) ↔ header = method ++ 61 :: hex ∧ 61 ∉ method := by
  unfold splitSignature
  rw [Option.map_eq_some_iff]
  constructor
  · rintro ⟨i, hi, heq⟩
    obtain ⟨hlt, hat, hbefore⟩ := List.findIdx?_eq_some_iff_getElem.mp hi
    obtain ⟨rfl, rfl⟩ := Prod.mk.inj heq
    have heq : header[i] = 61 := of_decide_eq_true hat
    refine ⟨?_, fun hmem => ?_⟩
    · rw [← heq, List.getElem_cons_drop, List.take_append_drop]
    · obtain ⟨j, hj, hval⟩ := List.mem_take_iff_getElem.mp hmem
      exact hbefore j (by omega) (decide_eq_true hval)
  · rintro ⟨rfl, hmethod⟩
    refine ⟨method.length, ?_, by simp⟩
    rw [List.findIdx?_eq_some_iff_getElem]
    refine ⟨by simp, by simp, fun j hj => ?_⟩
    rw [List.getElem_append_left hj, decide_eq_true_eq]
    exact fun heq => hmethod (heq ▸ List.getElem_mem hj)

theorem splitSignature_sha1 (digits : List UInt8) :
    splitSignature (sha1 ++ 61 :: digits) = some (sha1, digits) :=
  splitSignature_eq_some.mpr ⟨rfl, by decide⟩

/-- The fold fails where an item does, and else has seen all chunks. -/
theorem foldlM_fold (body : List (Except String (List UInt8))) (content : List UInt8)
    (mac : lib.hmac.State) : body.foldlM VerifySignature.fold (content, mac) =
      (body.mapM id).map fun chunks => (content ++ chunks.flatten, chunks.foldl lib.hmac.update mac) := by
  induction body generalizing content mac with
  | nil => simp [Except.map, pure, Except.pure]
  | cons item body ih =>
    cases item with
    | error e => rfl
    | ok chunk =>
      rw [List.foldlM_cons, List.mapM_cons]
      show body.foldlM VerifySignature.fold (content ++ chunk, lib.hmac.update mac chunk) = _
      rw [ih]
      show _ = Except.map _ (Except.bind (body.mapM id) fun chunks => .ok (chunk :: chunks))
      cases body.mapM id with
      | error e => rfl
      | ok chunks => simp [Except.map, Except.bind]

/-- The future sends the feed of the content if the signature is that of the content. -/
theorem run_eq_some (hmac_inc : Incremental lib.hmac hmac) {kind : MediaType} {signature : List UInt8}
    {topic : String} {secret : List UInt8} {item : String × Feed} :
    (⟨kind, signature, topic, lib.hmac.new secret, req.body⟩ : VerifySignature lib).run = some item ↔
      ∃ content feed, req.content = some content ∧ signature = hmac secret content ∧
        Feed.parse lib.readers kind content = some feed ∧ item = (topic, feed) := by
  unfold VerifySignature.run Request.content
  dsimp only
  rw [foldlM_fold]
  cases req.body.mapM id with
  | error e => simp [Except.map]
  | ok chunks =>
    simp only [Except.map, List.nil_append, hmac_inc.update]
    split
    case isTrue heq =>
      rw [Option.map_eq_some_iff]
      simp [heq, eq_comm]
    case isFalse hne =>
      simp [Ne.symm hne]

theorem isMediaType_iff {kind : MediaType} : IsMediaType lib req kind ↔
    ((req.header "content-type").bind fun v => (lib.toStr v).bind fun s =>
      (lib.parseMime s).bind MediaType.ofMime) = some kind := by
  simp [IsMediaType, Option.bind_eq_some_iff]

theorem IsMediaType.unique {kind kind' : MediaType} (h : IsMediaType lib req kind)
    (h' : IsMediaType lib req kind') : kind = kind' :=
  Option.some.inj ((isMediaType_iff.mp h).symm.trans (isMediaType_iff.mp h'))

/-- `task` is the future that a request to the subscription with the id `id` spawns. -/
def Spawns (db : Database) (id : Int64) (req : Request) (task : VerifySignature lib) : Prop :=
  ∃ kind digits signature s, IsMediaType lib req kind ∧
    req.header hubSignature = some (sha1 ++ 61 :: digits) ∧ lib.hexDecode digits sha1Len = some signature ∧
    s ∈ db.subscriptions ∧ s.id = id ∧
    task = ⟨kind, signature, s.topic, lib.hmac.new (asBytes s.secret), req.body⟩

theorem sat_refused {id : Int64} {w : World} (response : Response)
    (h : ∀ task : VerifySignature lib, ¬ Spawns w.db id req task) :
    Prog.Sat (pure (response, none) : Prog World CallPanic (Response × Option (VerifySignature lib))) w
      (fun r w' => w' = w ∧ ∀ task, r.2 = some task ↔ Spawns w.db id req task) (fun _ _ => False) :=
  ⟨rfl, fun task => ⟨(nomatch ·), fun hspawns => (h task hspawns).elim⟩⟩

/-- What a request of a media type and with a signature spawns is decided by the row of its subscription. -/
theorem sat_signed {id : Int64} {w : World} {kind : MediaType} {digits signature : List UInt8}
    (hkind : IsMediaType lib req kind) (hheader : req.header hubSignature = some (sha1 ++ 61 :: digits))
    (hhex : lib.hexDecode digits sha1Len = some signature) :
    Prog.Sat (do
      let cols ← Prog.read fun w => w.db.subscriptions.find? id
      match cols with
      | none => pure (⟨410, ""⟩, none)
      | some s =>
        pure (⟨200, ""⟩, some ⟨kind, signature, s.topic, lib.hmac.new (asBytes s.secret), req.body⟩) :
        Prog World CallPanic (Response × Option (VerifySignature lib))) w
      (fun r w' => w' = w ∧ ∀ task, r.2 = some task ↔ Spawns w.db id req task) (fun _ _ => False) := by
  refine Prog.sat_bind (R := fun cols w' => cols = w.db.subscriptions.find? id ∧ w = w')
    (Prog.sat_read.mpr ⟨rfl, rfl⟩) ?_
  rintro cols w' ⟨rfl, rfl⟩
  cases hfind : w.db.subscriptions.find? id with
  | none =>
    refine sat_refused _ ?_
    rintro task ⟨_, _, _, s, -, -, -, hs, rfl, -⟩
    rw [Table.find?_eq_some_iff.mpr ⟨hs, rfl⟩] at hfind
    cases hfind
  | some s =>
    obtain ⟨hs, rfl⟩ := Table.find?_eq_some_iff.mp hfind
    refine ⟨rfl, fun task => ⟨fun h => ?_, ?_⟩⟩
    · exact ⟨kind, digits, signature, s, hkind, hheader, hhex, hs, rfl, (Option.some.inj h).symm⟩
    · rintro ⟨kind', digits', signature', s', hkind', hheader', hhex', hs', hid, rfl⟩
      obtain rfl := hkind.unique hkind'
      obtain rfl : digits = digits' := by simpa using hheader.symm.trans hheader'
      obtain rfl := Option.some.inj (hhex.symm.trans hhex')
      obtain rfl := Table.eq_of_key_eq hs hs' hid.symm
      rfl

theorem sat_receive {id : Int64} {w : World} : Prog.Sat (Service.receive lib id req) w
    (fun r w' => w' = w ∧ ∀ task, r.2 = some task ↔ Spawns w.db id req task) (fun _ _ => False) := by
  unfold Service.receive
  dsimp only
  cases hkind : (req.header "content-type").bind fun v => (lib.toStr v).bind fun s =>
      (lib.parseMime s).bind MediaType.ofMime with
  | none =>
    refine sat_refused _ ?_
    rintro task ⟨kind, _, _, _, h, -⟩
    rw [isMediaType_iff, hkind] at h
    cases h
  | some kind =>
    cases hheader : req.header hubSignature with
    | none =>
      refine sat_refused _ ?_
      rintro task ⟨_, _, _, _, -, h, -⟩
      rw [hheader] at h
      cases h
    | some header =>
      dsimp only
      cases hsplit : splitSignature header with
      | none =>
        refine sat_refused _ ?_
        rintro task ⟨_, digits, _, _, -, h, -⟩
        obtain rfl := Option.some.inj (hheader.symm.trans h)
        rw [splitSignature_sha1] at hsplit
        cases hsplit
      | some parts =>
        obtain ⟨method, hex⟩ := parts
        obtain ⟨rfl, -⟩ := splitSignature_eq_some.mp hsplit
        have hdigits : ∀ digits, req.header hubSignature = some (sha1 ++ 61 :: digits) →
            method = sha1 ∧ hex = digits := by
          intro digits h
          rw [Option.some.inj (hheader.symm.trans h), splitSignature_sha1] at hsplit
          obtain ⟨rfl, rfl⟩ := Prod.mk.inj (Option.some.inj hsplit)
          exact ⟨rfl, rfl⟩
        dsimp only
        split
        case isFalse hne =>
          refine sat_refused _ ?_
          rintro task ⟨_, digits, _, _, -, h, -⟩
          exact hne (hdigits digits h).1
        case isTrue heq =>
          obtain rfl := heq
          cases hhex : lib.hexDecode hex sha1Len with
          | none =>
            refine sat_refused _ ?_
            rintro task ⟨_, digits, signature, _, -, h, hsig, -⟩
            rw [← (hdigits digits h).2, hhex] at hsig
            cases hsig
          | some signature => exact sat_signed (isMediaType_iff.mpr hkind) hheader hhex

/-- A request whose path names the subscription with the id `id`. -/
def Names (svc : Service) (lib : CallLibraries) (req : Request) (id : Int64) : Prop :=
  ∃ rest n, stripPrefix req.uri.path svc.callback.path = some rest ∧
    decodeCallbackId lib.decode rest = .ok (some n) ∧ n.toNat < 2 ^ 63 ∧ id = n.toInt64

theorem sat_call (hquery : req.uri.query = none) (now : UInt64) (w : World) :
    Prog.Sat (svc.call lib req now) w
      (fun r w' => w' = w ∧ ∀ task, r.2 = some task ↔ ∃ id, Names svc lib req id ∧ Spawns w.db id req task)
      (fun _ w' => w' = w ∧ ∀ id, ¬ Names svc lib req id) := by
  have hnone : ∀ response, (∀ id, ¬ Names svc lib req id) →
      Prog.Sat (pure (response, none) : Prog World CallPanic (Response × Option (VerifySignature lib))) w
        (fun r w' => w' = w ∧ ∀ task, r.2 = some task ↔
          ∃ id, Names svc lib req id ∧ Spawns w.db id req task)
        (fun _ w' => w' = w ∧ ∀ id, ¬ Names svc lib req id) :=
    fun response hno => ⟨rfl, fun task => ⟨(nomatch ·), fun ⟨id, h, _⟩ => (hno id h).elim⟩⟩
  unfold Service.call
  cases hpath : stripPrefix req.uri.path svc.callback.path with
  | none =>
    refine hnone _ ?_
    rintro id ⟨rest, n, h, -⟩
    rw [hpath] at h
    cases h
  | some rest =>
    have hdecode : ∀ id, Names svc lib req id →
        ∃ n, decodeCallbackId lib.decode rest = .ok (some n) ∧ n.toNat < 2 ^ 63 ∧ id = n.toInt64 := by
      rintro id ⟨rest', n, h, hn⟩
      obtain rfl := Option.some.inj (hpath.symm.trans h)
      exact ⟨n, hn⟩
    dsimp only
    cases hid : decodeCallbackId lib.decode rest with
    | error e =>
      refine ⟨rfl, fun id h => ?_⟩
      obtain ⟨n, hn, -⟩ := hdecode id h
      rw [hid] at hn
      cases hn
    | ok n =>
      cases n with
      | none =>
        refine hnone _ fun id h => ?_
        obtain ⟨n, hn, -⟩ := hdecode id h
        rw [hid] at hn
        cases hn
      | some n =>
        have hone : ∀ id, Names svc lib req id → n.toNat < 2 ^ 63 ∧ id = n.toInt64 := by
          intro id h
          obtain ⟨n', hn, hlt, rfl⟩ := hdecode id h
          rw [hid] at hn
          cases hn
          exact ⟨hlt, rfl⟩
        dsimp only
        unfold tryIntoI64
        by_cases hlt : n.toNat < 2 ^ 63
        · rw [if_pos hlt, hquery]
          refine sat_receive.mono (fun r w' h => ⟨h.1, fun task => ?_⟩) fun _ _ h => h.elim
          rw [h.2 task]
          constructor
          · exact fun hspawns => ⟨n.toInt64, ⟨rest, n, hpath, hid, hlt, rfl⟩, hspawns⟩
          · rintro ⟨id, hnames, hspawns⟩
            exact (hone id hnames).2 ▸ hspawns
        · rw [if_neg hlt]
          exact hnone _ fun id h => hlt (hone id h).1

theorem call_world (hquery : req.uri.query = none) (now : UInt64) (w : World) :
    ((svc.call lib req now).run w).2 = w := by
  have hsat : Prog.Sat (svc.call lib req now) w (fun _ w' => w' = w) fun _ w' => w' = w :=
    (sat_call hquery now w).mono (fun _ _ h => h.1) fun _ _ h => h.1
  exact hsat.run

theorem mem_delivered (hquery : req.uri.query = none) {now : UInt64} {w : World} {item : String × Feed} :
    item ∈ svc.delivered lib req now w ↔
      ∃ id, ∃ task : VerifySignature lib,
        Names svc lib req id ∧ Spawns w.db id req task ∧ task.run = some item := by
  have hsat : Prog.Sat (svc.call lib req now) w _ _ := sat_call hquery now w
  unfold Prog.Sat at hsat
  unfold Service.delivered
  cases hrun : (svc.call lib req now).run w with
  | mk r w' =>
    rw [hrun] at hsat
    cases r with
    | error e =>
      constructor
      · exact (nomatch ·)
      · rintro ⟨id, task, hid, -⟩
        exact (hsat.2 id hid).elim
    | ok r =>
      obtain ⟨response, spawned⟩ := r
      have htask : ∀ task, spawned = some task ↔
        ∃ id, Names svc lib req id ∧ Spawns w.db id req task := hsat.2
      constructor
      · intro h
        cases spawned with
        | none => cases h
        | some task =>
          obtain ⟨id, hid, hspawns⟩ := (htask task).mp rfl
          exact ⟨id, task, hid, hspawns, Option.mem_toList.mp h⟩
      · rintro ⟨id, task, hid, hspawns, htrue⟩
        rw [(htask task).mpr ⟨id, hid, hspawns⟩]
        exact Option.mem_toList.mpr htrue

theorem delivered_eq_toList (svc : Service) (lib : CallLibraries) (req : Request) (now : UInt64) (w : World) :
    ∃ item, svc.delivered lib req now w = Option.toList item := by
  unfold Service.delivered
  split
  · exact ⟨_, rfl⟩
  · exact ⟨none, rfl⟩

theorem isUpdate_iff (hmac_inc : Incremental lib.hmac hmac) (hhex : HexSlice lib.hexDecode) {db : Database}
    {item : String × Feed} : (∃ s, IsUpdate svc lib hmac db req s item) ↔
      ∃ id, ∃ task : VerifySignature lib,
        Names svc lib req id ∧ Spawns db id req task ∧ task.run = some item := by
  constructor
  · rintro ⟨s, ⟨rest, n, hpath, hid, hlt, hs⟩, hmem, kind, content, feed, hkind, hcontent,
      ⟨digits, hheader, hdigits⟩, hfeed, rfl⟩
    have hsig : lib.hexDecode digits sha1Len = some (hmac (asBytes s.secret) content) :=
      (hhex _ _ _).mpr ⟨hmac_inc.length _ _, hdigits⟩
    exact ⟨s.id, _, ⟨rest, n, hpath, hid, hlt, hs⟩, ⟨kind, digits, _, s, hkind, hheader, hsig, hmem, rfl, rfl⟩,
      (run_eq_some hmac_inc).mpr ⟨content, feed, hcontent, rfl, hfeed, rfl⟩⟩
  · rintro ⟨id, task, ⟨rest, n, hpath, hid, hlt, rfl⟩, ⟨kind, digits, signature, s, hkind, hheader, hsig, hmem,
      hs, rfl⟩, hrun⟩
    obtain ⟨content, feed, hcontent, rfl, hfeed, rfl⟩ := (run_eq_some hmac_inc).mp hrun
    exact ⟨s, ⟨rest, n, hpath, hid, hlt, hs⟩, hmem, kind, content, feed, hkind, hcontent,
      ⟨digits, hheader, ((hhex _ _ _).mp hsig).2⟩, hfeed, rfl⟩

/-- What a signed update is depends on the content of the body only. -/
theorem isUpdate_body {db : Database} {s : Subscription} {item : String × Feed}
    {body : List (Except String (List UInt8))} (hbody : { req with body }.content = req.content) :
    IsUpdate svc lib hmac db { req with body } s item ↔ IsUpdate svc lib hmac db req s item := by
  constructor
  · rintro ⟨hpath, hmem, kind, content, feed, hkind, hcontent, hsig, hfeed⟩
    exact ⟨hpath, hmem, kind, content, feed, hkind, hbody ▸ hcontent, hsig, hfeed⟩
  · rintro ⟨hpath, hmem, kind, content, feed, hkind, hcontent, hsig, hfeed⟩
    exact ⟨hpath, hmem, kind, content, feed, hkind, hbody.trans hcontent, hsig, hfeed⟩

/-- A request without a query puts its update into the channel, once, if it is a signed one, and else
nothing, however its body is cut into chunks; and it changes no table. -/
theorem delivered_iff (hmac_inc : Incremental lib.hmac hmac) (hhex : HexSlice lib.hexDecode) (w : World)
    (now : UInt64) (hquery : req.uri.query = none) :
    (∀ item, svc.delivered lib req now w = [item] ↔ ∃ s, IsUpdate svc lib hmac w.db req s item) ∧
      (svc.delivered lib req now w = [] ↔ ∀ item s, ¬ IsUpdate svc lib hmac w.db req s item) ∧
      (∀ body, { req with body }.content = req.content →
        svc.delivered lib { req with body } now w = svc.delivered lib req now w) ∧
      ((svc.call lib req now).run w).2 = w := by
  have hmem : ∀ req' : Request, req'.uri.query = none → ∀ item, item ∈ svc.delivered lib req' now w ↔
      ∃ s, IsUpdate svc lib hmac w.db req' s item :=
    fun req' hquery item => (mem_delivered hquery).trans (isUpdate_iff hmac_inc hhex).symm
  obtain ⟨o, ho⟩ := delivered_eq_toList svc lib req now w
  have hsome : ∀ item, o = some item ↔ ∃ s, IsUpdate svc lib hmac w.db req s item := by
    intro item
    rw [← hmem req hquery, ho, Option.mem_toList]
  rw [ho]
  refine ⟨fun item => ?_, ?_, fun body hbody => ?_, call_world hquery now w⟩
  · rw [← hsome]
    exact Option.toList_eq_singleton_iff
  · rw [Option.toList_eq_nil_iff, Option.eq_none_iff_forall_ne_some]
    exact forall_congr' fun item => (not_congr (hsome item)).trans not_exists
  · obtain ⟨o', ho'⟩ := delivered_eq_toList svc lib { req with body } now w
    rw [ho']
    refine congrArg Option.toList (Option.ext fun item => ?_)
    rw [← Option.mem_toList, ← ho', hmem { req with body } hquery]
    exact (exists_congr fun s => isUpdate_body hbody).trans (hsome item).symm

end Delivery

/-! ### A signed update in two chunks -/

def sampleText : String :=
  "<rss version=\"2.0\"><channel><title>News</title><link>https://example.com/</link><description/></channel></rss>"

def sampleChannel : Rss.Channel := ⟨"News", "https://example.com/", [], []⟩

/-- HMAC-SHA1, of the sample with the secret `secret`. -/
def sampleHmac (secret content : List UInt8) : List UInt8 :=
  if secret = asBytes "secret" ∧ content = asBytes sampleText then
    [191, 162, 137, 146, 223, 121, 93, 104, 249, 117, 96, 11, 123, 59, 7, 17, 70, 222, 211, 59]
  else .replicate sha1Len 0

/-- The code of the chunks that are kept until the end. -/
def Digest.ofOneShot (hmac : List UInt8 → List UInt8 → List UInt8) : Digest where
  State := List UInt8 × List UInt8
  new secret := (secret, [])
  update state chunk := (state.1, state.2 ++ chunk)
  finalize state := hmac state.1 state.2

theorem foldl_keep (secret content : List UInt8) (chunks : List (List UInt8)) :
    chunks.foldl (fun (state : List UInt8 × List UInt8) chunk => (state.1, state.2 ++ chunk))
      (secret, content) = (secret, content ++ chunks.flatten) := by
  induction chunks generalizing content with
  | nil => simp
  | cons chunk chunks ih => rw [List.foldl_cons, ih, List.flatten_cons, List.append_assoc]

theorem incremental_ofOneShot {hmac : List UInt8 → List UInt8 → List UInt8}
    (h : ∀ secret content, (hmac secret content).length = sha1Len) :
    Incremental (.ofOneShot hmac) hmac where
  length := h
  update secret chunks := by
    show hmac (chunks.foldl (fun state chunk => (state.1, state.2 ++ chunk)) (secret, [])).1
      (chunks.foldl (fun state chunk => (state.1, state.2 ++ chunk)) (secret, [])).2 = _
    rw [foldl_keep]
    rfl

def sampleCallLibraries : CallLibraries where
  decode s := Base64.decode s.toList
  toStr bytes :=
    if bytes.all fun b => b = 9 ∨ (32 ≤ b ∧ b < 127) then some (.ofList (bytes.map fun b => .ofNat b.toNat))
    else none
  parseMime s := if s = "application/rss+xml" then some ⟨"application", "rss", some "xml"⟩ else none
  hexDecode text n := (Hex.decode text).filter (·.length = n)
  hmac := .ofOneShot sampleHmac
  readers := ⟨fun _ => none, fun bytes => if bytes = asBytes sampleText then some sampleChannel else none⟩

theorem length_sampleHmac (secret content : List UInt8) : (sampleHmac secret content).length = sha1Len := by
  unfold sampleHmac
  split <;> rfl

theorem hexSlice_sampleCallLibraries : HexSlice sampleCallLibraries.hexDecode := by
  intro text n bytes
  simp only [sampleCallLibraries, Option.filter_eq_some_iff, Hex.decode_eq_some_iff, decide_eq_true_eq]
  exact and_comm

def sampleReceiver : Service where
  callback := ⟨some "https", some "example.com", some "/callback/"⟩
  renewalMargin := 3600
  overflowChecks := true
  boot := 0
  lib :=
    { base64 := fun bytes => .ofList (Base64.encode bytes)
      isUri := fun _ => true
      isPathAndQuery := fun _ => true
      isUriParts := fun _ => true
      parseVerify := fun _ => none }

def sampleSubscribed : Database :=
  { Database.empty with
    subscriptions := ⟨[⟨1, "https://example.com/hub", "https://example.com/topic", "secret"⟩], by decide⟩
    active_references := by simp [Database.empty]
    pending_references := by simp [Database.empty] }

def sampleRequest : Request where
  uri := ⟨none, none, some "/callback/AQ"⟩
  headers := [("content-type", asBytes "application/rss+xml"),
    (hubSignature, asBytes "sha1=bfa28992df795d68f975600b7b3b071146DED33B")]
  body := [.ok ((asBytes sampleText).take 40), .ok ((asBytes sampleText).drop 40)]

theorem delivered_sampleRequest :
    sampleReceiver.delivered sampleCallLibraries sampleRequest 0 ⟨sampleSubscribed, .new none, []⟩ =
      [("https://example.com/topic", ⟨"News", "https://example.com/", []⟩)] := by
  refine ((delivered_iff
    (incremental_ofOneShot length_sampleHmac) hexSlice_sampleCallLibraries ⟨sampleSubscribed, .new none, []⟩ 0
    (by decide)).1 _).mpr ⟨⟨1, "https://example.com/hub", "https://example.com/topic", "secret"⟩, ?_⟩
  constructor
  · exact ⟨"AQ", 1, by decide, by decide, by decide, rfl⟩
  · decide
  · refine ⟨.rss, asBytes sampleText, sampleChannel.toFeed, ?_, ?_, ?_, ?_, ?_⟩
    · exact ⟨asBytes "application/rss+xml", "application/rss+xml", ⟨"application", "rss", some "xml"⟩,
        by decide, by decide, by decide, by decide⟩
    · decide
    · refine ⟨asBytes "bfa28992df795d68f975600b7b3b071146DED33B", by decide, ?_⟩
      rw [← Hex.decode_eq_some_iff]
      decide
    · decide
    · decide

end Pipitor.Websub
