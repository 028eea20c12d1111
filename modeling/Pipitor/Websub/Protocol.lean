import Pipitor.Websub.Delivery
import Pipitor.Websub.Requests
import Pipitor.Websub.Wire

/-!
# The subscriber and its hubs

The subscriber in a network of hubs that go by the protocol. A hub reads a request, asks the callback for
the subscriber's intent as often as it likes, and some time after an answer in the affirmative it registers
or removes the subscription. What it registers it distributes contents for.

In whatever order all this happens, the hubs and the tables agree (`Agreed`).
-/

namespace Pipitor

/-- What the request line has of the URI that a request is made to. -/
def Uri.originForm (uri : Uri) : Uri := ⟨none, none, uri.pathAndQuery⟩

/-- The same with parameters. -/
def Uri.withQuery (uri : Uri) (query : String) : Uri :=
  ⟨none, none, uri.pathAndQuery.map (· ++ "?" ++ query)⟩

section WithQuery

variable {uri : Uri} {p : String}

theorem toList_withQuery (p query : String) : (p ++ "?" ++ query).toList = p.toList ++ '?' :: query.toList := by
  rw [String.toList_append, String.toList_append, List.append_assoc]
  rfl

theorem Uri.path_withQuery (h : uri.pathAndQuery = some p) (hne : p.toList ≠ [])
    (hquery : ∀ c ∈ p.toList, c ≠ '?') (query : String) : (uri.withQuery query).path = p := by
  have htake : (p.toList ++ '?' :: query.toList).takeWhile (· ≠ '?') = p.toList := by
    rw [List.takeWhile_append_of_pos fun c hc => by simpa using hquery c hc]
    simp
  unfold path withQuery
  rw [h]
  dsimp only [Option.map_some]
  rw [toList_withQuery, htake, if_neg (by simpa using hne), String.ofList_toList]

theorem Uri.query_withQuery (h : uri.pathAndQuery = some p) (hquery : ∀ c ∈ p.toList, c ≠ '?')
    (query : String) : (uri.withQuery query).query = some query := by
  have hdrop : (p.toList ++ '?' :: query.toList).dropWhile (· ≠ '?') = '?' :: query.toList := by
    rw [List.dropWhile_append_of_pos fun c hc => by simpa using hquery c hc]
    simp
  unfold Uri.query withQuery
  rw [h]
  dsimp only [Option.map_some]
  rw [toList_withQuery, hdrop]
  dsimp only
  rw [String.ofList_toList]

end WithQuery

namespace Websub

open Resumption Relational FormUrlencoded

/-! ### The network -/

/-- What a hub has of a subscriber. -/
structure Registration where
  callback : Uri
  topic : String
  secret : String
deriving DecidableEq

/-- The subscriber, and at each hub the requests that have been confirmed to it and the registrations. -/
structure Network where
  world : World
  confirmed : List (String × Form)
  registered : List (String × Registration)

/-- What is on the wire, and how it is read. -/
structure Wire where
  lib : CallLibraries
  uris : UriText
  decodeUtf8 : List UInt8 → String

/-- What the hub wants to know about a request. -/
def Form.verification (challenge : String) (leaseSeconds : UInt64) : Form → Verify
  | subscribe _ topic _ => .subscribe topic challenge leaseSeconds
  | unsubscribe _ topic => .unsubscribe topic challenge

/-- The request in which the hub asks it. -/
def Form.question (form : Form) (challenge : String) (leaseSeconds : UInt64) : Request :=
  ⟨form.callback.withQuery (serialize (form.verification challenge leaseSeconds).params), [], []⟩

/-- What the hub has after a request that has been confirmed. -/
def Form.register (hub : String) (registered : List (String × Registration)) :
    Form → List (String × Registration)
  | subscribe callback topic secret =>
    (hub, ⟨callback, topic, secret⟩) ::
      registered.filter fun r => ¬(r.1 = hub ∧ r.2.callback = callback ∧ r.2.topic = topic)
  | unsubscribe callback topic =>
    registered.filter fun r => ¬(r.1 = hub ∧ r.2.callback = callback ∧ r.2.topic = topic)

/-- What happens next: a turn of the subscriber, or its restart; the hub that the request with the index `k`
has been sent to asks for its verification; a hub gets the `j`th of the answers. -/
inductive Move
  | turn (turn : Turn)
  | restart (now : UInt64)
  | verify (k : ℕ) (challenge : String) (leaseSeconds now : UInt64)
  | learn (j : ℕ)

namespace Network

variable (svc : Service) (wire : Wire)

def start (timer : Timer) : Network := ⟨⟨.empty, timer, []⟩, [], []⟩

/-- The hub asks, and keeps the request in mind if the answer is its challenge. -/
def ask (net : Network) (hub : String) (form : Form) (challenge : String) (leaseSeconds now : UInt64) : Network :=
  let asked := (svc.call wire.lib (form.question challenge leaseSeconds) now).run net.world
  { net with
    world := asked.2
    confirmed := if asked.1.toOption.map (·.1) = some ⟨200, challenge⟩ then (hub, form) :: net.confirmed
      else net.confirmed }

def step (net : Network) : Move → Network
  | .turn turn => { net with world := turn.step svc net.world }
  | .restart now => match svc.newTimer now net.world.db with
    | .ok timer => { net with world := { net.world with timer } }
    | .error _ => net
  | .verify k challenge leaseSeconds now => match net.world.spawned[k]? with
    | some (.request hub form) => match Form.fromStr wire.uris wire.decodeUtf8 (form.body wire.uris) with
      | some form => net.ask svc wire hub form challenge leaseSeconds now
      | none => net
    | _ => net
  | .learn j => match net.confirmed[j]? with
    | some (hub, form) =>
      { net with confirmed := net.confirmed.eraseIdx j, registered := form.register hub net.registered }
    | none => net

end Network

/-- What the crates document of what is on the wire: the configured callback is one to which ids can be
appended, and the URIs that come of it are displayed as they are parsed. -/
structure Documented (svc : Service) (wire : Wire) : Prop where
  callback : ∃ p, IsCallbackPrefix svc.lib svc.callback p
  base64 : Base64Url svc.lib.base64 wire.lib.decode
  utf8 : IsUtf8Decoder wire.decodeUtf8
  parseVerify : svc.lib.parseVerify = Verify.fromStr wire.decodeUtf8
  display : ∀ id uri, makeCallback svc.lib svc.callback id = .ok uri →
    wire.uris.parse (wire.uris.display uri) = .ok uri

/-! ### Callbacks -/

section Callbacks

variable {svc : Service} {wire : Wire}

theorem eq_of_makeCallback {p : String} (h : IsCallbackPrefix svc.lib svc.callback p) {id : Int64}
    {uri : Uri} (huri : makeCallback svc.lib svc.callback id = .ok uri) :
    uri = { svc.callback with pathAndQuery := some (p ++ encodeCallbackId svc.lib (toLeBytes id)) } := by
  unfold makeCallback at huri
  rw [h.path] at huri
  dsimp only at huri
  split at huri
  · exact (Except.ok.inj huri).symm
  · cases huri

theorem no_query_append {p : String} (h : IsCallbackPrefix svc.lib svc.callback p)
    {decode : String → Option (List UInt8)} (hbase64 : Base64Url svc.lib.base64 decode) (bytes : List UInt8) :
    ∀ c ∈ (p ++ encodeCallbackId svc.lib bytes).toList, c ≠ '?' := by
  intro c hc
  rw [String.toList_append, List.mem_append] at hc
  rcases hc with hc | hc
  · exact h.no_query c hc
  · rintro rfl
    have hsafe := hbase64.alphabet _ _ hc
    revert hsafe
    decide

theorem Documented.makeCallback_injective (h : Documented svc wire) {id id' : Int64} {uri : Uri}
    (huri : makeCallback svc.lib svc.callback id = .ok uri)
    (huri' : makeCallback svc.lib svc.callback id' = .ok uri) : id = id' := by
  obtain ⟨p, hp⟩ := h.callback
  have heq := (eq_of_makeCallback hp huri).symm.trans (eq_of_makeCallback hp huri')
  have hpath := Option.some.inj (congrArg Uri.pathAndQuery heq)
  refine encodeCallbackId_injective h.base64 (String.toList_inj.mp ?_)
  have hlist := congrArg String.toList hpath
  rwa [String.toList_append, String.toList_append, List.append_cancel_left_eq] at hlist

theorem tryIntoI64_eq_none {id : Int64} (h : ¬0 ≤ id) : Machine.tryIntoI64 id.toUInt64 = none := by
  cases hsome : Machine.tryIntoI64 id.toUInt64 with
  | none => rfl
  | some i =>
    have hnat := Machine.tryIntoI64_eq_some hsome
    have heq : i = id := by
      unfold Machine.tryIntoI64 at hsome
      split at hsome
      · simpa using (Option.some.inj hsome).symm
      · cases hsome
    rw [Int64.le_iff_toInt_le, ← heq, hnat] at h
    simp at h

theorem call_of_path (h : Documented svc wire) {id : Int64} {req : Request}
    (hpath : req.uri.path = svc.callback.path ++ encodeCallbackId svc.lib (toLeBytes id)) (now : UInt64) :
    (¬0 ≤ id → svc.call wire.lib req now = pure (⟨400, ""⟩, none)) ∧
      (0 ≤ id → (∀ query, req.uri.query = some query → svc.call wire.lib req now =
          (svc.verifyIntent id query now).mapAbort .verify >>= fun response => pure (response, none)) ∧
        (req.uri.query = none → svc.call wire.lib req now = Service.receive wire.lib id req)) := by
  have hid : decodeCallbackId wire.lib.decode (encodeCallbackId svc.lib (toLeBytes id)) =
      .ok (some id.toUInt64) := by
    rw [decode_encodeCallbackId h.base64 (toLeBytes_length id), fromLeBytes_toLeBytes]
  unfold Service.call
  rw [hpath, stripPrefix_append]
  dsimp only
  rw [hid]
  dsimp only
  refine ⟨fun hneg => by rw [tryIntoI64_eq_none hneg], fun hle => ?_⟩
  rw [tryIntoI64_toUInt64 hle]
  dsimp only
  refine ⟨fun query hquery => by rw [hquery], fun hquery => by rw [hquery]⟩

theorem run_call_withQuery (h : Documented svc wire) {id : Int64} {uri : Uri}
    (huri : makeCallback svc.lib svc.callback id = .ok uri) (query : String) (now : UInt64) (w : World) :
    (svc.call wire.lib ⟨uri.withQuery query, [], []⟩ now).run w =
      if 0 ≤ id then ((((svc.verifyIntent id query now).run w).1.mapError CallPanic.verify).map (·, none),
        ((svc.verifyIntent id query now).run w).2)
      else (.ok (⟨400, ""⟩, none), w) := by
  obtain ⟨p, hp⟩ := h.callback
  have hnoquery := no_query_append hp h.base64 (toLeBytes id)
  have hpath : (uri.withQuery query).path = svc.callback.path ++ encodeCallbackId svc.lib (toLeBytes id) := by
    rw [hp.path_eq, eq_of_makeCallback hp huri]
    refine Uri.path_withQuery rfl ?_ hnoquery query
    rw [String.toList_append]
    simp [hp.nonempty]
  have hquery : (uri.withQuery query).query = some query := by
    rw [eq_of_makeCallback hp huri]
    exact Uri.query_withQuery rfl hnoquery query
  obtain ⟨hneg, hpos⟩ := @call_of_path svc wire h id ⟨uri.withQuery query, [], []⟩ hpath now
  by_cases hle : 0 ≤ id
  · rw [if_pos hle, (hpos hle).1 query hquery, Prog.run_bind, Prog.run_mapAbort]
    cases ((svc.verifyIntent id query now).run w).1 <;> rfl
  · rw [if_neg hle, hneg hle]
    rfl

/-- The path of a callback is that of the configured URI and the id, and it has no query. -/
theorem path_of_makeCallback (h : Documented svc wire) {id : Int64} {uri : Uri}
    (huri : makeCallback svc.lib svc.callback id = .ok uri) :
    uri.originForm.path = svc.callback.path ++ encodeCallbackId svc.lib (toLeBytes id) ∧
      uri.originForm.query = none := by
  obtain ⟨p, hp⟩ := h.callback
  have hnoquery := no_query_append hp h.base64 (toLeBytes id)
  have hpath : uri.originForm.pathAndQuery = some (p ++ encodeCallbackId svc.lib (toLeBytes id)) :=
    congrArg Uri.pathAndQuery (eq_of_makeCallback hp huri)
  refine ⟨?_, (Uri.query_eq_none_iff hpath).mpr hnoquery⟩
  rw [hp.path_eq]
  refine Uri.path_eq hpath ?_ hnoquery
  rw [String.toList_append]
  simp [hp.nonempty]

end Callbacks

/-! ### Questions -/

section Questions

variable {svc : Service} {wire : Wire} {net : Network} {hub : String} {form : Form} {id : Int64}
  {challenge : String} {leaseSeconds now : UInt64}

theorem parseVerify_verification (hdoc : Documented svc wire) :
    svc.lib.parseVerify (serialize (form.verification challenge leaseSeconds).params) =
      some (form.verification challenge leaseSeconds) := by
  rw [hdoc.parseVerify, Verify.fromStr_eq_some_iff, parse_serialize hdoc.utf8]
  exact @Verify.spelled_of_perm _ _ [] (fun _ => (nomatch ·)) (by simp)

theorem Network.ask_of_nonneg (hdoc : Documented svc wire)
    (huri : makeCallback svc.lib svc.callback id = .ok form.callback) (hid : 0 ≤ id) :
    net.ask svc wire hub form challenge leaseSeconds now =
      { net with
        world := ((svc.verifyIntent id (serialize (form.verification challenge leaseSeconds).params) now).run
          net.world).2
        confirmed := if svc.answer net.world id
            (serialize (form.verification challenge leaseSeconds).params) now = .ok ⟨200, challenge⟩
          then (hub, form) :: net.confirmed else net.confirmed } := by
  unfold ask Form.question
  rw [run_call_withQuery hdoc huri, if_pos hid]
  dsimp only
  congr 1
  unfold Service.answer
  cases ((svc.verifyIntent id (serialize (form.verification challenge leaseSeconds).params) now).run
      net.world).1 with
  | ok response => simp [Except.mapError, Except.map, Except.toOption]
  | error e => simp [Except.mapError, Except.map, Except.toOption]

theorem Network.ask_of_neg (hdoc : Documented svc wire)
    (huri : makeCallback svc.lib svc.callback id = .ok form.callback) (hid : ¬0 ≤ id) :
    net.ask svc wire hub form challenge leaseSeconds now = net := by
  unfold ask Form.question
  rw [run_call_withQuery hdoc huri, if_neg hid]
  simp [Except.toOption]

end Questions

/-! ### What the requests are about -/

/-- A request to subscribe is about its subscription as the table has it, and one to unsubscribe about one that
the table has no more. -/
structure Requested (svc : Service) (w : World) : Prop where
  named : ∀ hub form, .request hub form ∈ w.spawned →
    ∃ id, makeCallback svc.lib svc.callback id = .ok form.callback
  subscribes : ∀ hub callback topic secret, .request hub (.subscribe callback topic secret) ∈ w.spawned →
    ∀ s ∈ w.db.subscriptions, makeCallback svc.lib svc.callback s.id = .ok callback →
      s.hub = hub ∧ s.topic = topic ∧ s.secret = secret
  unsubscribes : ∀ hub callback topic, .request hub (.unsubscribe callback topic) ∈ w.spawned →
    ∀ s ∈ w.db.subscriptions, makeCallback svc.lib svc.callback s.id ≠ .ok callback

/-- The ids that are drawn for new subscriptions are none that a request has been about. -/
def Fresh (svc : Service) (w w' : World) : Prop :=
  ∀ s ∈ w'.db.subscriptions, s ∉ w.db.subscriptions → ∀ hub form, .request hub form ∈ w.spawned →
    makeCallback svc.lib svc.callback s.id ≠ .ok form.callback

section Requested

variable {svc : Service} {wire : Wire} {w w' : World}

theorem Requested.adds (hdoc : Documented svc wire) (h : Requested svc w) (hadds : Adds svc w w')
    (hfresh : Fresh svc w w') : Requested svc w' where
  named hub form hreq := by
    rcases hadds.requests hub form hreq with hold | ⟨s, -, -, -, callback, huri, rfl⟩
    · exact h.named hub form hold
    · exact ⟨s.id, huri⟩
  subscribes hub callback topic secret hreq s hs huri := by
    rcases hadds.requests hub _ hreq with hold | ⟨s', hs', -, hhub, callback', huri', hform⟩
    · by_cases hmem : s ∈ w.db.subscriptions
      · exact h.subscribes hub callback topic secret hold s hmem huri
      · exact absurd huri (hfresh s hs hmem hub _ hold)
    · cases hform
      obtain rfl := Table.eq_of_key_eq hs hs' (hdoc.makeCallback_injective huri huri')
      exact ⟨hhub, rfl, rfl⟩
  unsubscribes hub callback topic hreq s hs huri := by
    rcases hadds.requests hub _ hreq with hold | ⟨s', hs', -, hhub, callback', huri', hform⟩
    · by_cases hmem : s ∈ w.db.subscriptions
      · exact h.unsubscribes hub callback topic hold s hmem huri
      · exact hfresh s hs hmem hub _ hold huri
    · cases hform

theorem Requested.drops (hdoc : Documented svc wire) (h : Requested svc w) (hdrops : Drops svc w w') :
    Requested svc w' where
  named hub form hreq := by
    rcases hdrops.requests hub form hreq with hold | ⟨s, -, -, callback, topic, huri, rfl⟩
    · exact h.named hub form hold
    · exact ⟨s.id, huri⟩
  subscribes hub callback topic secret hreq s hs huri := by
    rcases hdrops.requests hub _ hreq with hold | ⟨s', -, -, callback', topic', -, hform⟩
    · exact h.subscribes hub callback topic secret hold s (hdrops.rows s hs) huri
    · cases hform
  unsubscribes hub callback topic hreq s hs huri := by
    rcases hdrops.requests hub _ hreq with hold | ⟨s', -, hgone, callback', topic', huri', hform⟩
    · exact h.unsubscribes hub callback topic hold s (hdrops.rows s hs) huri
    · cases hform
      exact Table.hasKey_eq_false_iff.mp hgone s hs (hdoc.makeCallback_injective huri huri')

end Requested

/-! ### Agreement -/

/-- The hub of the subscription has been told its callback, its topic and its secret, and has registered it or
is about to. -/
def Network.Knows (svc : Service) (net : Network) (s : Subscription) : Prop :=
  ∃ callback, makeCallback svc.lib svc.callback s.id = .ok callback ∧
    ((s.hub, ⟨callback, s.topic, s.secret⟩) ∈ net.registered ∨
      (s.hub, .subscribe callback s.topic s.secret) ∈ net.confirmed)

/-- What the hubs have comes from the requests, and they know all active subscriptions. -/
structure Agreed (svc : Service) (net : Network) : Prop where
  requested : Requested svc net.world
  confirmed : ∀ hub form, (hub, form) ∈ net.confirmed → .request hub form ∈ net.world.spawned ∧
    ∃ id, 0 ≤ id ∧ makeCallback svc.lib svc.callback id = .ok form.callback
  registered : ∀ hub r, (hub, r) ∈ net.registered →
    .request hub (.subscribe r.callback r.topic r.secret) ∈ net.world.spawned ∧
      ∃ id, 0 ≤ id ∧ makeCallback svc.lib svc.callback id = .ok r.callback
  active : ∀ s ∈ net.world.db.subscriptions, net.world.db.activeSubscriptions.hasKey s.id = true →
    net.Knows svc s

/-- Nobody but the hubs verifies, and no id is drawn twice. -/
def Network.Allowed (svc : Service) (net : Network) : Move → Prop
  | .turn turn => turn.IsOwn ∧ Fresh svc net.world (turn.step svc net.world)
  | _ => True

namespace Agreed

variable {svc : Service} {wire : Wire} {net : Network}

theorem start (svc : Service) (timer : Timer) : Agreed svc (.start timer) where
  requested := ⟨fun _ _ => (nomatch ·), fun _ _ _ _ => (nomatch ·), fun _ _ _ => (nomatch ·)⟩
  confirmed _ _ := (nomatch ·)
  registered _ _ := (nomatch ·)
  active s hs := absurd hs (Table.not_mem_empty s)

theorem turn (hdoc : Documented svc wire) (h : Agreed svc net) {turn : Turn} (hown : turn.IsOwn)
    (hfresh : Fresh svc net.world (turn.step svc net.world)) :
    Agreed svc { net with world := turn.step svc net.world } := by
  obtain ⟨hturn, hnone⟩ := turn.adds_or_drops svc net.world hown
  have hkept : ∀ task ∈ net.world.spawned, task ∈ (turn.step svc net.world).spawned :=
    hturn.elim Adds.kept Drops.kept
  have hrow : ∀ a ∈ net.world.db.activeSubscriptions, ∀ s ∈ (turn.step svc net.world).db.subscriptions,
      a.id = s.id → s ∈ net.world.db.subscriptions := by
    intro a ha s hs hid
    rcases hturn with hadds | hdrops
    · obtain ⟨s', hs', hid'⟩ := Table.hasKey_iff.mp (net.world.db.active_references a ha)
      rwa [Table.eq_of_key_eq hs (hadds.rows s' hs') (hid.symm.trans hid'.symm)]
    · exact hdrops.rows s hs
  constructor
  · rcases hturn with hadds | hdrops
    · exact h.requested.adds hdoc hadds hfresh
    · exact h.requested.drops hdoc hdrops
  · intro hub form hmem
    obtain ⟨hreq, hid⟩ := h.confirmed hub form hmem
    exact ⟨hkept _ hreq, hid⟩
  · intro hub r hmem
    obtain ⟨hreq, hid⟩ := h.registered hub r hmem
    exact ⟨hkept _ hreq, hid⟩
  · intro s hs hactive
    obtain ⟨a, ha, hid⟩ := Table.hasKey_iff.mp hactive
    refine h.active s (hrow a (hnone a ha) s hs hid) ?_
    exact Table.hasKey_iff.mpr ⟨a, hnone a ha, hid⟩

theorem ask (hdoc : Documented svc wire) (h : Agreed svc net) {hub : String} {form : Form}
    (hreq : .request hub form ∈ net.world.spawned) (challenge : String) (leaseSeconds now : UInt64) :
    Agreed svc (net.ask svc wire hub form challenge leaseSeconds now) := by
  obtain ⟨id, huri⟩ := h.requested.named hub form hreq
  by_cases hid : 0 ≤ id
  · rw [Network.ask_of_nonneg hdoc huri hid]
    let query := serialize (form.verification challenge leaseSeconds).params
    have hdrops : Drops svc net.world ((svc.verifyIntent id query now).run net.world).2 :=
      (sat_verifyIntent_drops svc id query now).run
    constructor
    · exact h.requested.drops hdoc hdrops
    · intro hub' form' hmem
      dsimp only at hmem
      split at hmem
      · rcases List.mem_cons.mp hmem with hnew | hold
        · cases hnew
          exact ⟨hdrops.kept _ hreq, id, hid, huri⟩
        · obtain ⟨hold, hid'⟩ := h.confirmed hub' form' hold
          exact ⟨hdrops.kept _ hold, hid'⟩
      · obtain ⟨hold, hid'⟩ := h.confirmed hub' form' hmem
        exact ⟨hdrops.kept _ hold, hid'⟩
    · intro hub' r hmem
      obtain ⟨hold, hid'⟩ := h.registered hub' r hmem
      exact ⟨hdrops.kept _ hold, hid'⟩
    · intro s hs hactive
      have hmem : s ∈ net.world.db.subscriptions := hdrops.rows s hs
      obtain ⟨a, ha, haid⟩ := Table.hasKey_iff.mp hactive
      by_cases hold : a ∈ net.world.db.activeSubscriptions
      · obtain ⟨callback, hcallback, hknown⟩ := h.active s hmem (Table.hasKey_iff.mpr ⟨a, hold, haid⟩)
        refine ⟨callback, hcallback, hknown.imp_right fun hconfirmed => ?_⟩
        dsimp only
        split
        · exact List.mem_cons_of_mem _ hconfirmed
        · exact hconfirmed
      · -- The subscription has just become active, so it is the one that the request is about.
        obtain ⟨topic, challenge', leaseSeconds', hconfirms, rfl⟩ := confirms_of_new ha hold
        have hparse := hconfirms.parses
        rw [parseVerify_verification hdoc] at hparse
        cases form with
        | unsubscribe callback topic' => cases hparse
        | subscribe callback topic' secret =>
          cases hparse
          obtain ⟨rfl, rfl, rfl⟩ := h.requested.subscribes hub callback topic secret hreq s hmem (haid ▸ huri)
          refine ⟨callback, haid ▸ huri, .inr ?_⟩
          dsimp only
          rw [if_pos hconfirms.answer]
          exact List.mem_cons_self
  · rw [Network.ask_of_neg hdoc huri hid]
    exact h

theorem learn (h : Agreed svc net) {j : ℕ} {hub : String} {form : Form}
    (hmem : net.confirmed[j]? = some (hub, form)) :
    Agreed svc { net with
      confirmed := net.confirmed.eraseIdx j, registered := form.register hub net.registered } := by
  obtain ⟨hreq, id, hid, huri⟩ := h.confirmed hub form (List.mem_of_getElem? hmem)
  constructor
  · exact h.requested
  · intro hub' form' hleft
    exact h.confirmed hub' form' (List.mem_of_mem_eraseIdx hleft)
  · intro hub' r hr
    cases form with
    | subscribe callback topic secret =>
      rcases List.mem_cons.mp hr with hnew | hold
      · cases hnew
        exact ⟨hreq, id, hid, huri⟩
      · exact h.registered hub' r (List.mem_filter.mp hold).1
    | unsubscribe callback topic => exact h.registered hub' r (List.mem_filter.mp hr).1
  · intro s hs hactive
    obtain ⟨callback, hcallback, hknown⟩ := h.active s hs hactive
    refine ⟨callback, hcallback, ?_⟩
    rcases hknown with hregistered | hconfirmed
    · left
      cases form with
      | subscribe callback' topic' secret' =>
        by_cases hsame : s.hub = hub ∧ callback = callback' ∧ s.topic = topic'
        · obtain ⟨rfl, rfl, rfl⟩ := hsame
          obtain ⟨-, -, hsecret⟩ := h.requested.subscribes _ _ _ _ hreq s hs hcallback
          rw [hsecret]
          exact List.mem_cons_self
        · exact List.mem_cons_of_mem _ (List.mem_filter.mpr ⟨hregistered, decide_eq_true hsame⟩)
      | unsubscribe callback' topic' =>
        refine List.mem_filter.mpr ⟨hregistered, decide_eq_true ?_⟩
        rintro ⟨-, rfl, -⟩
        exact h.requested.unsubscribes _ _ _ hreq s hs hcallback
    · obtain ⟨i, hi⟩ := List.mem_iff_getElem?.mp hconfirmed
      by_cases hij : i = j
      · subst hij
        cases hmem.symm.trans hi
        exact .inl List.mem_cons_self
      · exact .inr (List.mem_eraseIdx_iff_getElem?.mpr ⟨i, hij, hi⟩)

theorem step (hdoc : Documented svc wire) (h : Agreed svc net) {move : Move} (hallowed : net.Allowed svc move) :
    Agreed svc (net.step svc wire move) := by
  cases move with
  | turn turn => exact h.turn hdoc hallowed.1 hallowed.2
  | restart =>
    dsimp only [Network.step]
    split
    · exact ⟨⟨h.requested.named, h.requested.subscribes, h.requested.unsubscribes⟩, h.confirmed, h.registered,
        h.active⟩
    · exact h
  | verify k challenge leaseSeconds now =>
    dsimp only [Network.step]
    split
    · rename_i hub form hreq
      have hmem := List.mem_of_getElem? hreq
      obtain ⟨id, huri⟩ := h.requested.named hub form hmem
      rw [Form.fromStr_body hdoc.utf8 (hdoc.display id _ huri)]
      exact h.ask hdoc hmem challenge leaseSeconds now
    · exact h
  | learn j =>
    dsimp only [Network.step]
    split
    · rename_i hub form hmem
      exact h.learn hmem
    · exact h

theorem always (hdoc : Documented svc wire) (timer : Timer) {moves : List Move}
    (hallowed : ∀ m ∈ Runs.moves (Network.step svc wire) (.start timer) moves, m.1.Allowed svc m.2) :
    ∀ net ∈ Runs.states (Network.step svc wire) (.start timer) moves, Agreed svc net :=
  Runs.always_of_moves (fun _ _ h hallowed => h.step hdoc hallowed) (start svc timer) hallowed

end Agreed

/-- **The hubs and the tables agree.** The subscriber starts with empty tables and takes its turns, is
restarted, and is asked for its intent by the hubs, as often as they like and about whichever requests, while
answers are under way. All the time the hub of an active subscription has registered its callback, topic and
secret or has the answer upon which it will, and what any hub has registered for a callback is what the table
has of the subscription, if it still has it. -/
theorem hubs_agree {svc : Service} {wire : Wire} (hdoc : Documented svc wire) (timer : Timer) (moves : List Move)
    (hallowed : ∀ m ∈ Runs.moves (Network.step svc wire) (.start timer) moves, m.1.Allowed svc m.2) :
    ∀ net ∈ Runs.states (Network.step svc wire) (.start timer) moves,
      (∀ s ∈ net.world.db.subscriptions, net.world.db.activeSubscriptions.hasKey s.id = true →
        net.Knows svc s) ∧
      ∀ hub r, (hub, r) ∈ net.registered → ∀ s ∈ net.world.db.subscriptions,
        makeCallback svc.lib svc.callback s.id = .ok r.callback →
          s.hub = hub ∧ s.topic = r.topic ∧ s.secret = r.secret := by
  intro net hnet
  have hagreed := Agreed.always hdoc timer hallowed net hnet
  refine ⟨hagreed.active, fun hub r hr s hs huri => ?_⟩
  exact hagreed.requested.subscribes _ _ _ _ (hagreed.registered hub r hr).1 s hs huri

/-! ### A subscription that is verified -/

/-- As much of `http` as the callbacks below need. -/
def sampleUris : UriText where
  display uri := uri.scheme.getD "" ++ "://" ++ uri.authority.getD "" ++ uri.pathAndQuery.getD ""
  parse text := match stripPrefix text "https://example.com" with
    | some path => .ok ⟨some "https", some "example.com", some path⟩
    | none => .error "invalid uri"

def sampleHosted : Service :=
  { sampleReceiver with lib := { sampleReceiver.lib with parseVerify := Verify.fromStr decodeOrReplace } }

def sampleWire : Wire := ⟨sampleCallLibraries, sampleUris, decodeOrReplace⟩

theorem isCallbackPrefix_sampleHosted : IsCallbackPrefix sampleHosted.lib sampleHosted.callback "/callback/" :=
  ⟨rfl, rfl, rfl, rfl, by simp, by simp⟩

theorem documented_sample : Documented sampleHosted sampleWire where
  callback := ⟨_, isCallbackPrefix_sampleHosted⟩
  base64 := base64Url_encode
  utf8 := isUtf8Decoder_decodeOrReplace
  parseVerify := rfl
  display id uri huri := by
    rw [eq_of_makeCallback isCallbackPrefix_sampleHosted huri]
    simp only [sampleWire, sampleUris]
    rw [show sampleHosted.callback.scheme.getD "" ++ "://" ++ sampleHosted.callback.authority.getD "" =
      "https://example.com" by decide, Option.getD_some, stripPrefix_append]
    rfl

/-- A subscription is created, and its hub asks for it and registers it. -/
def sampleMoves : List Move :=
  [.turn (.perform (.subscribe ⟨"secret", [2]⟩ "https://example.com/hub" "https://example.com/topic")),
    .verify 0 "challenge" 864000 1600000000, .learn 0]

def sampleNetwork : Network := Runs.final (Network.step sampleHosted sampleWire) (.start (.new none)) sampleMoves

def sampleRegistration : Registration :=
  ⟨⟨some "https", some "example.com", some "/callback/AQ"⟩, "https://example.com/topic", "secret"⟩

theorem sampleNetwork_eq : (sampleNetwork.registered, sampleNetwork.world.db.subscriptions.rows) =
    ([("https://example.com/hub", sampleRegistration)],
      [⟨1, "https://example.com/hub", "https://example.com/topic", "secret"⟩]) := by
  decide +kernel

theorem allowed_sampleMoves : ∀ m ∈ Runs.moves (Network.step sampleHosted sampleWire) (.start (.new none)) sampleMoves,
    m.1.Allowed sampleHosted m.2 := by
  refine List.forall_mem_cons.mpr ⟨⟨trivial, fun _ _ _ _ _ => (nomatch ·)⟩, ?_⟩
  refine List.forall_mem_cons.mpr ⟨trivial, List.forall_mem_cons.mpr ⟨trivial, ?_⟩⟩
  exact fun _ => (nomatch ·)

theorem mem_states_sampleNetwork :
    sampleNetwork ∈ Runs.states (Network.step sampleHosted sampleWire) (.start (.new none)) sampleMoves :=
  Runs.final_mem_states _ _ _

theorem mem_registered_sampleNetwork :
    ("https://example.com/hub", sampleRegistration) ∈ sampleNetwork.registered := by
  rw [(Prod.mk.inj sampleNetwork_eq).1]
  exact List.mem_cons_self

/-- The hub has what the table has. -/
theorem hubs_agree_sampleNetwork : sampleNetwork.Knows sampleHosted
    ⟨1, "https://example.com/hub", "https://example.com/topic", "secret"⟩ := by
  refine (hubs_agree documented_sample (.new none) sampleMoves allowed_sampleMoves sampleNetwork
    mem_states_sampleNetwork).1 _ ?_ ?_
  · rw [Table.mem_def, (Prod.mk.inj sampleNetwork_eq).2]
    exact List.mem_cons_self
  · decide +kernel

/-! ### Contents -/

/-- A hub distributes a content for a registration. -/
structure Distributes (lib : CallLibraries) (hmac : List UInt8 → List UInt8 → List UInt8) (r : Registration)
    (kind : MediaType) (content : List UInt8) (req : Request) : Prop where
  uri : req.uri = r.callback.originForm
  kind : IsMediaType lib req kind
  body : req.content = some content
  signature : ∃ digits, req.header hubSignature = some (sha1 ++ 61 :: digits) ∧
    Hex.Denotes digits (hmac (asBytes r.secret) content)

section Distribution

variable {svc : Service} {wire : Wire} {hmac : List UInt8 → List UInt8 → List UInt8} {w : World}
  {r : Registration} {kind : MediaType} {content : List UInt8} {req : Request}

theorem Distributes.isUpdate (h : Distributes wire.lib hmac r kind content req) (hdoc : Documented svc wire)
    {s : Subscription} (hs : s ∈ w.db.subscriptions) (hid : 0 ≤ s.id)
    (huri : makeCallback svc.lib svc.callback s.id = .ok r.callback) (htopic : s.topic = r.topic)
    (hsecret : s.secret = r.secret) {feed : Feed} (hfeed : Feed.parse wire.lib.readers kind content = some feed) :
    IsUpdate svc wire.lib hmac w.db req s (r.topic, feed) := by
  constructor
  · refine ⟨encodeCallbackId svc.lib (toLeBytes s.id), s.id.toUInt64, ?_, ?_, ?_, by simp⟩
    · rw [h.uri, (path_of_makeCallback hdoc huri).1, stripPrefix_append]
    · rw [decode_encodeCallbackId hdoc.base64 (toLeBytes_length s.id), fromLeBytes_toLeBytes]
    · have hnat := Machine.toNat_toUInt64 hid
      have hmax := s.id.toInt_lt
      omega
  · exact hs
  · refine ⟨kind, content, feed, h.kind, h.body, ?_, hfeed, by rw [htopic]⟩
    rw [hsecret]
    exact h.signature

/-- One feed, or none if the content is no feed. -/
theorem Distributes.delivered (h : Distributes wire.lib hmac r kind content req) (hdoc : Documented svc wire)
    (hmac_inc : Incremental wire.lib.hmac hmac) (hhex : HexSlice wire.lib.hexDecode) {s : Subscription}
    (hs : s ∈ w.db.subscriptions) (hid : 0 ≤ s.id)
    (huri : makeCallback svc.lib svc.callback s.id = .ok r.callback) (htopic : s.topic = r.topic)
    (hsecret : s.secret = r.secret) (now : UInt64) :
    svc.delivered wire.lib req now w = ((Feed.parse wire.lib.readers kind content).map (r.topic, ·)).toList := by
  have hquery : req.uri.query = none := by
    rw [h.uri]
    exact (path_of_makeCallback hdoc huri).2
  have hmem : ∀ item, item ∈ svc.delivered wire.lib req now w ↔
      ∃ s, IsUpdate svc wire.lib hmac w.db req s item :=
    fun item => (mem_delivered hquery).trans (isUpdate_iff hmac_inc hhex).symm
  obtain ⟨o, ho⟩ := delivered_eq_toList svc wire.lib req now w
  simp only [ho, Option.mem_toList] at hmem ⊢
  congr 1
  cases hfeed : Feed.parse wire.lib.readers kind content with
  | some feed => exact (hmem _).mpr ⟨s, h.isUpdate hdoc hs hid huri htopic hsecret hfeed⟩
  | none =>
    refine Option.eq_none_iff_forall_ne_some.mpr fun item hitem => ?_
    -- The request has one media type and one content.
    obtain ⟨-, -, -, kind', content', feed, hkind, hcontent, -, hfeed', -⟩ := (hmem item).mp hitem
    obtain rfl := h.kind.unique hkind
    obtain rfl := Option.some.inj (h.body.symm.trans hcontent)
    rw [hfeed] at hfeed'
    cases hfeed'

theorem Distributes.gone (h : Distributes wire.lib hmac r kind content req) (hdoc : Documented svc wire)
    (hmac_inc : Incremental wire.lib.hmac hmac) (hhex : HexSlice wire.lib.hexDecode) {id : Int64} (hid : 0 ≤ id)
    (huri : makeCallback svc.lib svc.callback id = .ok r.callback) (hgone : w.db.subscriptions.hasKey id = false)
    (now : UInt64) : (svc.call wire.lib req now).run w = (.ok (⟨410, ""⟩, none), w) := by
  obtain ⟨hpath, hquery⟩ := path_of_makeCallback hdoc huri
  obtain ⟨digits, hheader, hdigits⟩ := h.signature
  have hsig : wire.lib.hexDecode digits sha1Len = some (hmac (asBytes r.secret) content) :=
    (hhex _ _ _).mpr ⟨hmac_inc.length _ _, hdigits⟩
  rw [← h.uri] at hpath hquery
  rw [((call_of_path hdoc hpath now).2 hid).2 hquery]
  unfold Service.receive
  dsimp only
  rw [isMediaType_iff.mp h.kind]
  dsimp only
  rw [hheader]
  dsimp only
  rw [splitSignature_sha1]
  dsimp only
  rw [if_pos rfl, hsig]
  simp only [Prog.read, Prog.run_bind, Prog.run_step, Prog.run_done, Function.id_def,
    Table.find?_eq_none_iff.mpr hgone]
  rfl

end Distribution

/-- **What is registered is delivered.** In every state that the network of `hubs_agree` gets to, what a hub
distributes for a registration is put into the channel, as a feed of the registration's topic if it can be read
as one, if there still is the subscription, and else refused with the status 410. -/
theorem distributed_iff {svc : Service} {wire : Wire} {hmac : List UInt8 → List UInt8 → List UInt8}
    (hdoc : Documented svc wire) (hmac_inc : Incremental wire.lib.hmac hmac) (hhex : HexSlice wire.lib.hexDecode)
    (timer : Timer) (moves : List Move)
    (hallowed : ∀ m ∈ Runs.moves (Network.step svc wire) (.start timer) moves, m.1.Allowed svc m.2) :
    ∀ net ∈ Runs.states (Network.step svc wire) (.start timer) moves, ∀ hub r, (hub, r) ∈ net.registered →
      ∀ kind content req now, Distributes wire.lib hmac r kind content req →
        ((∃ s ∈ net.world.db.subscriptions, makeCallback svc.lib svc.callback s.id = .ok r.callback) →
          svc.delivered wire.lib req now net.world =
            ((Feed.parse wire.lib.readers kind content).map (r.topic, ·)).toList) ∧
        ((¬∃ s ∈ net.world.db.subscriptions, makeCallback svc.lib svc.callback s.id = .ok r.callback) →
          (svc.call wire.lib req now).run net.world = (.ok (⟨410, ""⟩, none), net.world)) := by
  intro net hnet hub r hr kind content req now hdistributes
  have hagreed := Agreed.always hdoc timer hallowed net hnet
  obtain ⟨hreq, id, hid, huri⟩ := hagreed.registered hub r hr
  constructor
  · rintro ⟨s, hs, hs'⟩
    obtain rfl : s.id = id := hdoc.makeCallback_injective hs' huri
    obtain ⟨-, htopic, hsecret⟩ := hagreed.requested.subscribes _ _ _ _ hreq s hs huri
    exact hdistributes.delivered hdoc hmac_inc hhex hs hid huri htopic hsecret now
  · intro hnone
    refine hdistributes.gone hdoc hmac_inc hhex hid huri ?_ now
    rw [Table.hasKey_eq_false_iff]
    rintro s hs rfl
    exact hnone ⟨s, hs, huri⟩

/-- The hub of the sample distributes a content. -/
theorem distributed_sampleNetwork :
    sampleHosted.delivered sampleWire.lib sampleRequest 0 sampleNetwork.world =
      [("https://example.com/topic", ⟨"News", "https://example.com/", []⟩)] := by
  refine ((distributed_iff documented_sample
    (incremental_ofOneShot length_sampleHmac) hexSlice_sampleCallLibraries (.new none) sampleMoves
    allowed_sampleMoves sampleNetwork mem_states_sampleNetwork _ _ mem_registered_sampleNetwork .rss
    (asBytes sampleText) sampleRequest 0 ⟨rfl, ?_, ?_, ?_⟩).1 ?_).trans ?_
  · exact ⟨asBytes "application/rss+xml", "application/rss+xml", ⟨"application", "rss", some "xml"⟩,
      by decide, by decide, by decide, by decide⟩
  · decide
  · refine ⟨asBytes "bfa28992df795d68f975600b7b3b071146DED33B", by decide, ?_⟩
    rw [← Hex.decode_eq_some_iff]
    decide
  · refine ⟨⟨1, "https://example.com/hub", "https://example.com/topic", "secret"⟩, ?_, rfl⟩
    rw [Table.mem_def, (Prod.mk.inj sampleNetwork_eq).2]
    exact List.mem_cons_self
  · decide

end Websub

end Pipitor
