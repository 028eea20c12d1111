import Pipitor.App.Lifecycle
import Pipitor.Websub.Callback

/-!
# The configured callback

`websub.callback` of the manifest: `de_callback` accepts it, `prepare_callback_prefix` makes it the prefix of
the callbacks of the server, and `pipitor websub unsubscribe` uses it as it stands. `callback_roundTrip` is
the way of an id from a subscription's callback back to the server; `callback_agrees_iff` says when the two
programs name a subscription alike.
-/

namespace Pipitor.App

open Resumption Relational Websub

/-- `manifest::de_callback`, where `parse` is `http_serde::uri::deserialize`. -/
def deCallback (parse : String → Except String Uri) (text : String) : Except String Uri :=
  match parse text with
  | .error e => .error e
  | .ok uri =>
    if uri.scheme.isNone then .error "missing URI scheme"
    else if uri.query.isSome then .error "`websub.callback` must not have a query part"
    else .ok uri

section Prepare

variable {lib : Libraries} {parse : String → Except String Uri} {text : String} {callback : Uri}

theorem endsWith_slash_iff {p : String} : p.endsWith "/" = true ↔ "/".toList <:+ p.toList := by
  rw [String.endsWith_eq_endsWith_toSlice, String.Slice.endsWith_string_iff, String.copy_toSlice]

theorem endsWith_slash_append (p : String) : (p ++ "/").endsWith "/" = true := by
  rw [endsWith_slash_iff, String.toList_append]
  exact List.suffix_append _ _

theorem isCallbackPrefix_of_deCallback (hhttp : HttpUri lib parse) (h : deCallback parse text = .ok callback) :
    ∃ p, IsCallbackPrefix lib callback p := by
  unfold deCallback at h
  cases hparse : parse text with
  | error e =>
    rw [hparse] at h
    cases h
  | ok uri =>
    rw [hparse] at h
    dsimp only at h
    split at h
    · cases h
    rename_i hscheme
    split at h
    · cases h
    rename_i hquery
    cases h
    have hscheme : callback.scheme.isSome = true := by
      simpa [Option.isNone_iff_eq_none, Option.isSome_iff_ne_none] using hscheme
    obtain ⟨hauthority, p, hpath, hne, hvalid⟩ := hhttp.absolute text callback hparse hscheme
    refine ⟨p, hscheme, hauthority, hpath, hvalid, ?_, ?_⟩
    · exact (Uri.query_eq_none_iff hpath).mp (by simpa using hquery)
    · simpa using hne

/-- The path of a prefix, with a slash at its end. -/
def slashed (p : String) : String := if p.endsWith "/" then p else p ++ "/"

theorem endsWith_slashed (p : String) : (slashed p).endsWith "/" = true := by
  unfold slashed
  split
  · assumption
  · exact endsWith_slash_append p

theorem prepareCallbackPrefix_eq {p : String} (h : IsCallbackPrefix lib callback p)
    (hhttp : HttpUri lib parse) :
    App.prepareCallbackPrefix lib callback = .ok { callback with pathAndQuery := some (slashed p) } := by
  unfold App.prepareCallbackPrefix slashed
  rw [h.path]
  dsimp only
  split
  · rw [← h.path]
  · have hvalid : lib.isPathAndQuery (p ++ "/") = true :=
      hhttp.append p "/" h.valid fun c hc => Or.inl (by simpa using hc)
    rw [hvalid, hhttp.fromParts { callback with pathAndQuery := some _ } h.scheme h.authority rfl]
    rfl

theorem isCallbackPrefix_slashed {p : String} (h : IsCallbackPrefix lib callback p)
    (hhttp : HttpUri lib parse) :
    IsCallbackPrefix lib { callback with pathAndQuery := some (slashed p) } (slashed p) := by
  unfold slashed
  split
  · exact ⟨h.scheme, h.authority, rfl, h.valid, h.no_query, h.nonempty⟩
  · refine ⟨h.scheme, h.authority, rfl, hhttp.append p "/" h.valid fun c hc => Or.inl (by simpa using hc),
      ?_, by rw [String.toList_append]; simp⟩
    intro c hc
    rw [String.toList_append, List.mem_append] at hc
    rcases hc with hc | hc
    · exact h.no_query c hc
    · obtain rfl : c = '/' := by simpa using hc
      decide

end Prepare

/-- **An id survives the way through its callback.** For every callback that `de_callback` accepts: it can be
prepared, which keeps scheme and authority and does nothing the second time; the callback of every id that
is not negative can be built, its path starts with the prepared one, and what follows is decoded to the id;
and different ids have different callbacks. -/
theorem callback_roundTrip {lib : Libraries} {decode : String → Option (List UInt8)}
    {parse : String → Except String Uri} (hbase64 : Base64Url lib.base64 decode)
    (hhttp : HttpUri lib parse) {text : String} {callback : Uri}
    (h : deCallback parse text = .ok callback) :
    ∃ start, App.prepareCallbackPrefix lib callback = .ok start ∧
      (App.prepareCallbackPrefix lib start = .ok start ∧ start.scheme = callback.scheme ∧
        start.authority = callback.authority) ∧
      (∀ id : Int64, 0 ≤ id → ∃ uri rest, makeCallback lib start id = .ok uri ∧
        stripPrefix uri.path start.path = some rest ∧
        decodeCallbackId decode rest = .ok (some id.toUInt64) ∧
        Machine.tryIntoI64 id.toUInt64 = some id) ∧
      ∀ id id' : Int64, 0 ≤ id → 0 ≤ id' →
        makeCallback lib start id = makeCallback lib start id' → id = id' := by
  obtain ⟨p, hstart⟩ := isCallbackPrefix_of_deCallback hhttp h
  have hslashed := isCallbackPrefix_slashed hstart hhttp
  refine ⟨_, prepareCallbackPrefix_eq hstart hhttp, ⟨?_, rfl, rfl⟩, ?_, ?_⟩
  · rw [prepareCallbackPrefix_eq hslashed hhttp]
    have hsame : slashed (slashed p) = slashed p := if_pos (endsWith_slashed p)
    rw [hsame]
  · intro id hid
    refine ⟨_, encodeCallbackId lib (toLeBytes id), hslashed.makeCallback hbase64 hhttp id, ?_, ?_,
      tryIntoI64_toUInt64 hid⟩
    · rw [hslashed.callback_path hbase64 id]
      exact stripPrefix_append _ _
    · rw [decode_encodeCallbackId hbase64 (toLeBytes_length id), fromLeBytes_toLeBytes]
  · intro id id' _ _ heq
    rw [hslashed.makeCallback hbase64 hhttp, hslashed.makeCallback hbase64 hhttp] at heq
    refine encodeCallbackId_injective hbase64 ?_
    have hpath : slashed p ++ encodeCallbackId lib (toLeBytes id) =
        slashed p ++ encodeCallbackId lib (toLeBytes id') := by simpa using heq
    rw [← String.toList_inj] at hpath ⊢
    simpa using hpath

/-! ### The command-line program -/

namespace Cli

/-- The loop of `unsubscribe` in `bin/pipitor/websub.rs`. -/
def unsubscribeRows (lib : Libraries) (callback : Uri) : List Subscription → Prog World Abort (List Websub.Task)
  | [] => pure []
  | s :: rows => do
    let task ← Hub.unsubscribe lib callback s.id s.hub s.topic
    let tasks ← unsubscribeRows lib callback rows
    pure (task :: tasks)

/-- The subscriptions that the options select. -/
def selected (ids : Option (List Int64)) (order : RowOrder Subscription) (db : Database) :
    List Subscription :=
  order.apply (db.subscriptions.rows.filter fun s => ids.all (·.contains s.id))

/-- `unsubscribe` of `bin/pipitor/websub.rs` up to its `await`. Its statements are one transaction, so it is
run without interruption. -/
def unsubscribe (lib : Libraries) (config : WebSub) (ids : Option (List Int64))
    (order : RowOrder Subscription) : Prog World Abort (List Websub.Task) := do
  let rows ← query (selected ids order)
  unsubscribeRows lib config.callback rows

end Cli

/-- The request to end a subscription that `pipitor websub unsubscribe` sends has this callback. -/
def CliSends (lib : Libraries) (config : WebSub) (s : Subscription) (callback : Uri) : Prop :=
  ∃ (ids : Option (List Int64)) (order : RowOrder Subscription) (w w' : World)
    (tasks : List Websub.Task) (i : ℕ), (Cli.unsubscribe lib config ids order).run w = (.ok tasks, w') ∧
    (Cli.selected ids order w.db)[i]? = some s ∧
    tasks[i]? = some (.request s.hub (.unsubscribe callback s.topic))

/-- The request with which the server made the subscription, or renewed another into it, has this
callback. -/
inductive ServerSends (svc : Service) (id : Int64) (callback : Uri) : Prop
  | subscribe {draw : Draw} {hub topic secret : String} {w w' : World} {db : Database}
      (hid : createSubscription draw hub topic w.db = .ok ((id, secret), db))
      (hrun : (svc.subscribe draw hub topic).run w =
        (.ok (.request hub (.subscribe callback topic secret)), w'))
  | renew {draw : Draw} {old : Int64} {hub topic secret : String} {w w' : World} {db : Database}
      (hid : renewTransaction draw old hub topic w.db = .ok ((id, secret), db))
      (hrun : (Hub.renew svc.lib svc.callback draw old hub topic).run w =
        (.ok (.request hub (.subscribe callback topic secret)), w'))

section Agreement

theorem makeCallback_of_run {lib : Libraries} {start : Uri} {id : Int64} {hub hub' : String}
    (form : Uri → Form) {form' : Form} {w w' : World}
    (h : (do
      let callback ← Prog.ofExcept (makeCallback lib start id)
      Prog.ofExcept (sendRequest lib hub (form callback)) : Prog World Abort Websub.Task).run w =
        (.ok (.request hub' form'), w')) :
    ∃ callback, makeCallback lib start id = .ok callback ∧ form' = form callback := by
  cases hmake : makeCallback lib start id with
  | error e =>
    rw [hmake] at h
    cases h
  | ok callback =>
    refine ⟨callback, rfl, ?_⟩
    rw [hmake] at h
    unfold sendRequest at h
    by_cases hhub : lib.isUri hub = true
    · simp only [hhub, if_true, Prog.ofExcept, Prog.done_bind, Prog.run_done] at h
      cases h
      rfl
    · simp only [hhub, Bool.false_eq_true, if_false, Prog.ofExcept, Prog.done_bind, Prog.run_abort] at h
      cases h

theorem run_transaction {α β : Type} {f : Database → Except Abort (α × Database)} {w : World} {a : α}
    {db : Database} (k : α → Prog World Abort β) (h : f w.db = .ok (a, db)) :
    (transaction f >>= k).run w = (k a).run { w with db } := by
  have hrun : (transaction f).run w = (.ok a, { w with db }) := by
    apply Prog.run_attempt_ok
    rw [h]
  rw [Prog.run_bind, hrun]

theorem ServerSends.makeCallback {svc : Service} {id : Int64} {callback : Uri}
    (h : ServerSends svc id callback) : makeCallback svc.lib svc.callback id = .ok callback := by
  cases h with
  | @subscribe draw hub topic secret w w' db hid hrun =>
    unfold Service.subscribe Hub.subscribe at hrun
    rw [run_transaction _ hid] at hrun
    obtain ⟨callback', hmake, hform⟩ := makeCallback_of_run (.subscribe · topic secret) hrun
    cases hform
    exact hmake
  | @renew draw old hub topic secret w w' db hid hrun =>
    unfold Hub.renew at hrun
    rw [run_transaction _ hid] at hrun
    obtain ⟨callback', hmake, hform⟩ := makeCallback_of_run (.subscribe · topic secret) hrun
    cases hform
    exact hmake

theorem run_unsubscribeRows {lib : Libraries} {start : Uri} {rows : List Subscription} {w w' : World}
    {tasks : List Websub.Task} (h : (Cli.unsubscribeRows lib start rows).run w = (.ok tasks, w')) {i : ℕ}
    {s : Subscription} {callback : Uri} (hs : rows[i]? = some s)
    (htask : tasks[i]? = some (.request s.hub (.unsubscribe callback s.topic))) :
    makeCallback lib start s.id = .ok callback := by
  induction rows generalizing w tasks i with
  | nil => simp at hs
  | cons row rows ih =>
    unfold Cli.unsubscribeRows at h
    rw [Prog.run_bind] at h
    cases hhead : (Hub.unsubscribe lib start row.id row.hub row.topic).run w with
    | mk r w₁ =>
      rw [hhead] at h
      cases r with
      | error e => cases h
      | ok task =>
        dsimp only at h
        rw [Prog.run_bind] at h
        cases htail : (Cli.unsubscribeRows lib start rows).run w₁ with
        | mk r w₂ =>
          rw [htail] at h
          cases r with
          | error e => cases h
          | ok tasks' =>
            cases h
            cases i with
            | zero =>
              obtain rfl : row = s := by simpa using hs
              obtain rfl : task = .request row.hub (.unsubscribe callback row.topic) := by simpa using htask
              obtain ⟨callback', hmake, hform⟩ :=
                makeCallback_of_run (.unsubscribe · row.topic) hhead
              cases hform
              exact hmake
            | succ i => exact ih htail (by simpa using hs) (by simpa using htask)

theorem CliSends.makeCallback {lib : Libraries} {config : WebSub} {s : Subscription} {callback : Uri}
    (h : CliSends lib config s callback) : makeCallback lib config.callback s.id = .ok callback := by
  obtain ⟨ids, order, w, w', tasks, i, hrun, hs, htask⟩ := h
  exact run_unsubscribeRows hrun hs htask

/-- A path has a slash at its end exactly when nothing is appended to it. -/
theorem append_eq_slashed_iff {p : String} (rest : String) :
    p ++ rest = slashed p ++ rest ↔ p.endsWith "/" = true := by
  unfold slashed
  split
  · simpa
  · rename_i hslash
    refine iff_of_false (fun heq => ?_) hslash
    have hlength := congrArg (fun s => s.toList.length) heq
    simp at hlength

/-- **The two programs name a subscription differently.** The callback with which `pipitor websub unsubscribe`
ends a subscription is the one with which the server made it exactly when the path of the configured callback
ends with a slash. -/
theorem callback_agrees_iff {env : AppEnv} {config : WebSub} {svc : Service}
    {decode : String → Option (List UInt8)} {parse : String → Except String Uri}
    (hbase64 : Base64Url env.lib.base64 decode) (hhttp : HttpUri env.lib parse) {text : String}
    (hcallback : deCallback parse text = .ok config.callback) (hsvc : App.serviceOf env config = .ok svc)
    {s : Subscription} {mine theirs : Uri} (hmine : CliSends env.lib config s mine)
    (htheirs : ServerSends svc s.id theirs) :
    mine = theirs ↔ config.callback.path.endsWith "/" = true := by
  obtain ⟨p, hstart⟩ := isCallbackPrefix_of_deCallback hhttp hcallback
  have hslashed := isCallbackPrefix_slashed hstart hhttp
  unfold App.serviceOf at hsvc
  rw [prepareCallbackPrefix_eq hstart hhttp] at hsvc
  cases hsvc
  have hcli := hmine.makeCallback
  have hserver := htheirs.makeCallback
  rw [hstart.makeCallback hbase64 hhttp] at hcli
  rw [hslashed.makeCallback hbase64 hhttp] at hserver
  cases hcli
  cases hserver
  rw [hstart.path_eq, ← append_eq_slashed_iff (encodeCallbackId env.lib (toLeBytes s.id))]
  simp

end Agreement

/-! ### A callback without a slash at its end -/

/-- Characters that a path and a query may have; there are others. -/
def isPathChar (c : Char) : Bool := decide (Base64.IsUrlSafe c) || "/?.~%=&".toList.contains c

/-- `base64` as it is, and as much of `http` as the URIs below need. -/
def sampleCrates : Libraries where
  base64 bytes := .ofList (Base64.encode bytes)
  isUri _ := true
  isPathAndQuery s := s.toList.all isPathChar
  isUriParts uri := uri.scheme.isSome && uri.authority.isSome && uri.pathAndQuery.isSome
  parseVerify _ := none

def sampleCallback (path : String) : Uri := ⟨some "https", some "example.com", some path⟩

def sampleParse (text : String) : Except String Uri :=
  if text = "https://example.com/callback" then .ok (sampleCallback "/callback")
  else .error "invalid uri character"

theorem base64Url_sampleCrates : Base64Url sampleCrates.base64 (fun s => Base64.decode s.toList) :=
  base64Url_encode

theorem httpUri_sampleCrates : HttpUri sampleCrates sampleParse where
  absolute text uri h _ := by
    unfold sampleParse at h
    split at h
    · cases h
      exact ⟨rfl, "/callback", rfl, by decide, by decide⟩
    · cases h
  append p t hp ht := by
    have hsafe : ∀ c, c = '/' ∨ Base64.IsUrlSafe c → isPathChar c = true := by
      rintro c (rfl | hc)
      · decide
      · simp [isPathChar, hc]
    simp only [sampleCrates, String.toList_append, List.all_append, Bool.and_eq_true] at hp ⊢
    exact ⟨hp, List.all_eq_true.mpr fun c hc => hsafe c (ht c hc)⟩
  fromParts uri hscheme hauthority hpath := by simp [sampleCrates, hscheme, hauthority, hpath]

theorem deCallback_sampleCallback :
    deCallback sampleParse "https://example.com/callback" = .ok (sampleCallback "/callback") := by
  decide

/-- The ids of subscriptions with this callback. -/
theorem callback_roundTrip_sampleCallback :
    ∃ start, App.prepareCallbackPrefix sampleCrates (sampleCallback "/callback") = .ok start ∧
      ∀ id : Int64, 0 ≤ id → ∃ uri rest, makeCallback sampleCrates start id = .ok uri ∧
        stripPrefix uri.path start.path = some rest ∧
        decodeCallbackId (fun s => Base64.decode s.toList) rest = .ok (some id.toUInt64) := by
  obtain ⟨start, hstart, -, hall, -⟩ :=
    callback_roundTrip base64Url_sampleCrates httpUri_sampleCrates deCallback_sampleCallback
  refine ⟨start, hstart, fun id hid => ?_⟩
  obtain ⟨uri, rest, huri, hrest, hdecode, -⟩ := hall id hid
  exact ⟨uri, rest, huri, hrest, hdecode⟩

/-- A manifest with this callback. -/
def sampleWebSub : WebSub := ⟨sampleCallback "/callback", none, 3600000000000⟩

/-- The server of this manifest. -/
def sampleServer : Service := ⟨sampleCallback "/callback/", 3600, true, 0, sampleCrates⟩

theorem serviceOf_sampleWebSub :
    App.serviceOf { startEnv with lib := sampleCrates } sampleWebSub = .ok sampleServer := by
  have hslash : "/callback".endsWith "/" = false := by
    rw [← Bool.not_eq_true, endsWith_slash_iff]
    decide
  unfold App.serviceOf App.prepareCallbackPrefix sampleWebSub
  simp only [sampleCallback, hslash]
  rfl

def sampleRow : Subscription := ⟨1, "https://example.com/hub", "https://example.com/topic", ""⟩

def subscribedOnce : Websub.Database :=
  { Websub.Database.empty with
    subscriptions := ⟨[sampleRow], by decide⟩
    active_references := by simp [Websub.Database.empty]
    pending_references := by simp [Websub.Database.empty] }

theorem serverSends_sampleRow : ServerSends sampleServer 1 (sampleCallback "/callback/AQ") :=
  @ServerSends.subscribe sampleServer 1 _ ⟨"", [2]⟩ sampleRow.hub sampleRow.topic _ ⟨.empty, .new none, []⟩
    _ _ rfl rfl

theorem cliSends_sampleRow : CliSends sampleCrates sampleWebSub sampleRow (sampleCallback "/callbackAQ") :=
  ⟨some [1], .asStored, ⟨subscribedOnce, .new none, []⟩, _, _, 0, rfl, rfl, rfl⟩

/-- Its two names of subscription 1 are compared by the slash that is missing. -/
theorem callback_agrees_iff_sampleRow :
    sampleCallback "/callbackAQ" = sampleCallback "/callback/AQ" ↔
      sampleWebSub.callback.path.endsWith "/" = true :=
  @callback_agrees_iff { startEnv with lib := sampleCrates } _ _ _ _ base64Url_sampleCrates
    httpUri_sampleCrates _ deCallback_sampleCallback serviceOf_sampleWebSub _ _ _ cliSends_sampleRow
    serverSends_sampleRow

/-- The server subscribes with one callback and `pipitor websub unsubscribe` sends another. -/
theorem callback_differs_sampleRow :
    deCallback sampleParse "https://example.com/callback" = .ok sampleWebSub.callback ∧
      App.serviceOf { startEnv with lib := sampleCrates } sampleWebSub = .ok sampleServer ∧
      ∃ mine theirs, CliSends sampleCrates sampleWebSub sampleRow mine ∧
        ServerSends sampleServer sampleRow.id theirs ∧ mine ≠ theirs :=
  ⟨deCallback_sampleCallback, serviceOf_sampleWebSub, _, _, cliSends_sampleRow, serverSends_sampleRow,
    by decide⟩

end Pipitor.App
