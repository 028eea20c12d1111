import Pipitor.App.Control
import Pipitor.App.Document

/-!
# Manifests at work

Whatever a document says, the manifest that is read from it is well-formed. `wellFormed_reached` carries this over to
every manifest that `pipitor run` is at work with, from its start and through the reloads that `pipitor ctl` asks for.
-/

namespace Pipitor

open Serde Fallible

/-- An address that the subscriber can be bound to. -/
def Bindable (parsers : Parsers) (addr : String) : Prop :=
  (∃ rest, addr.toList = "tcp://".toList ++ rest ∧ parsers.socketAddr (String.ofList rest) = .ok ()) ∨
    "unix://".toList <+: addr.toList

structure WebSub.WellFormed (parsers : Parsers) (websub : WebSub) : Prop where
  callback : ∃ text, App.deCallback parsers.uri text = .ok websub.callback
  bind : ∀ addr ∈ websub.bind, Bindable parsers addr
  renewalMargin : websub.renewalMargin.asSecs < 2 ^ 64

structure TwitterList.WellFormed (list : TwitterList) : Prop where
  interval : list.interval.asSecs < 2 ^ 64
  delay : list.delay.asSecs < 2 ^ 64

structure Manifest.WellFormed (parsers : Parsers) (m : Manifest) : Prop where
  valid : m.validate = .ok ()
  websub : ∀ websub ∈ m.websub, websub.WellFormed parsers
  list : ∀ twitter ∈ m.twitter, ∀ list ∈ twitter.list, list.WellFormed

section Deserialize

variable {fmt : Format} {parsers : Parsers}

theorem mapError_eq_ok {ε ε' α : Type} {f : ε → ε'} {x : Except ε α} {a : α} (h : x.mapError f = .ok a) : x = .ok a := by
  cases x with
  | error e => cases h
  | ok b => rw [Except.ok.inj h]

theorem asSecs_of_deserialize {v : Value} {d : Duration} (h : Duration.deserialize fmt v = .ok d) :
    d.asSecs < 2 ^ 64 := by
  obtain ⟨value, -, h⟩ := bind_eq_ok_iff.mp h
  exact asSecs_deDurationFromSecs (mapError_eq_ok h)

theorem deCallback_of_deserialize {v : Value} {callback : Uri} (h : Uri.deserialize parsers v = .ok callback) :
    ∃ text, App.deCallback parsers.uri text = .ok callback := by
  obtain ⟨text, -, h⟩ := bind_eq_ok_iff.mp h
  exact ⟨text, mapError_eq_ok h⟩

theorem bindable_of_deserialize {v : Value} {addr : String} (h : Addr.deserialize parsers v = .ok addr) :
    Bindable parsers addr := by
  obtain ⟨s, -, h⟩ := bind_eq_ok_iff.mp h
  split at h
  · rename_i htcp
    obtain ⟨⟨⟩, haddr, h⟩ := bind_eq_ok_iff.mp h
    obtain ⟨rest, hrest⟩ := List.isPrefixOf_iff_prefix.mp htcp
    left
    refine ⟨rest, ?_, ?_⟩
    · rw [← Except.ok.inj h, hrest]
    · have hdrop : s.toList.drop 6 = rest := by
        rw [← hrest]
        rfl
      rw [← hdrop]
      exact mapError_eq_ok haddr
  · split at h
    · rename_i hunix
      right
      rw [← Except.ok.inj h]
      exact List.isPrefixOf_iff_prefix.mp hunix
    · cases h

theorem WebSub.wellFormed_of_deserialize {v : Value} {websub : WebSub}
    (h : WebSub.deserialize fmt parsers v = .ok websub) : websub.WellFormed parsers := by
  obtain ⟨r, -, h⟩ := bind_eq_ok_iff.mp h
  obtain ⟨callback, hcallback, h⟩ := bind_eq_ok_iff.mp h
  obtain ⟨bind, hbind, h⟩ := bind_eq_ok_iff.mp h
  obtain ⟨margin, hmargin, h⟩ := bind_eq_ok_iff.mp h
  rw [← Except.ok.inj h]
  refine ⟨?_, ?_, ?_⟩
  · exact of_required (P := fun uri => ∃ text, App.deCallback parsers.uri text = .ok uri)
      (fun _ _ => deCallback_of_deserialize) hcallback
  · exact forall_optional (fun _ _ => bindable_of_deserialize) hbind
  · refine of_default (P := fun d : Duration => d.asSecs < 2 ^ 64) (fun _ _ => asSecs_of_deserialize) ?_ hmargin
    exact asSecs_deDurationFromSecs (v := .u64 (60 * 60)) rfl

theorem TwitterList.wellFormed_of_deserialize {v : Value} {list : TwitterList}
    (h : TwitterList.deserialize fmt v = .ok list) : list.WellFormed := by
  have hdefault : oneSec.asSecs < 2 ^ 64 := asSecs_deDurationFromSecs (v := .u64 1) rfl
  obtain ⟨r, -, h⟩ := bind_eq_ok_iff.mp h
  obtain ⟨id, -, h⟩ := bind_eq_ok_iff.mp h
  obtain ⟨interval, hinterval, h⟩ := bind_eq_ok_iff.mp h
  obtain ⟨delay, hdelay, h⟩ := bind_eq_ok_iff.mp h
  rw [← Except.ok.inj h]
  constructor
  · exact of_default (P := fun d : Duration => d.asSecs < 2 ^ 64) (fun _ _ => asSecs_of_deserialize) hdefault hinterval
  · exact of_default (P := fun d : Duration => d.asSecs < 2 ^ 64) (fun _ _ => asSecs_of_deserialize) hdefault hdelay

theorem Twitter.wellFormed_of_deserialize {v : Value} {twitter : Twitter}
    (h : Twitter.deserialize fmt v = .ok twitter) : ∀ list ∈ twitter.list, list.WellFormed := by
  obtain ⟨r, -, h⟩ := bind_eq_ok_iff.mp h
  obtain ⟨client, -, h⟩ := bind_eq_ok_iff.mp h
  obtain ⟨user, -, h⟩ := bind_eq_ok_iff.mp h
  obtain ⟨stream, -, h⟩ := bind_eq_ok_iff.mp h
  obtain ⟨list, hlist, h⟩ := bind_eq_ok_iff.mp h
  rw [← Except.ok.inj h]
  exact forall_default_option (fun _ _ => TwitterList.wellFormed_of_deserialize) hlist

theorem Manifest.wellFormed_of_deserialize {v : Value} {m : Manifest}
    (h : Manifest.deserialize fmt parsers v = .ok m) : m.WellFormed parsers := by
  obtain ⟨r, -, h⟩ := bind_eq_ok_iff.mp h
  obtain ⟨databaseUrl, -, h⟩ := bind_eq_ok_iff.mp h
  obtain ⟨rule, -, h⟩ := bind_eq_ok_iff.mp h
  obtain ⟨websub, hwebsub, h⟩ := bind_eq_ok_iff.mp h
  obtain ⟨twitter, htwitter, h⟩ := bind_eq_ok_iff.mp h
  obtain ⟨skipDuplicate, -, h⟩ := bind_eq_ok_iff.mp h
  unfold Manifest.validated at h
  split at h
  · cases h
  · rename_i hvalid
    rw [← Except.ok.inj h]
    refine ⟨?_, ?_, ?_⟩
    · unfold Manifest.validate
      rw [hvalid]
    · exact forall_default_option (fun _ _ => WebSub.wellFormed_of_deserialize) hwebsub
    · exact forall_default_option (P := fun twitter : Twitter => ∀ list ∈ twitter.list, list.WellFormed)
        (fun _ _ => Twitter.wellFormed_of_deserialize) htwitter

end Deserialize

/-! ### The files -/

/-- A crate that reads documents. -/
structure Reader (Source : Type) where
  fmt : Format
  parse : Source → Except String Value
  message : Error → String

def Reader.read {Source : Type} (reader : Reader Source) (parsers : Parsers) (source : Source) :
    Except String Manifest := do
  let v ← reader.parse source
  (Manifest.deserialize reader.fmt parsers v).mapError reader.message

/-- The parsers of the manifest file are such crates. -/
structure Files.Documented (parsers : Parsers) (files : Files) : Prop where
  json : ∃ reader : Reader (List UInt8), files.json = reader.read parsers
  toml : ∃ reader : Reader (List UInt8), files.toml = reader.read parsers
  dhall : ∀ fromFile ∈ files.dhall, ∃ reader : Reader String, fromFile = reader.read parsers

section Open

variable {parsers : Parsers} {opt : Opt} {files : Files} {m : Manifest}

theorem Reader.wellFormed_of_read {Source : Type} {reader : Reader Source} {source : Source}
    (h : reader.read parsers source = .ok m) : m.WellFormed parsers := by
  obtain ⟨v, -, h⟩ := bind_eq_ok_iff.mp h
  exact Manifest.wellFormed_of_deserialize (mapError_eq_ok h)

theorem Manifest.WellFormed.resolvePaths (h : m.WellFormed parsers) (base : String) :
    (m.resolvePaths base).WellFormed parsers := by
  unfold Manifest.resolvePaths
  split
  · exact ⟨h.valid, h.websub, h.list⟩
  · exact h

theorem wellFormed_of_openManifest (hfiles : files.Documented parsers) (h : opt.openManifest files = .ok m) :
    m.WellFormed parsers := by
  obtain ⟨⟨path, parsed⟩, hread, h⟩ := bind_eq_ok_iff.mp h
  obtain ⟨⟨⟨⟩, path'⟩, -, hread⟩ := bind_eq_ok_iff.mp hread
  have hparsed : ∀ {x : Except OpenError Manifest}, (∀ m, x = .ok m → m.WellFormed parsers) →
      (x >>= fun m => pure (path', m)) = .ok (path, parsed) → parsed.WellFormed parsers := by
    intro x hx h
    obtain ⟨m, hm, h⟩ := bind_eq_ok_iff.mp h
    obtain ⟨-, rfl⟩ := Prod.mk.inj (Except.ok.inj h)
    exact hx m hm
  have hslice : ∀ {parser : List UInt8 → Except String Manifest},
      (∃ reader : Reader (List UInt8), parser = reader.read parsers) → ∀ m,
      (do
        let buf ← (files.read path').mapError fun e => (⟨"could not open the manifest", .io e⟩ : OpenError)
        (parser buf).mapError fun e => ⟨"failed to parse the manifest", .parse e⟩) = .ok m →
      m.WellFormed parsers := by
    rintro _ ⟨reader, rfl⟩ m h
    obtain ⟨buf, -, h⟩ := bind_eq_ok_iff.mp h
    exact Reader.wellFormed_of_read (mapError_eq_ok h)
  rw [← Except.ok.inj h]
  refine Manifest.WellFormed.resolvePaths ?_ path
  dsimp only at hread
  split at hread
  · exact hparsed (hslice hfiles.json) hread
  · split at hread
    · split at hread
      · rename_i fromFile hdhall
        obtain ⟨reader, rfl⟩ := hfiles.dhall fromFile hdhall
        exact hparsed (fun m hm => Reader.wellFormed_of_read (mapError_eq_ok hm)) hread
      · exact hparsed (hslice hfiles.toml) hread
    · exact hparsed (hslice hfiles.toml) hread

end Open

/-! ### Over a run -/

namespace App.Control

variable {parsers : Parsers} {opt : Opt} {parse : List UInt8 → Option Json} {s : Control}

/-- The manifest at work, if any, is well-formed. -/
def WellFormed (parsers : Parsers) (s : Control) : Prop :=
  ∀ app w, s.loop = .running app w → app.core.manifest.WellFormed parsers

/-- The file that is opened is a document. -/
def Documented (parsers : Parsers) : Event → Prop
  | .serve files _ _ _ => files.Documented parsers
  | _ => True

theorem WellFormed.of_loop {s' : Control} (h : s.WellFormed parsers) (hloop : s'.loop = s.loop) :
    s'.WellFormed parsers := by
  intro app w hrunning
  exact h app w (hloop ▸ hrunning)

theorem wellFormed_of_ended {ok : Bool} (hloop : s.loop = .ended ok) : s.WellFormed parsers := by
  intro app w hrunning
  rw [hloop] at hrunning
  cases hrunning

theorem WellFormed.reload {i : ℕ} {app : App} {w : Websub.World} {files : Files} {env : ReloadEnv}
    (hfiles : files.Documented parsers) : (reload opt s i app w files env).WellFormed parsers := by
  unfold Control.reload
  split
  · exact wellFormed_of_ended rfl
  · rename_i manifest hopen
    split
    · rename_i old app' w' hreplace
      intro app'' w'' hrunning
      obtain ⟨rfl, -⟩ := Loop.running.inj (show Loop.running app' w' = .running app'' w'' from hrunning)
      rw [(replaceManifest_ok hreplace).manifest_eq]
      exact wellFormed_of_openManifest hfiles hopen
    · exact wellFormed_of_ended rfl
    · exact wellFormed_of_ended rfl

theorem core_of_resume {app app' : App} {env : PollEnv} {reset : ResetEnv} {w w' : Websub.World}
    (h : Process.resume reset w (app.poll env) = .running app' w') : app'.core = app.core := by
  obtain ⟨hcore, -⟩ := poll_keeps app env
  cases hpoll : app.poll env with
  | mk result polled =>
    rw [hpoll] at h hcore
    cases result with
    | none =>
      obtain ⟨rfl, -⟩ := Process.running.inj h
      exact hcore
    | some r =>
      unfold Process.resume at h
      dsimp only at h
      split at h
      · rename_i hreset
        obtain ⟨rfl, -⟩ := Process.running.inj h
        exact (reset_ok hreset).1.trans hcore
      · cases h

theorem WellFormed.resumed {app : App} (h : app.core.manifest.WellFormed parsers) (env : PollEnv) (reset : ResetEnv)
    (w : Websub.World) : ({ s with loop := resumed (.resume reset w (app.poll env)) } : Control).WellFormed parsers := by
  intro app' w' hrunning
  cases hresume : Process.resume reset w (app.poll env) with
  | running polled w'' =>
    rw [hresume] at hrunning
    obtain ⟨rfl, -⟩ := Loop.running.inj hrunning
    rw [core_of_resume hresume]
    exact h
  | exited =>
    rw [hresume] at hrunning
    cases hrunning

theorem WellFormed.shutdown {i : ℕ} {app : App} {reset : ResetEnv} {written : Bool} :
    (shutdown s i app reset written).WellFormed parsers := by
  unfold Control.shutdown
  split
  · exact wellFormed_of_ended rfl
  · exact wellFormed_of_ended rfl
  · exact wellFormed_of_ended rfl

theorem WellFormed.step (h : s.WellFormed parsers) (e : Event) (he : Documented parsers e) :
    (s.step opt parse e).WellFormed parsers := by
  cases e with
  | connect => exact h.of_loop rfl
  | write i bytes =>
    dsimp only [Control.step]
    split
    · split
      · exact h
      · exact h.of_loop rfl
    · exact h
  | close i =>
    dsimp only [Control.step]
    split
    · exact h.of_loop rfl
    · exact h
  | read =>
    dsimp only [Control.step]
    split
    · split
      · unfold Control.read
        split
        · exact h.of_loop rfl
        · split
          · exact h.of_loop rfl
          · exact h.of_loop rfl
      · exact h
    · exact h
  | readError =>
    dsimp only [Control.step]
    split
    · exact h.of_loop rfl
    · exact h
  | respond j written =>
    dsimp only [Control.step]
    split
    · split
      · exact h.of_loop (answered_queue _ _ _ _).2.2.1
      · exact h
    · exact h
  | tables w =>
    dsimp only [Control.step]
    split
    · rename_i app w' hloop
      intro app' w'' hrunning
      obtain ⟨rfl, -⟩ := Loop.running.inj hrunning
      exact h app w' hloop
    · exact h
  | poll env reset =>
    dsimp only [Control.step]
    split
    · rename_i app w hloop
      exact .resumed (h app w hloop) env reset w
    · exact h
  | serve files env reset written =>
    dsimp only [Control.step]
    split
    · exact WellFormed.reload he
    · exact WellFormed.shutdown
    · exact h
  | signal reset =>
    dsimp only [Control.step]
    split
    · exact wellFormed_of_ended rfl
    · exact h
  | exit =>
    dsimp only [Control.step]
    split
    · exact h
    · exact h.of_loop rfl

/-- **Only well-formed manifests are at work.** In every run of `pipitor run` that opens documents, at its start and
when it is asked to reload, whatever they say. -/
theorem wellFormed_reached (opt : Opt) (parse : List UInt8 → Option Json) {files : Files}
    (hfiles : files.Documented parsers) {manifest : Manifest} (hopen : opt.openManifest files = .ok manifest)
    {env : AppEnv} {w w' : Websub.World} {app : App} (hstart : App.withHttpClient manifest env w = (.ok app, w'))
    (bound : Bool) (run : List Event) (hrun : ∀ e ∈ run, Documented parsers e) :
    ∀ s ∈ Runs.states (step opt parse) (start app w' bound) run, s.WellFormed parsers := by
  have hs : (start app w' bound).WellFormed parsers := by
    intro app' w'' hrunning
    obtain ⟨rfl, -⟩ := Loop.running.inj hrunning
    rw [(withHttpClient_asConfigured hstart).2]
    exact wellFormed_of_openManifest hfiles hopen
  refine Runs.always_of_moves (fun s e h he => h.step e he) hs ?_
  exact fun m hm => hrun m.2 (Runs.mem_of_mem_moves hm)

/-! ### A subscriber that is reloaded -/

def websubText : String := "rule=[]\nwebsub.callback=\"https://example.com/callback\""

def websubValue : Value :=
  .map [("rule", .seq []), ("websub", .map [("callback", .str "https://example.com/callback")])]

/-- As much of `toml` as the text needs. -/
def tomlReader : Reader (List UInt8) where
  fmt := ⟨true, true, true⟩
  parse bytes := if bytes = Websub.asBytes websubText then .ok websubValue else .error "expected an equals"
  message _ := "invalid type"

def sampleParsers : Parsers := ⟨fun _ => .error "regex parse error", sampleParse, fun _ => .error "invalid socket address"⟩

def tomlFiles : Files where
  metadata p := if p = "Pipitor.toml" then .ok () else .error .notFound
  read p := if p = "Pipitor.toml" then .ok (Websub.asBytes websubText) else .error .notFound
  json := tomlReader.read sampleParsers
  toml := tomlReader.read sampleParsers
  dhall := none

def tomlManifest : Manifest := ⟨none, [], some ⟨sampleCallback "/callback", none, oneHour⟩, none, false⟩

theorem documented_tomlFiles : tomlFiles.Documented sampleParsers :=
  ⟨⟨tomlReader, rfl⟩, ⟨tomlReader, rfl⟩, fun _ h => by cases h⟩

def tomlRun : List Event :=
  [.connect, .write 0 (Websub.asBytes Ipc.Request.reload.text), .close 0, .read,
    .serve tomlFiles (sampleEnv (.ok ())) calmReset true]

theorem wellFormed_reached_reload : ∃ app w, App.withHttpClient tomlManifest startEnv sampleWorld = (.ok app, w) ∧
    ∀ s ∈ Runs.states (step ⟨none⟩ exchanged) (start app w true) tomlRun, s.WellFormed sampleParsers := by
  have hopen : Opt.openManifest ⟨none⟩ tomlFiles = .ok tomlManifest := by with_unfolding_all rfl
  obtain ⟨app, w, hstart⟩ : ∃ app w, App.withHttpClient tomlManifest startEnv sampleWorld = (.ok app, w) :=
    ⟨_, _, by with_unfolding_all rfl⟩
  have hrun : ∀ e ∈ tomlRun, Documented sampleParsers e := by
    simp [tomlRun, Documented, documented_tomlFiles]
  exact ⟨app, w, hstart, wellFormed_reached ⟨none⟩ exchanged documented_tomlFiles hopen hstart true tomlRun hrun⟩

end App.Control

end Pipitor
