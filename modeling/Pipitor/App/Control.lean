import Pipitor.App.Ipc
import Pipitor.App.Lifecycle
import Pipitor.App.OpenManifest

/-!
# The control socket

`pipitor run` and the programs that connect to its socket, `pipitor ctl` among them. One task reads the
connections one after the other, each to its end, and queues their requests; the loop of `run` takes a request
when it is not busy with the `App`; other tasks write the responses. When the loop ends the runtime goes, with
whatever has not been written.

`ctl_reported` says what `pipitor ctl` may rely on, and `served_in_order` who is served when.
-/

namespace Pipitor.App

open Ipc
open Websub (World asBytes)

/-- A connection: what the program has written, whether it has shut down its side, and what it was answered. -/
structure Connection where
  sent : List UInt8
  closed : Bool
  answer : Option Response

/-- What `pipitor ctl` reads until the connection is closed. -/
def Connection.received (c : Connection) : List UInt8 :=
  match c.answer with
  | some res => asBytes res.text
  | none => []

/-- The loop of `pipitor run`; `ok` says whether it has returned `Ok`. -/
inductive Loop
  | running (app : App) (w : World)
  | ended (ok : Bool)

/-- `reading` is the connection that the task of `ipc::server` reads, while it is `listening`. The tasks are
`alive` until the runtime goes. -/
structure Control where
  connections : List Connection
  reading : ℕ
  listening : Bool
  queue : List (Ipc.Request × ℕ)
  responding : List (Response × ℕ)
  loop : Loop
  alive : Bool

namespace Control

inductive Event
  | connect
  | write (i : ℕ) (bytes : List UInt8)
  | close (i : ℕ)
  /-- The task reads a connection to its end. -/
  | read
  | readError
  /-- The `j`th of the tasks that respond does so. -/
  | respond (j : ℕ) (written : Bool)
  /-- The tasks of the subscriber. -/
  | tables (w : World)
  | poll (env : PollEnv) (reset : ResetEnv)
  | serve (files : Files) (env : ReloadEnv) (reset : ResetEnv) (written : Bool)
  | signal (reset : ResetEnv)
  /-- The runtime is dropped. -/
  | exit

/-- The socket is there, or could not be created. -/
def start (app : App) (w : World) (bound : Bool) : Control := ⟨[], 0, bound, [], [], .running app w, true⟩

/-- `ipc::respond`. -/
def answered (s : Control) (i : ℕ) (res : Response) (written : Bool) : Control :=
  match s.connections[i]? with
  | some c => if written then { s with connections := s.connections.set i { c with answer := some res } } else s
  | none => s

/-- The body of the loop of `ipc::server`, once the connection is read. A request that is recognized when the
loop of `run` is gone ends the task. -/
def read (parse : List UInt8 → Option Json) (s : Control) (c : Connection) : Control :=
  match readRequest parse c.sent with
  | none => { s with reading := s.reading + 1, responding := s.responding ++ [(.unrecognized, s.reading)] }
  | some req => match s.loop with
    | .running _ _ => { s with reading := s.reading + 1, queue := s.queue ++ [(req, s.reading)] }
    | .ended _ => { s with listening := false }

/-- `Request::Reload`. -/
def reload (opt : Opt) (s : Control) (i : ℕ) (app : App) (w : World) (files : Files) (env : ReloadEnv) : Control :=
  match opt.openManifest files with
  | .error _ => { s with loop := .ended false, responding := s.responding ++ [(.failedToReload, i)] }
  | .ok manifest => match app.replaceManifest manifest env w with
    | (.ok _, app, w) => { s with loop := .running app w, responding := s.responding ++ [(.default, i)] }
    | (.err _ _, _, _) => { s with loop := .ended false, responding := s.responding ++ [(.failedToReload, i)] }
    | (_, _, _) => { s with loop := .ended false }

/-- `Request::Shutdown`. The response is awaited. -/
def shutdown (s : Control) (i : ℕ) (app : App) (reset : ResetEnv) (written : Bool) : Control :=
  match (app.shutdown reset).1 with
  | .ok () => { s.answered i .default written with loop := .ended true }
  | .error (.error _) => { s.answered i .failedToShutDown written with loop := .ended false }
  | .error _ => { s with loop := .ended false }

/-- What comes of a poll of the `App`. -/
def resumed : Process → Loop
  | .running app w => .running app w
  | .exited => .ended false

def step (opt : Opt) (parse : List UInt8 → Option Json) (s : Control) : Event → Control
  | .connect => { s with connections := s.connections ++ [⟨[], false, none⟩] }
  | .write i bytes => match s.connections[i]? with
    | some c => if c.closed then s else
      { s with connections := s.connections.set i { c with sent := c.sent ++ bytes } }
    | none => s
  | .close i => match s.connections[i]? with
    | some c => { s with connections := s.connections.set i { c with closed := true } }
    | none => s
  | .read => match s.connections[s.reading]? with
    | some c => if s.alive ∧ s.listening ∧ c.closed then s.read parse c else s
    | none => s
  | .readError =>
    if s.alive ∧ s.listening ∧ s.reading < s.connections.length then { s with reading := s.reading + 1 } else s
  | .respond j written => match s.responding[j]? with
    | some (res, i) =>
      if s.alive then { s.answered i res written with responding := s.responding.eraseIdx j } else s
    | none => s
  | .tables w => match s.loop with
    | .running app _ => { s with loop := .running app w }
    | .ended _ => s
  | .poll env reset => match s.loop with
    | .running app w => { s with loop := resumed (.resume reset w (app.poll env)) }
    | .ended _ => s
  | .serve files env reset written => match s.loop, s.queue with
    | .running app w, (.reload, i) :: queue => reload opt { s with queue } i app w files env
    | .running app _, (.shutdown, i) :: queue => shutdown { s with queue } i app reset written
    | _, _ => s
  | .signal reset => match s.loop with
    | .running app _ => { s with loop := .ended (app.shutdown reset).1.isOk }
    | .ended _ => s
  | .exit => match s.loop with
    | .running _ _ => s
    | .ended _ => { s with alive := false }

/-- The connection whose request the step serves. -/
def servedBy : Control × Event → Option ℕ
  | (s, .serve ..) => match s.loop, s.queue with
    | .running _ _, (_, i) :: _ => some i
    | _, _ => none
  | _ => none

/-- The connections whose requests have been served, in order. -/
def served (ms : List (Control × Event)) : List ℕ := ms.filterMap servedBy

/-! ### What a response means -/

/-- The step serves the request of the connection `i`: the manifest is opened and replaced. -/
inductive Reloads (opt : Opt) (i : ℕ) : Control × Event → Prop
  | serve {s : Control} {files : Files} {env : ReloadEnv} {reset : ResetEnv} {written : Bool}
      {queue : List (Ipc.Request × ℕ)} {app app' : App} {w w' : World} {manifest old : Manifest}
      (loop : s.loop = .running app w) (queue_eq : s.queue = (.reload, i) :: queue)
      (opened : opt.openManifest files = .ok manifest)
      (replaced : app.replaceManifest manifest env w = (.ok old, app', w')) :
      Reloads opt i (s, .serve files env reset written)

/-- Why the connection `i`, on which `sent` has been written, is answered so. -/
inductive Explains (opt : Opt) (parse : List UInt8 → Option Json) (ms : List (Control × Event)) (loop : Loop) (i : ℕ)
    (sent : List UInt8) : Response → Prop
  | unrecognized (request : readRequest parse sent = none) : Explains opt parse ms loop i sent .unrecognized
  | reloaded (request : readRequest parse sent = some .reload) (reloads : ∃ m ∈ ms, Reloads opt i m) :
      Explains opt parse ms loop i sent .default
  | failedToReload (request : readRequest parse sent = some .reload) (ended : loop = .ended false) :
      Explains opt parse ms loop i sent .failedToReload
  | shutDown (request : readRequest parse sent = some .shutdown) (ended : loop = .ended true) :
      Explains opt parse ms loop i sent .default
  | failedToShutDown (request : readRequest parse sent = some .shutdown) (ended : loop = .ended false) :
      Explains opt parse ms loop i sent .failedToShutDown

/-- The connection has been closed by the program that made it. -/
def Closed (s : Control) (i : ℕ) (c : Connection) : Prop := s.connections[i]? = some c ∧ c.closed = true

/-- The task fails to read the connection `i` to its end. -/
def Fails (i : ℕ) (m : Control × Event) : Prop :=
  m.2 = .readError ∧ m.1.alive = true ∧ m.1.listening = true ∧ m.1.reading = i ∧ i < m.1.connections.length

/-- `req` is what has been written on the connection `i`. -/
def Requested (parse : List UInt8 → Option Json) (s : Control) (req : Ipc.Request) (i : ℕ) : Prop :=
  ∃ c, s.Closed i c ∧ readRequest parse c.sent = some req

def Explained (opt : Opt) (parse : List UInt8 → Option Json) (s : Control) (ms : List (Control × Event))
    (res : Response) (i : ℕ) : Prop :=
  ∃ c, s.Closed i c ∧ Explains opt parse ms s.loop i c.sent res

/-- What is under way and what has been answered is explained. -/
structure Sound (opt : Opt) (parse : List UInt8 → Option Json) (s : Control) (ms : List (Control × Event)) : Prop where
  queue : ∀ req i, (req, i) ∈ s.queue → s.Requested parse req i
  responding : ∀ res i, (res, i) ∈ s.responding → s.Explained opt parse ms res i
  answered : ∀ (i : ℕ) (c : Connection), s.connections[i]? = some c → ∀ res, c.answer = some res →
    s.Explained opt parse ms res i

/-- Connections that are closed stay as they are but for the answer, and the end is the end. -/
structure Keeps (s s' : Control) : Prop where
  closed : ∀ i c, s.Closed i c → ∃ c', s'.Closed i c' ∧ c'.sent = c.sent
  ended : ∀ ok, s.loop = .ended ok → s'.loop = .ended ok

/-- What a step that serves nobody does. -/
inductive Change (parse : List UInt8 → Option Json) (s : Control) (e : Event) : Control → Prop
  | idle : Change parse s e s
  | connected : Change parse s e { s with connections := s.connections ++ [⟨[], false, none⟩] }
  | changed {i : ℕ} {c c' : Connection} (found : s.connections[i]? = some c) (answer : c'.answer = c.answer)
      (kept : c.closed = true → c'.closed = true ∧ c'.sent = c.sent) :
      Change parse s e { s with connections := s.connections.set i c' }
  | unrecognized {c : Connection} (closed : s.Closed s.reading c) (request : readRequest parse c.sent = none) :
      Change parse s e
        { s with reading := s.reading + 1, responding := s.responding ++ [(.unrecognized, s.reading)] }
  | queued {c : Connection} {req : Ipc.Request} (closed : s.Closed s.reading c)
      (request : readRequest parse c.sent = some req) :
      Change parse s e { s with reading := s.reading + 1, queue := s.queue ++ [(req, s.reading)] }
  | deaf : Change parse s e { s with listening := false }
  | failed (fails : Fails s.reading (s, e)) : Change parse s e { s with reading := s.reading + 1 }
  | responded {j i : ℕ} {res : Response} (found : s.responding[j]? = some (res, i)) (written : Bool) :
      Change parse s e { s.answered i res written with responding := s.responding.eraseIdx j }
  | looped {app : App} {w : World} (running : s.loop = .running app w) (loop : Loop) :
      Change parse s e { s with loop }
  | exited : Change parse s e { s with alive := false }

/-- What a step does that serves the connection `i`. -/
inductive Service (opt : Opt) (parse : List UInt8 → Option Json) (s : Control) (e : Event) (i : ℕ) :
    Ipc.Request → List (Ipc.Request × ℕ) → Control → Prop
  | silent {req : Ipc.Request} {queue : List (Ipc.Request × ℕ)} (loop : Loop) :
      Service opt parse s e i req queue { s with queue, loop }
  | spawned {req : Ipc.Request} {queue : List (Ipc.Request × ℕ)} {loop : Loop} {res : Response}
      (explains : ∀ ms sent, readRequest parse sent = some req → Explains opt parse (ms ++ [(s, e)]) loop i sent res) :
      Service opt parse s e i req queue { s with queue, loop, responding := s.responding ++ [(res, i)] }
  | awaited {req : Ipc.Request} {queue : List (Ipc.Request × ℕ)} {loop : Loop} {res : Response} (written : Bool)
      (explains : ∀ ms sent, readRequest parse sent = some req → Explains opt parse (ms ++ [(s, e)]) loop i sent res) :
      Service opt parse s e i req queue { { s with queue }.answered i res written with loop }

section Responses

variable {opt : Opt} {parse : List UInt8 → Option Json} {s s' : Control} {ms : List (Control × Event)}
  {m : Control × Event} {i : ℕ} {c : Connection} {res : Response} {sent : List UInt8}

theorem Explains.append {loop : Loop} (h : Explains opt parse ms loop i sent res) (m : Control × Event)
    {loop' : Loop} (hloop : ∀ ok, loop = .ended ok → loop' = .ended ok) :
    Explains opt parse (ms ++ [m]) loop' i sent res := by
  cases h with
  | unrecognized request => exact .unrecognized request
  | reloaded request reloads =>
    obtain ⟨m', hm', hreloads⟩ := reloads
    exact .reloaded request ⟨m', List.mem_append_left _ hm', hreloads⟩
  | failedToReload request ended => exact .failedToReload request (hloop _ ended)
  | shutDown request ended => exact .shutDown request (hloop _ ended)
  | failedToShutDown request ended => exact .failedToShutDown request (hloop _ ended)

theorem getElem?_set_eq_some {connections : List Connection} {j : ℕ} {c₁ c₂ : Connection}
    (h : (connections.set i c₁)[j]? = some c₂) : (i = j ∧ c₂ = c₁) ∨ (i ≠ j ∧ connections[j]? = some c₂) := by
  by_cases heq : i = j
  · subst heq
    obtain ⟨hlt, hget⟩ := List.getElem?_eq_some_iff.mp h
    rw [List.getElem_set_self] at hget
    exact .inl ⟨rfl, hget.symm⟩
  · rw [List.getElem?_set_ne heq] at h
    exact .inr ⟨heq, h⟩

theorem step_change (opt : Opt) (parse : List UInt8 → Option Json) (s : Control) (e : Event)
    (h : servedBy (s, e) = none) : Change parse s e (s.step opt parse e) := by
  cases e with
  | connect => exact .connected
  | write i bytes =>
    dsimp only [step]
    split
    · rename_i c hc
      split
      · exact .idle
      · rename_i hopen
        exact .changed hc rfl fun hclosed => absurd hclosed hopen
    · exact .idle
  | close i =>
    dsimp only [step]
    split
    · rename_i c hc
      exact .changed hc rfl fun _ => ⟨rfl, rfl⟩
    · exact .idle
  | read =>
    dsimp only [step]
    split
    · rename_i c hc
      split
      · rename_i hready
        unfold read
        split
        · rename_i hnone
          exact .unrecognized ⟨hc, hready.2.2⟩ hnone
        · rename_i req hsome
          split
          · exact .queued ⟨hc, hready.2.2⟩ hsome
          · exact .deaf
      · exact .idle
    · exact .idle
  | readError =>
    dsimp only [step]
    split
    · rename_i hready
      exact .failed ⟨rfl, hready.1, hready.2.1, rfl, hready.2.2⟩
    · exact .idle
  | respond j written =>
    dsimp only [step]
    split
    · rename_i res i hfound
      split
      · exact .responded hfound written
      · exact .idle
    · exact .idle
  | tables w =>
    dsimp only [step]
    split
    · rename_i app w' hloop
      exact .looped hloop _
    · exact .idle
  | poll env reset =>
    dsimp only [step]
    split
    · rename_i app w hloop
      exact .looped hloop _
    · exact .idle
  | serve files env reset written =>
    dsimp only [step]
    dsimp only [servedBy] at h
    split
    · rename_i hloop hqueue
      rw [hloop, hqueue] at h
      cases h
    · rename_i hloop hqueue
      rw [hloop, hqueue] at h
      cases h
    · exact .idle
  | signal reset =>
    dsimp only [step]
    split
    · rename_i app w hloop
      exact .looped hloop _
    · exact .idle
  | exit =>
    dsimp only [step]
    split
    · exact .idle
    · exact .exited

theorem service_reload {opt : Opt} {queue : List (Ipc.Request × ℕ)} {app : App} {w : World} (hloop : s.loop = .running app w)
    (hqueue : s.queue = (.reload, i) :: queue) (files : Files) (env : ReloadEnv) (reset : ResetEnv) (written : Bool) :
    Service opt parse s (.serve files env reset written) i .reload queue
      (reload opt { s with queue } i app w files env) := by
  unfold reload
  split
  · exact .spawned fun _ _ request => .failedToReload request rfl
  · rename_i manifest hopen
    split
    · rename_i old app' w' hreplace
      refine .spawned fun ms _ request => .reloaded request ?_
      exact ⟨_, List.mem_append_right _ (List.mem_singleton_self _), .serve hloop hqueue hopen hreplace⟩
    · exact .spawned fun _ _ request => .failedToReload request rfl
    · exact .silent _

theorem service_shutdown {opt : Opt} {queue : List (Ipc.Request × ℕ)} (e : Event) (app : App) (reset : ResetEnv)
    (written : Bool) :
    Service opt parse s e i .shutdown queue (shutdown { s with queue } i app reset written) := by
  unfold shutdown
  split
  · exact .awaited written fun _ _ request => .shutDown request rfl
  · exact .awaited written fun _ _ request => .failedToShutDown request rfl
  · exact .silent _

theorem servedBy_serve {req : Ipc.Request} {queue : List (Ipc.Request × ℕ)} {app : App} {w : World}
    (hloop : s.loop = .running app w) (hqueue : s.queue = (req, i) :: queue) (files : Files) (env : ReloadEnv)
    (reset : ResetEnv) (written : Bool) : servedBy (s, .serve files env reset written) = some i := by
  dsimp only [servedBy]
  rw [hloop, hqueue]

theorem step_served (opt : Opt) (parse : List UInt8 → Option Json) {s : Control} {e : Event} {i : ℕ}
    (h : servedBy (s, e) = some i) :
    ∃ req queue, s.queue = (req, i) :: queue ∧ (∃ app w, s.loop = .running app w) ∧
      Service opt parse s e i req queue (s.step opt parse e) := by
  cases e with
  | serve files env reset written =>
    dsimp only [step]
    split
    · rename_i app w j queue hloop hqueue
      obtain rfl : j = i := Option.some.inj ((servedBy_serve hloop hqueue files env reset written).symm.trans h)
      exact ⟨_, queue, hqueue, ⟨app, w, hloop⟩, service_reload hloop hqueue files env reset written⟩
    · rename_i app w j queue hloop hqueue
      obtain rfl : j = i := Option.some.inj ((servedBy_serve hloop hqueue files env reset written).symm.trans h)
      exact ⟨_, queue, hqueue, ⟨app, w, hloop⟩, service_shutdown _ app reset written⟩
    · rename_i hreload hshutdown
      dsimp only [servedBy] at h
      split at h
      · rename_i app w req j queue hloop hqueue
        cases req with
        | reload => exact (hreload app w j queue hloop hqueue).elim
        | shutdown => exact (hshutdown app w j queue hloop hqueue).elim
      · cases h
  | connect => cases h
  | write => cases h
  | close => cases h
  | read => cases h
  | readError => cases h
  | respond => cases h
  | tables => cases h
  | poll => cases h
  | signal => cases h
  | exit => cases h

theorem Requested.of_keeps {req : Ipc.Request} (h : s.Requested parse req i) (hkeeps : Keeps s s') :
    s'.Requested parse req i := by
  obtain ⟨c, hc, hreq⟩ := h
  obtain ⟨c', hc', hsent⟩ := hkeeps.closed i c hc
  exact ⟨c', hc', hsent ▸ hreq⟩

theorem Explained.of_keeps (h : s.Explained opt parse ms res i) (hkeeps : Keeps s s') (m : Control × Event) :
    s'.Explained opt parse (ms ++ [m]) res i := by
  obtain ⟨c, hc, hexplains⟩ := h
  obtain ⟨c', hc', hsent⟩ := hkeeps.closed i c hc
  exact ⟨c', hc', hsent ▸ hexplains.append m hkeeps.ended⟩

theorem Sound.of_keeps (h : Sound opt parse s ms) (hkeeps : Keeps s s')
    (hqueue : ∀ req i, (req, i) ∈ s'.queue → (req, i) ∈ s.queue ∨ s'.Requested parse req i)
    (hresponding : ∀ res i, (res, i) ∈ s'.responding →
      (res, i) ∈ s.responding ∨ s'.Explained opt parse (ms ++ [m]) res i)
    (hanswered : ∀ (i : ℕ) (c' : Connection), s'.connections[i]? = some c' → ∀ res, c'.answer = some res →
      (∃ c : Connection, s.connections[i]? = some c ∧ c.answer = some res) ∨
        s'.Explained opt parse (ms ++ [m]) res i) :
    Sound opt parse s' (ms ++ [m]) where
  queue req i hmem := by
    rcases hqueue req i hmem with hold | hnew
    · exact (h.queue req i hold).of_keeps hkeeps
    · exact hnew
  responding res i hmem := by
    rcases hresponding res i hmem with hold | hnew
    · exact (h.responding res i hold).of_keeps hkeeps m
    · exact hnew
  answered i c' hc' res hres := by
    rcases hanswered i c' hc' res hres with ⟨c, hc, hold⟩ | hnew
    · exact (h.answered i c hc res hold).of_keeps hkeeps m
    · exact hnew

theorem Keeps.refl (s : Control) : Keeps s s := ⟨fun _ c hc => ⟨c, hc, rfl⟩, fun _ => id⟩

theorem Keeps.of_connections (hconnections : s'.connections = s.connections)
    (hended : ∀ ok, s.loop = .ended ok → s'.loop = .ended ok) : Keeps s s' where
  closed _ c hc := ⟨c, ⟨hconnections ▸ hc.1, hc.2⟩, rfl⟩
  ended := hended

theorem keeps_set (hc : s.connections[i]? = some c) {c' : Connection}
    (hsame : c.closed = true → c'.closed = true ∧ c'.sent = c.sent) :
    Keeps s { s with connections := s.connections.set i c' } where
  closed j d hd := by
    obtain ⟨hget, hclosed⟩ := hd
    by_cases heq : i = j
    · subst heq
      obtain rfl : c = d := Option.some.inj (hc.symm.trans hget)
      obtain ⟨hclosed', hsent⟩ := hsame hclosed
      have hlt := (List.getElem?_eq_some_iff.mp hc).1
      exact ⟨c', ⟨List.getElem?_set_self hlt, hclosed'⟩, hsent⟩
    · exact ⟨d, ⟨(List.getElem?_set_ne heq).trans hget, hclosed⟩, rfl⟩
  ended _ := id

theorem keeps_answered (s : Control) (i : ℕ) (res : Response) (written : Bool) : Keeps s (s.answered i res written) := by
  unfold answered
  split
  · rename_i c hc
    split
    · exact keeps_set hc fun hclosed => ⟨hclosed, rfl⟩
    · exact Keeps.refl s
  · exact Keeps.refl s

theorem answered_queue (s : Control) (i : ℕ) (res : Response) (written : Bool) :
    (s.answered i res written).queue = s.queue ∧ (s.answered i res written).responding = s.responding ∧
      (s.answered i res written).loop = s.loop ∧ (s.answered i res written).reading = s.reading := by
  unfold answered
  split
  · split
    · exact ⟨rfl, rfl, rfl, rfl⟩
    · exact ⟨rfl, rfl, rfl, rfl⟩
  · exact ⟨rfl, rfl, rfl, rfl⟩

theorem answer_of_answered {written : Bool} {j : ℕ} {c' : Connection}
    (hc' : (s.answered i res written).connections[j]? = some c') {res' : Response} (hres' : c'.answer = some res') :
    (∃ c, s.connections[j]? = some c ∧ c.answer = some res') ∨ j = i ∧ res' = res := by
  unfold answered at hc'
  split at hc'
  · rename_i c hc
    split at hc'
    · rcases getElem?_set_eq_some hc' with ⟨rfl, rfl⟩ | ⟨-, hold⟩
      · exact .inr ⟨rfl, (Option.some.inj hres').symm⟩
      · exact .inl ⟨c', hold, hres'⟩
    · exact .inl ⟨c', hc', hres'⟩
  · exact .inl ⟨c', hc', hres'⟩

theorem Change.keeps {e : Event} (h : Change parse s e s') : Keeps s s' := by
  cases h with
  | idle => exact Keeps.refl s
  | connected =>
    refine ⟨fun i c hc => ⟨c, ⟨?_, hc.2⟩, rfl⟩, fun _ => id⟩
    exact (List.getElem?_append_left (List.getElem?_eq_some_iff.mp hc.1).1).trans hc.1
  | changed found answer kept => exact keeps_set found kept
  | unrecognized => exact Keeps.of_connections rfl fun _ => id
  | queued => exact Keeps.of_connections rfl fun _ => id
  | deaf => exact Keeps.of_connections rfl fun _ => id
  | failed => exact Keeps.of_connections rfl fun _ => id
  | @responded j i res found written =>
    have hloop := (answered_queue s i res written).2.2.1
    exact ⟨(keeps_answered s i res written).closed, fun ok hended => hloop.trans hended⟩
  | looped running loop =>
    refine Keeps.of_connections rfl fun ok hended => ?_
    rw [running] at hended
    cases hended
  | exited => exact Keeps.of_connections rfl fun _ => id

/-- What is answered was answered before, or a response was under way. -/
theorem Change.answer {e : Event} (h : Change parse s e s') {j : ℕ} {c' : Connection}
    (hc' : s'.connections[j]? = some c') (hres : c'.answer = some res) :
    (∃ c : Connection, s.connections[j]? = some c ∧ c.answer = some res) ∨ (res, j) ∈ s.responding := by
  cases h with
  | idle => exact .inl ⟨c', hc', hres⟩
  | connected =>
    by_cases hlt : j < s.connections.length
    · exact .inl ⟨c', (List.getElem?_append_left hlt).symm.trans hc', hres⟩
    · have hnew := (List.getElem?_append_right (Nat.le_of_not_lt hlt)).symm.trans hc'
      obtain rfl := List.mem_singleton.mp (List.mem_of_getElem? hnew)
      cases hres
  | changed found answer kept =>
    rcases getElem?_set_eq_some hc' with ⟨rfl, rfl⟩ | ⟨-, hold⟩
    · exact .inl ⟨_, found, answer ▸ hres⟩
    · exact .inl ⟨c', hold, hres⟩
  | unrecognized => exact .inl ⟨c', hc', hres⟩
  | queued => exact .inl ⟨c', hc', hres⟩
  | deaf => exact .inl ⟨c', hc', hres⟩
  | failed => exact .inl ⟨c', hc', hres⟩
  | responded found written =>
    rcases answer_of_answered hc' hres with hold | ⟨rfl, rfl⟩
    · exact .inl hold
    · exact .inr (List.mem_of_getElem? found)
  | looped => exact .inl ⟨c', hc', hres⟩
  | exited => exact .inl ⟨c', hc', hres⟩

theorem Sound.change (h : Sound opt parse s ms) {e : Event} (hchange : Change parse s e s') :
    Sound opt parse s' (ms ++ [(s, e)]) := by
  have hkeeps := hchange.keeps
  have hsame : ∀ req i, (req, i) ∈ s.queue → (req, i) ∈ s.queue ∨ s'.Requested parse req i := fun _ _ => .inl
  have hsame' : ∀ res i, (res, i) ∈ s.responding →
      (res, i) ∈ s.responding ∨ s'.Explained opt parse (ms ++ [(s, e)]) res i := fun _ _ => .inl
  have hanswered : ∀ (i : ℕ) (c' : Connection), s'.connections[i]? = some c' → ∀ res, c'.answer = some res →
      (∃ c : Connection, s.connections[i]? = some c ∧ c.answer = some res) ∨
        s'.Explained opt parse (ms ++ [(s, e)]) res i := by
    intro i c' hc' res hres
    rcases hchange.answer hc' hres with hold | hmem
    · exact .inl hold
    · exact .inr ((h.responding res i hmem).of_keeps hkeeps _)
  cases hchange with
  | idle => exact h.of_keeps hkeeps hsame hsame' hanswered
  | connected => exact h.of_keeps hkeeps hsame hsame' hanswered
  | changed => exact h.of_keeps hkeeps hsame hsame' hanswered
  | @unrecognized c closed request =>
    refine h.of_keeps hkeeps hsame ?_ hanswered
    intro res i hmem
    rcases List.mem_append.mp hmem with hold | hnew
    · exact .inl hold
    · obtain ⟨rfl, rfl⟩ := Prod.mk.inj (List.mem_singleton.mp hnew)
      exact .inr ⟨c, closed, .unrecognized request⟩
  | @queued c req closed request =>
    refine h.of_keeps hkeeps ?_ hsame' hanswered
    intro req' i hmem
    rcases List.mem_append.mp hmem with hold | hnew
    · exact .inl hold
    · obtain ⟨rfl, rfl⟩ := Prod.mk.inj (List.mem_singleton.mp hnew)
      exact .inr ⟨c, closed, request⟩
  | deaf => exact h.of_keeps hkeeps hsame hsame' hanswered
  | failed => exact h.of_keeps hkeeps hsame hsame' hanswered
  | @responded j i res found written =>
    have hqueue := (answered_queue s i res written).1
    refine h.of_keeps hkeeps (fun req i hmem => .inl (hqueue ▸ hmem)) (fun res i hmem => .inl ?_) hanswered
    exact List.mem_of_mem_eraseIdx hmem
  | looped => exact h.of_keeps hkeeps hsame hsame' hanswered
  | exited => exact h.of_keeps hkeeps hsame hsame' hanswered

theorem Service.keeps {e : Event} {req : Ipc.Request} {queue : List (Ipc.Request × ℕ)}
    (h : Service opt parse s e i req queue s') (hrunning : ∃ app w, s.loop = .running app w) : Keeps s s' := by
  have hended : ∀ ok, s.loop = .ended ok → s'.loop = .ended ok := by
    intro ok hended
    obtain ⟨app, w, hloop⟩ := hrunning
    rw [hloop] at hended
    cases hended
  cases h with
  | silent => exact Keeps.of_connections rfl hended
  | spawned => exact Keeps.of_connections rfl hended
  | awaited written explains => exact ⟨(keeps_answered { s with queue } i _ written).closed, hended⟩

theorem Sound.service (h : Sound opt parse s ms) {e : Event} {req : Ipc.Request} {queue : List (Ipc.Request × ℕ)}
    (hqueue : s.queue = (req, i) :: queue) (hrunning : ∃ app w, s.loop = .running app w)
    (hservice : Service opt parse s e i req queue s') : Sound opt parse s' (ms ++ [(s, e)]) := by
  have hkeeps := hservice.keeps hrunning
  obtain ⟨c, hclosed, hrequest⟩ := (h.queue req i (hqueue ▸ List.mem_cons_self)).of_keeps hkeeps
  have hrest : ∀ req' j, (req', j) ∈ queue → (req', j) ∈ s.queue ∨ s'.Requested parse req' j :=
    fun _ _ hmem => .inl (hqueue ▸ List.mem_cons_of_mem _ hmem)
  cases hservice with
  | silent => exact h.of_keeps hkeeps hrest (fun _ _ => .inl) fun _ c' hc' _ hres => .inl ⟨c', hc', hres⟩
  | @spawned loop res explains =>
    refine h.of_keeps hkeeps hrest ?_ fun _ c' hc' _ hres => .inl ⟨c', hc', hres⟩
    intro res' j hmem
    rcases List.mem_append.mp hmem with hold | hnew
    · exact .inl hold
    · obtain ⟨rfl, rfl⟩ := Prod.mk.inj (List.mem_singleton.mp hnew)
      exact .inr ⟨c, hclosed, explains ms c.sent hrequest⟩
  | @awaited loop res written explains =>
    obtain ⟨hqueue', hresponding, -⟩ := answered_queue { s with queue } i res written
    refine h.of_keeps hkeeps (fun req' j hmem => hrest req' j (hqueue' ▸ hmem :))
      (fun _ _ hmem => .inl (hresponding ▸ hmem :)) ?_
    intro j c' hc' res' hres
    rcases answer_of_answered hc' hres with hold | ⟨rfl, rfl⟩
    · exact .inl hold
    · exact .inr ⟨c, hclosed, explains ms c.sent hrequest⟩

theorem Sound.step (h : Sound opt parse s ms) (e : Event) : Sound opt parse (s.step opt parse e) (ms ++ [(s, e)]) := by
  cases hserved : servedBy (s, e) with
  | none => exact h.change (step_change opt parse s e hserved)
  | some i =>
    obtain ⟨req, queue, hqueue, hrunning, hservice⟩ := step_served opt parse hserved
    exact h.service hqueue hrunning hservice

/-! ### Who is served when -/

/-- The task has come past the connection `i`. -/
def Passed (s : Control) (ms : List (Control × Event)) (i : ℕ) : Prop := (∃ c, s.Closed i c) ∨ ∃ m ∈ ms, Fails i m

structure Orderly (s : Control) (ms : List (Control × Event)) : Prop where
  increasing : (served ms ++ s.queue.map (·.2)).Pairwise (· < ·)
  queued : ∀ i ∈ served ms ++ s.queue.map (·.2), i < s.reading
  responding : ∀ res i, (res, i) ∈ s.responding → i < s.reading
  answered : ∀ (i : ℕ) (c : Connection), s.connections[i]? = some c → c.answer.isSome → i < s.reading
  passed : ∀ i < s.reading, s.Passed ms i

theorem Passed.append (h : s.Passed ms i) (m : Control × Event) (hkeeps : Keeps s s') : s'.Passed (ms ++ [m]) i := by
  rcases h with ⟨c, hc⟩ | ⟨m', hm', hfails⟩
  · obtain ⟨c', hc', -⟩ := hkeeps.closed i c hc
    exact .inl ⟨c', hc'⟩
  · exact .inr ⟨m', List.mem_append_left _ hm', hfails⟩

theorem served_append_none (h : servedBy m = none) : served (ms ++ [m]) = served ms := by
  unfold served
  rw [List.filterMap_append, List.filterMap_cons_none h, List.filterMap_nil, List.append_nil]

theorem served_append_some (h : servedBy m = some i) : served (ms ++ [m]) = served ms ++ [i] := by
  unfold served
  rw [List.filterMap_append, List.filterMap_cons_some h, List.filterMap_nil]

theorem Orderly.of_keeps (h : Orderly s ms) (hkeeps : Keeps s s')
    (hserved : served (ms ++ [m]) ++ s'.queue.map (·.2) = served ms ++ s.queue.map (·.2))
    (hreading : s'.reading = s.reading)
    (hresponding : ∀ res i, (res, i) ∈ s'.responding → i < s.reading)
    (hanswered : ∀ (i : ℕ) (c : Connection), s'.connections[i]? = some c → c.answer.isSome → i < s.reading) :
    Orderly s' (ms ++ [m]) where
  increasing := hserved ▸ h.increasing
  queued := by
    rw [hserved, hreading]
    exact h.queued
  responding := by
    rw [hreading]
    exact hresponding
  answered := by
    rw [hreading]
    exact hanswered
  passed i hi := (h.passed i (hreading ▸ hi)).append m hkeeps

theorem Orderly.pass (h : Orderly s ms) (hkeeps : Keeps s s') (hpassed : s'.Passed (ms ++ [m]) s.reading)
    (hconnections : s'.connections = s.connections) (hreading : s'.reading = s.reading + 1) (extra : List ℕ)
    (hserved : served (ms ++ [m]) ++ s'.queue.map (·.2) = served ms ++ s.queue.map (·.2) ++ extra)
    (hextra : extra.Sublist [s.reading])
    (hresponding : ∀ res i, (res, i) ∈ s'.responding → i < s.reading + 1) : Orderly s' (ms ++ [m]) where
  increasing := by
    rw [hserved, List.pairwise_append]
    refine ⟨h.increasing, List.Pairwise.sublist hextra (List.pairwise_singleton _ _), ?_⟩
    intro i hi j hj
    rw [List.mem_singleton.mp (hextra.subset hj)]
    exact h.queued i hi
  queued := by
    rw [hserved, hreading]
    intro i hi
    rcases List.mem_append.mp hi with hi | hi
    · exact Nat.lt_succ_of_lt (h.queued i hi)
    · rw [List.mem_singleton.mp (hextra.subset hi)]
      exact Nat.lt_succ_self _
  responding := by
    rw [hreading]
    exact hresponding
  answered := by
    rw [hconnections, hreading]
    exact fun i c hc hres => Nat.lt_succ_of_lt (h.answered i c hc hres)
  passed i hi := by
    rw [hreading] at hi
    rcases Nat.lt_succ_iff_lt_or_eq.mp hi with hi | rfl
    · exact (h.passed i hi).append m hkeeps
    · exact hpassed

theorem Orderly.change (h : Orderly s ms) {e : Event} (hserved : servedBy (s, e) = none)
    (hchange : Change parse s e s') : Orderly s' (ms ++ [(s, e)]) := by
  have hkeeps := hchange.keeps
  have hsame : served (ms ++ [(s, e)]) = served ms := served_append_none hserved
  have hqueue : served (ms ++ [(s, e)]) ++ s.queue.map (·.2) = served ms ++ s.queue.map (·.2) := by rw [hsame]
  have hanswered : ∀ (i : ℕ) (c : Connection), s'.connections[i]? = some c → c.answer.isSome → i < s.reading := by
    intro i c' hc' hres
    obtain ⟨res, hres⟩ := Option.isSome_iff_exists.mp hres
    rcases hchange.answer hc' hres with ⟨c, hc, hold⟩ | hmem
    · exact h.answered i c hc (Option.isSome_iff_exists.mpr ⟨res, hold⟩)
    · exact h.responding res i hmem
  cases hchange with
  | idle => exact h.of_keeps hkeeps hqueue rfl h.responding hanswered
  | connected => exact h.of_keeps hkeeps hqueue rfl h.responding hanswered
  | changed => exact h.of_keeps hkeeps hqueue rfl h.responding hanswered
  | @unrecognized c closed request =>
    refine h.pass hkeeps (.inl ⟨c, closed⟩) rfl rfl [] ?_ (List.nil_sublist _) ?_
    · rw [hqueue, List.append_nil]
    · intro res i hmem
      rcases List.mem_append.mp hmem with hold | hnew
      · exact Nat.lt_succ_of_lt (h.responding res i hold)
      · obtain ⟨-, rfl⟩ := Prod.mk.inj (List.mem_singleton.mp hnew)
        exact Nat.lt_succ_self _
  | @queued c req closed request =>
    refine h.pass hkeeps (.inl ⟨c, closed⟩) rfl rfl [s.reading] ?_ (List.Sublist.refl _) ?_
    · rw [hsame, List.map_append, List.append_assoc]
      rfl
    · exact fun res i hmem => Nat.lt_succ_of_lt (h.responding res i hmem)
  | deaf => exact h.of_keeps hkeeps hqueue rfl h.responding hanswered
  | failed fails =>
    refine h.pass hkeeps (.inr ⟨_, List.mem_append_right _ (List.mem_singleton_self _), fails⟩) rfl rfl [] ?_ (List.nil_sublist _) ?_
    · rw [hqueue, List.append_nil]
    · exact fun res i hmem => Nat.lt_succ_of_lt (h.responding res i hmem)
  | @responded j i res found written =>
    obtain ⟨hqueue', -, -, hreading⟩ := answered_queue s i res written
    refine h.of_keeps hkeeps ?_ hreading (fun res i hmem => h.responding res i (List.mem_of_mem_eraseIdx hmem)) hanswered
    rw [← hqueue]
    exact congrArg (fun queue => served (ms ++ [(s, e)]) ++ queue.map (·.2)) hqueue'
  | looped => exact h.of_keeps hkeeps hqueue rfl h.responding hanswered
  | exited => exact h.of_keeps hkeeps hqueue rfl h.responding hanswered

theorem Orderly.service (h : Orderly s ms) {e : Event} (hserved : servedBy (s, e) = some i) {req : Ipc.Request}
    {queue : List (Ipc.Request × ℕ)} (hqueue : s.queue = (req, i) :: queue)
    (hrunning : ∃ app w, s.loop = .running app w) (hservice : Service opt parse s e i req queue s') :
    Orderly s' (ms ++ [(s, e)]) := by
  have hkeeps := hservice.keeps hrunning
  have hi : i < s.reading := by
    refine h.queued i (List.mem_append_right _ ?_)
    rw [hqueue]
    exact List.mem_cons_self
  have hmoved : served (ms ++ [(s, e)]) ++ queue.map (·.2) = served ms ++ s.queue.map (·.2) := by
    rw [served_append_some hserved, hqueue, List.append_assoc]
    rfl
  cases hservice with
  | silent => exact h.of_keeps hkeeps hmoved rfl h.responding h.answered
  | @spawned loop res explains =>
    refine h.of_keeps hkeeps hmoved rfl ?_ h.answered
    intro res' j hmem
    rcases List.mem_append.mp hmem with hold | hnew
    · exact h.responding res' j hold
    · obtain ⟨-, rfl⟩ := Prod.mk.inj (List.mem_singleton.mp hnew)
      exact hi
  | @awaited loop res written explains =>
    obtain ⟨hqueue', hresponding, -, hreading⟩ := answered_queue { s with queue } i res written
    refine h.of_keeps hkeeps ?_ hreading (fun res' j hmem => h.responding res' j (hresponding ▸ hmem :)) ?_
    · rw [← hmoved]
      exact congrArg (fun queue => served (ms ++ [(s, e)]) ++ queue.map (·.2)) hqueue'
    · intro j c' hc' hres
      obtain ⟨res', hres⟩ := Option.isSome_iff_exists.mp hres
      rcases answer_of_answered hc' hres with ⟨c, hc, hold⟩ | ⟨rfl, -⟩
      · exact h.answered j c hc (Option.isSome_iff_exists.mpr ⟨res', hold⟩)
      · exact hi

theorem Orderly.step (h : Orderly s ms) (opt : Opt) (parse : List UInt8 → Option Json) (e : Event) :
    Orderly (s.step opt parse e) (ms ++ [(s, e)]) := by
  cases hserved : servedBy (s, e) with
  | none => exact h.change hserved (step_change opt parse s e hserved)
  | some i =>
    obtain ⟨req, queue, hqueue, hrunning, hservice⟩ := step_served opt parse hserved
    exact h.service hserved hqueue hrunning hservice

end Responses

/-! ### What `pipitor ctl` may rely on -/

theorem sound_run (opt : Opt) (parse : List UInt8 → Option Json) (app : App) (w : World) (bound : Bool)
    (run : List Event) :
    Sound opt parse (Runs.final (step opt parse) (start app w bound) run)
      (Runs.moves (step opt parse) (start app w bound) run) := by
  refine Runs.final_moves_induction (P := fun s ms => Sound opt parse s ms) (fun _ _ e h => h.step e) ?_ run
  exact ⟨fun _ _ h => (nomatch h), fun _ _ h => (nomatch h), fun _ _ h => (nomatch h)⟩

theorem orderly_run (opt : Opt) (parse : List UInt8 → Option Json) (app : App) (w : World) (bound : Bool)
    (run : List Event) :
    Orderly (Runs.final (step opt parse) (start app w bound) run)
      (Runs.moves (step opt parse) (start app w bound) run) := by
  refine Runs.final_moves_induction (P := fun s ms => Orderly s ms) (fun _ _ e h => h.step opt parse e) ?_ run
  exact ⟨List.Pairwise.nil, fun _ h => (nomatch h), fun _ _ h => (nomatch h), fun _ _ h => (nomatch h),
    fun _ h => (nomatch h)⟩

/-- What a request is for. -/
def Done (opt : Opt) (s : Control) (ms : List (Control × Event)) (i : ℕ) : Ipc.Request → Prop
  | .reload => ∃ m ∈ ms, Reloads opt i m
  | .shutdown => s.loop = .ended true

/-- **What `pipitor ctl` reports is so.** In every run, whatever other programs connect and write, a `pipitor ctl`
that succeeds prints nothing and its request has been carried out: the manifest was opened and replaced by the
step that served it, or the process has ended without an error. One that fails with a response has ended the
process with an error. Any other failure says nothing: there was no response. -/
theorem ctl_reported (opt : Opt) {parse : List UInt8 → Option Json} (hreads : Reads parse) (app : App) (w : World)
    (bound : Bool) (run : List Event) {i : ℕ} {c : Connection} {req : Ipc.Request}
    (hc : (Runs.final (step opt parse) (start app w bound) run).connections[i]? = some c)
    (hsent : c.sent = asBytes req.text) :
    (∀ message, ctlResult parse c.received = .ok message → message = none ∧
      Done opt (Runs.final (step opt parse) (start app w bound) run)
        (Runs.moves (step opt parse) (start app w bound) run) i req) ∧
    (∀ message, ctlResult parse c.received = .error (.response message) →
      (Runs.final (step opt parse) (start app w bound) run).loop = .ended false) ∧
    (ctlResult parse c.received = .error .json → c.answer = none) := by
  cases hanswer : c.answer with
  | none =>
    have hreceived : ctlResult parse c.received = .error .json := by
      unfold Connection.received
      rw [hanswer]
      exact hreads.ctlResult_nil
    rw [hreceived]
    exact ⟨fun _ h => (nomatch h), fun _ h => (nomatch h), fun _ => rfl⟩
  | some res =>
    obtain ⟨c', ⟨hc', -⟩, hexplains⟩ := (sound_run opt parse app w bound run).answered i c hc res hanswer
    obtain rfl : c' = c := Option.some.inj (hc'.symm.trans hc)
    rw [hsent] at hexplains
    have hresult : ∀ {res : Response}, c'.answer = some res →
        res ∈ [Response.default, .failedToReload, .failedToShutDown, .unrecognized] →
        ctlResult parse c'.received = if res.code = .success then .ok res.message else .error (.response res.display) := by
      intro res hanswer hres
      unfold Connection.received
      rw [hanswer]
      exact hreads.ctlResult hres
    have hreq : ∀ {req' : Ipc.Request}, readRequest parse (asBytes req.text) = some req' → req' = req := fun h =>
      Option.some.inj (h.symm.trans (hreads.readRequest req))
    cases hexplains with
    | unrecognized request =>
      rw [hreads.readRequest] at request
      cases request
    | reloaded request reloads =>
      obtain rfl := hreq request
      rw [hresult hanswer (by decide)]
      exact ⟨fun _ h => ⟨(Except.ok.inj h).symm, reloads⟩, fun _ h => (nomatch h), fun h => (nomatch h)⟩
    | failedToReload request ended =>
      rw [hresult hanswer (by decide)]
      exact ⟨fun _ h => (nomatch h), fun _ _ => ended, fun h => (nomatch h)⟩
    | shutDown request ended =>
      obtain rfl := hreq request
      rw [hresult hanswer (by decide)]
      exact ⟨fun _ h => ⟨(Except.ok.inj h).symm, ended⟩, fun _ h => (nomatch h), fun h => (nomatch h)⟩
    | failedToShutDown request ended =>
      rw [hresult hanswer (by decide)]
      exact ⟨fun _ h => (nomatch h), fun _ _ => ended, fun h => (nomatch h)⟩

/-- What is exchanged is read. -/
def exchanged (bytes : List UInt8) : Option Json :=
  (([Ipc.Request.reload, .shutdown].map fun req => (asBytes req.text, req.toJson)) ++
    ([Response.default, .failedToReload, .failedToShutDown, .unrecognized].map fun res =>
      (asBytes res.text, res.toJson))).lookup bytes

theorem reads_exchanged : Reads exchanged where
  request req := by
    cases req with
    | reload => with_unfolding_all rfl
    | shutdown => with_unfolding_all rfl
  response res hres := by
    simp only [List.mem_cons, List.not_mem_nil, or_false] at hres
    rcases hres with rfl | rfl | rfl | rfl
    · with_unfolding_all rfl
    · with_unfolding_all rfl
    · with_unfolding_all rfl
    · with_unfolding_all rfl
  nothing := by with_unfolding_all rfl

def reloadRun : List Event :=
  [.connect, .write 0 (asBytes Ipc.Request.reload.text), .close 0, .read,
    .serve (oneManifest "Pipitor.toml" "pipitor.sqlite3") (sampleEnv (.ok ())) calmReset true, .respond 0 true]

theorem ctl_reported_reload :
    ∃ m ∈ Runs.moves (step ⟨none⟩ exchanged) (start plainApp sampleWorld true) reloadRun, Reloads ⟨none⟩ 0 m := by
  have hc : (Runs.final (step ⟨none⟩ exchanged) (start plainApp sampleWorld true) reloadRun).connections[0]? =
      some ⟨asBytes Ipc.Request.reload.text, true, some .default⟩ := by with_unfolding_all rfl
  exact ((@ctl_reported ⟨none⟩ exchanged reads_exchanged plainApp sampleWorld true reloadRun 0 _ .reload hc rfl).1 none
    (by with_unfolding_all rfl)).2

/-- **One after the other.** In every run each request is served at most once, and in the order of the
connections. Until a program shuts down its side of a connection no later connection is served or answered,
unless reading from it fails. -/
theorem served_in_order (opt : Opt) (parse : List UInt8 → Option Json) (app : App) (w : World) (bound : Bool)
    (run : List Event) :
    (served (Runs.moves (step opt parse) (start app w bound) run)).Pairwise (· < ·) ∧
    ∀ (i : ℕ) (c : Connection), (Runs.final (step opt parse) (start app w bound) run).connections[i]? = some c →
      c.closed = false → (∀ m ∈ Runs.moves (step opt parse) (start app w bound) run, ¬ Fails i m) →
      ∀ j, i ≤ j → j ∉ served (Runs.moves (step opt parse) (start app w bound) run) ∧
        ∀ d : Connection, (Runs.final (step opt parse) (start app w bound) run).connections[j]? = some d →
          d.answer = none := by
  have horderly := orderly_run opt parse app w bound run
  refine ⟨(List.pairwise_append.mp horderly.increasing).1, ?_⟩
  intro i c hc hopen hnofail j hij
  have hreading : (Runs.final (step opt parse) (start app w bound) run).reading ≤ i := by
    by_contra hlt
    rcases horderly.passed i (Nat.lt_of_not_le hlt) with ⟨c', hc', hclosed⟩ | ⟨m, hm, hfails⟩
    · obtain rfl : c' = c := Option.some.inj (hc'.symm.trans hc)
      rw [hopen] at hclosed
      cases hclosed
    · exact hnofail m hm hfails
  refine ⟨fun hserved => ?_, fun d hd => ?_⟩
  · have hlt := horderly.queued j (List.mem_append_left _ hserved)
    exact absurd hlt (Nat.not_lt_of_le (hreading.trans hij))
  · rw [← Option.not_isSome_iff_eq_none]
    intro hres
    exact absurd (horderly.answered j d hd hres) (Nat.not_lt_of_le (hreading.trans hij))

def openRun : List Event :=
  [.connect, .connect, .write 1 (asBytes Ipc.Request.shutdown.text), .close 1, .read,
    .serve (oneManifest "Pipitor.toml" "pipitor.sqlite3") (sampleEnv (.ok ())) calmReset true]

/-- The second connection asks for a shutdown. -/
theorem served_in_order_open :
    1 ∉ served (Runs.moves (step ⟨none⟩ exchanged) (start plainApp sampleWorld true) openRun) := by
  have hmoves : ∀ m ∈ Runs.moves (step ⟨none⟩ exchanged) (start plainApp sampleWorld true) openRun, ¬ Fails 0 m := by
    intro m hm hfails
    have hmem := Runs.mem_of_mem_moves hm
    rw [hfails.1] at hmem
    simp [openRun] at hmem
  exact ((served_in_order ⟨none⟩ exchanged plainApp sampleWorld true openRun).2 0 ⟨[], false, none⟩
    (by with_unfolding_all rfl) rfl hmoves 1 (Nat.zero_le 1)).1

end Control

end Pipitor.App
