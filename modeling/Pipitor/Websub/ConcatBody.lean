import Mathlib.Algebra.Group.Nat.Defs
import Mathlib.Data.List.Basic
import Mathlib.Data.Nat.Notation
import Pipitor.Foundation.Fallible

/-!
# The body of a response as a whole

`ConcatBody` polls a body and puts its chunks together: the first is kept as it is, and only a second one
makes it start a buffer, which it sizes by what the body says is still to come. Every way of polling it
comes to the concatenation of the chunks, as long as that size is one that a vector can have.
-/

namespace Pipitor.Websub

open Fallible

/-- The data of one chunk: contiguous slices, which may be empty. Its size is a `usize`. -/
structure Buf where
  slices : List (List UInt8)
  size_lt : slices.flatten.length < 2 ^ 64

namespace Buf

def bytes (data : Buf) : List UInt8 := data.slices.flatten

def remaining (data : Buf) : ℕ := data.bytes.length

end Buf

/-- A body as the answers that polling it gives. With a chunk comes the lower bound that its `size_hint`
has for the rest. -/
inductive Body (ε : Type)
  | eof
  | error (e : ε)
  | pending (rest : Body ε)
  | chunk (data : Buf) (lower : UInt64) (rest : Body ε)

inductive Poll (α : Type)
  | pending
  | ready (a : α)
deriving DecidableEq

inductive Panic
  | addOverflow
  | capacityOverflow
deriving DecidableEq

namespace ConcatBody

inductive State
  | init
  | once (first : List UInt8)
  | streaming (buf : List UInt8)

/-! ### Vectors -/

def usizeMax : ℕ := 2 ^ 64 - 1

def isizeMax : ℕ := 2 ^ 63 - 1

/-- A sum of sizes: without overflow checks it wraps. -/
def addUsize (overflowChecks : Bool) (m n : ℕ) : Except Panic ℕ :=
  if m + n ≤ usizeMax then .ok (m + n)
  else if overflowChecks then .error .addOverflow
  else .ok ((m + n) % 2 ^ 64)

/-- `u64 as TryInto<usize>`. -/
def tryIntoUsize (n : UInt64) : Option ℕ := if n.toNat ≤ usizeMax then some n.toNat else none

def withCapacity (cap : ℕ) : Except Panic (List UInt8) :=
  if cap ≤ isizeMax then .ok [] else .error .capacityOverflow

/-- `BufMut::put` of a vector: room for the data, then slice by slice. -/
def put (buf : List UInt8) (slices : List (List UInt8)) : Except Panic (List UInt8) :=
  if buf.length + slices.flatten.length ≤ isizeMax then .ok (slices.foldl (· ++ ·) buf)
  else .error .capacityOverflow

/-- `copy_to_bytes` of all that a chunk has. -/
def copyToBytes (data : Buf) : Except Panic (List UInt8) := do
  put (← withCapacity data.remaining) data.slices

/-! ### The future -/

/-- The buffer for a first and a second chunk, with room for what is to come. -/
def start (overflowChecks : Bool) (first second : ℕ) (lower : UInt64) : Except Panic (List UInt8) := do
  let cap ← addUsize overflowChecks first second
  let cap ← addUsize overflowChecks cap ((tryIntoUsize lower).getD 0)
  withCapacity cap

/-- The arms of the loop in `poll`: what a chunk makes of the state. -/
def State.take (overflowChecks : Bool) (data : Buf) (lower : UInt64) : State → Except Panic State
  | .init => do return .once (← copyToBytes data)
  | .once first => do
    let buf ← start overflowChecks first.length data.remaining lower
    let buf ← put buf [first]
    return .streaming (← put buf data.slices)
  | .streaming buf => do return .streaming (← put buf data.slices)

def State.bytes : State → List UInt8
  | .init => []
  | .once buf => buf
  | .streaming buf => buf

/-- `ConcatBody::poll`: what it gives, and the state and the body that it leaves. -/
def poll {ε : Type} (overflowChecks : Bool) :
    State → Body ε → Except Panic (Poll (Except ε (List UInt8)) × State × Body ε)
  | state, .pending rest => .ok (.pending, state, rest)
  | state, .error e => .ok (.ready (.error e), state, .eof)
  | state, .eof => .ok (.ready (.ok state.bytes), .init, .eof)
  | state, .chunk data lower rest => do poll overflowChecks (← state.take overflowChecks data lower) rest

/-- What the first polls give; the future is not polled again once it is ready. -/
def polls {ε : Type} (overflowChecks : Bool) :
    ℕ → State → Body ε → Except Panic (List (Poll (Except ε (List UInt8))))
  | 0, _, _ => .ok []
  | n + 1, state, body => do
    match ← poll overflowChecks state body with
    | (.pending, state, rest) => return .pending :: (← polls overflowChecks n state rest)
    | (.ready result, _, _) => return [.ready result]

/-! ### Plain concatenation -/

end ConcatBody

namespace Body

variable {ε : Type}

/-- The chunks of the body, with the bounds that come with them. -/
def chunks : Body ε → List (Buf × UInt64)
  | .eof => []
  | .error _ => []
  | .pending rest => rest.chunks
  | .chunk data lower rest => (data, lower) :: rest.chunks

/-- How often the body is pending. -/
def pendings : Body ε → ℕ
  | .eof => 0
  | .error _ => 0
  | .pending rest => rest.pendings + 1
  | .chunk _ _ rest => rest.pendings

/-- All the bytes of the body, or its error. -/
def outcome : Body ε → Except ε (List UInt8)
  | .eof => .ok []
  | .error e => .error e
  | .pending rest => rest.outcome
  | .chunk data _ rest => rest.outcome.map (data.bytes ++ ·)

/-- What a future that concatenates the body gives when it is polled until it is ready. -/
def answers (body : Body ε) (result : Except ε (List UInt8)) : List (Poll (Except ε (List UInt8))) :=
  List.replicate body.pendings .pending ++ [.ready result]

end Body

namespace ConcatBody

variable {ε : Type} (overflowChecks : Bool)

/-- The state after some chunks. -/
def takeAll (state : State) (chunks : List (Buf × UInt64)) : Except Panic State :=
  chunks.foldlM (fun state c => state.take overflowChecks c.1 c.2) state

/-! ### One chunk -/

theorem foldl_append (slices : List (List UInt8)) (buf : List UInt8) :
    slices.foldl (· ++ ·) buf = buf ++ slices.flatten := by
  induction slices generalizing buf with
  | nil => simp
  | cons slice slices ih => rw [List.foldl_cons, ih, List.flatten_cons, List.append_assoc]

theorem put_of_le {buf : List UInt8} {slices : List (List UInt8)}
    (h : buf.length + slices.flatten.length ≤ isizeMax) : put buf slices = .ok (buf ++ slices.flatten) := by
  rw [put, if_pos h, foldl_append]

theorem put_of_lt {buf : List UInt8} {slices : List (List UInt8)}
    (h : isizeMax < buf.length + slices.flatten.length) : put buf slices = .error .capacityOverflow :=
  if_neg (by omega)

theorem put_first {first : List UInt8} (h : first.length ≤ isizeMax) : put [] [first] = .ok first := by
  rw [put_of_le (by simpa using h)]
  simp

theorem copyToBytes_of_le {data : Buf} (h : data.remaining ≤ isizeMax) :
    copyToBytes data = .ok data.bytes := by
  have hput : put [] data.slices = .ok data.bytes := put_of_le (by simpa [Buf.remaining, Buf.bytes] using h)
  rw [copyToBytes, withCapacity, if_pos h]
  exact hput

theorem copyToBytes_of_lt {data : Buf} (h : isizeMax < data.remaining) :
    copyToBytes data = .error .capacityOverflow := by
  rw [copyToBytes, withCapacity, if_neg (by omega)]
  rfl

theorem addUsize_false (m n : ℕ) : addUsize false m n = .ok ((m + n) % 2 ^ 64) := by
  unfold addUsize usizeMax
  split
  · rw [Nat.mod_eq_of_lt (by omega)]
  · rfl

theorem addUsize_true (m n : ℕ) :
    addUsize true m n = if m + n ≤ usizeMax then .ok (m + n) else .error .addOverflow := rfl

theorem tryIntoUsize_eq (n : UInt64) : tryIntoUsize n = some n.toNat := by
  have hn := n.toNat_lt
  apply if_pos
  unfold usizeMax
  omega

/-- The capacity for which a second chunk makes `poll` ask: with overflow checks the sum itself, which must
not be a panic, and otherwise what it wraps to. -/
def capacity (first second : ℕ) (lower : UInt64) : ℕ :=
  let cap := first + second + lower.toNat
  if overflowChecks then cap else cap % 2 ^ 64

theorem addUsize_bind (l m n : ℕ) :
    (do addUsize overflowChecks (← addUsize overflowChecks l m) n) = addUsize overflowChecks (l + m) n := by
  cases overflowChecks with
  | true =>
    by_cases hpart : l + m ≤ usizeMax
    · rw [addUsize_true l m, if_pos hpart]
      rfl
    · have hsum : ¬ l + m + n ≤ usizeMax := by omega
      rw [addUsize_true l m, if_neg hpart, addUsize_true, if_neg hsum]
      rfl
  | false =>
    rw [addUsize_false, addUsize_false, ok_bind, addUsize_false, Nat.mod_add_mod]

theorem start_eq (first second : ℕ) (lower : UInt64) :
    start overflowChecks first second lower =
      (do withCapacity (← addUsize overflowChecks (first + second) lower.toNat)) := by
  rw [← addUsize_bind]
  unfold start
  rw [tryIntoUsize_eq, Option.getD_some]
  cases addUsize overflowChecks first second with
  | error e => rfl
  | ok cap => rfl

theorem start_of_le {first second : ℕ} {lower : UInt64}
    (h : capacity overflowChecks first second lower ≤ isizeMax) :
    start overflowChecks first second lower = .ok [] := by
  have hadd : addUsize overflowChecks (first + second) lower.toNat =
      .ok (capacity overflowChecks first second lower) := by
    cases overflowChecks with
    | true =>
      have hsum : first + second + lower.toNat ≤ usizeMax := Nat.le_trans h (by decide)
      rw [addUsize_true, if_pos hsum]
      rfl
    | false => exact addUsize_false _ _
  rw [start_eq, hadd, ok_bind]
  exact if_pos h

theorem start_of_lt {first second : ℕ} {lower : UInt64}
    (h : isizeMax < capacity overflowChecks first second lower) :
    ∃ e, start overflowChecks first second lower = .error e := by
  have hadd : addUsize overflowChecks (first + second) lower.toNat = .error .addOverflow ∨
      addUsize overflowChecks (first + second) lower.toNat =
        .ok (capacity overflowChecks first second lower) := by
    cases overflowChecks with
    | true =>
      rw [addUsize_true]
      split
      · exact .inr rfl
      · exact .inl rfl
    | false => exact .inr (addUsize_false _ _)
  rw [start_eq]
  rcases hadd with herror | hok
  · exact ⟨.addOverflow, by rw [herror, error_bind]⟩
  · refine ⟨.capacityOverflow, ?_⟩
    rw [hok, ok_bind]
    exact if_neg (Nat.not_le_of_lt h)

theorem take_init_of_le {data : Buf} (lower : UInt64) (h : data.remaining ≤ isizeMax) :
    State.init.take overflowChecks data lower = .ok (.once data.bytes) := by
  rw [State.take, copyToBytes_of_le h]
  rfl

theorem take_init_of_lt {data : Buf} (lower : UInt64) (h : isizeMax < data.remaining) :
    State.init.take overflowChecks data lower = .error .capacityOverflow := by
  rw [State.take, copyToBytes_of_lt h]
  rfl

theorem take_once_of_le {first : List UInt8} {data : Buf} {lower : UInt64}
    (hcap : capacity overflowChecks first.length data.remaining lower ≤ isizeMax)
    (hdata : first.length + data.remaining ≤ isizeMax) :
    (State.once first).take overflowChecks data lower = .ok (.streaming (first ++ data.bytes)) := by
  have hfirst : first.length ≤ isizeMax := by omega
  rw [State.take, start_of_le overflowChecks hcap, ok_bind, put_first hfirst, ok_bind, put_of_le hdata]
  rfl

theorem take_streaming_of_le {buf : List UInt8} {data : Buf} (lower : UInt64)
    (h : buf.length + data.remaining ≤ isizeMax) :
    (State.streaming buf).take overflowChecks data lower = .ok (.streaming (buf ++ data.bytes)) := by
  rw [State.take, put_of_le h]
  rfl

theorem take_streaming_of_lt {buf : List UInt8} {data : Buf} (lower : UInt64)
    (h : isizeMax < buf.length + data.remaining) :
    (State.streaming buf).take overflowChecks data lower = .error .capacityOverflow := by
  rw [State.take, put_of_lt h]
  rfl

theorem succeeds_take_once {first : List UInt8} {data : Buf} {lower : UInt64} :
    Succeeds ((State.once first).take overflowChecks data lower) ↔
      capacity overflowChecks first.length data.remaining lower ≤ isizeMax ∧
        first.length + data.remaining ≤ isizeMax := by
  constructor
  · intro h
    by_cases hcap : capacity overflowChecks first.length data.remaining lower ≤ isizeMax
    · refine ⟨hcap, ?_⟩
      by_contra hdata
      rw [State.take, start_of_le overflowChecks hcap, ok_bind] at h
      by_cases hfirst : first.length ≤ isizeMax
      · rw [put_first hfirst, ok_bind, put_of_lt (Nat.lt_of_not_le hdata), error_bind] at h
        exact absurd h (not_succeeds_error _)
      · rw [put_of_lt (by simpa using Nat.lt_of_not_le hfirst), error_bind] at h
        exact absurd h (not_succeeds_error _)
    · obtain ⟨e, he⟩ := start_of_lt overflowChecks (Nat.lt_of_not_le hcap)
      rw [State.take, he, error_bind] at h
      exact absurd h (not_succeeds_error _)
  · intro h
    rw [take_once_of_le overflowChecks h.1 h.2]
    exact succeeds_ok _

theorem bytes_take {state state' : State} {data : Buf} {lower : UInt64}
    (h : state.take overflowChecks data lower = .ok state') : state'.bytes = state.bytes ++ data.bytes := by
  cases state with
  | init =>
    by_cases hdata : data.remaining ≤ isizeMax
    · rw [take_init_of_le overflowChecks lower hdata] at h
      rw [← Except.ok.inj h]
      rfl
    · rw [take_init_of_lt overflowChecks lower (Nat.lt_of_not_le hdata)] at h
      contradiction
  | once first =>
    obtain ⟨hcap, hdata⟩ := (succeeds_take_once overflowChecks).mp ⟨state', h⟩
    rw [take_once_of_le overflowChecks hcap hdata] at h
    rw [← Except.ok.inj h]
    rfl
  | streaming buf =>
    by_cases hdata : buf.length + data.remaining ≤ isizeMax
    · rw [take_streaming_of_le overflowChecks lower hdata] at h
      rw [← Except.ok.inj h]
      rfl
    · rw [take_streaming_of_lt overflowChecks lower (Nat.lt_of_not_le hdata)] at h
      contradiction

/-! ### The polls of a body -/

theorem polls_pending (n : ℕ) (state : State) (rest : Body ε) :
    polls overflowChecks (n + 1) state (.pending rest) =
      (do return .pending :: (← polls overflowChecks n state rest)) := rfl

theorem polls_chunk (n : ℕ) (state : State) (data : Buf) (lower : UInt64) (rest : Body ε) :
    polls overflowChecks (n + 1) state (.chunk data lower rest) =
      (do polls overflowChecks (n + 1) (← state.take overflowChecks data lower) rest) := by
  cases h : state.take overflowChecks data lower with
  | error e => simp [polls, poll, h]
  | ok state' => simp [polls, poll, h]

theorem takeAll_cons (state : State) (data : Buf) (lower : UInt64) (chunks : List (Buf × UInt64)) :
    takeAll overflowChecks state ((data, lower) :: chunks) =
      (do takeAll overflowChecks (← state.take overflowChecks data lower) chunks) := rfl

/-- If every chunk finds room, the polls are those of plain concatenation, whichever state they start in. -/
theorem polls_of_takeAll {state state' : State} {body : Body ε}
    (h : takeAll overflowChecks state body.chunks = .ok state') (n : ℕ) :
    polls overflowChecks n state body = .ok ((body.answers (body.outcome.map (state.bytes ++ ·))).take n) := by
  induction body generalizing state n with
  | eof =>
    cases n with
    | zero => rfl
    | succ n =>
      simp [polls, poll, Body.answers, Body.outcome, Body.pendings, Except.map]
      rfl
  | error e =>
    cases n with
    | zero => rfl
    | succ n =>
      simp [polls, poll, Body.answers, Body.outcome, Body.pendings, Except.map]
      rfl
  | pending rest ih =>
    cases n with
    | zero => rfl
    | succ n =>
      rw [polls_pending, ih h n]
      rfl
  | chunk data lower rest ih =>
    cases n with
    | zero => rfl
    | succ n =>
      rw [Body.chunks, takeAll_cons] at h
      obtain ⟨next, hnext⟩ := Succeeds.of_bind ⟨state', h⟩
      rw [hnext, ok_bind] at h
      have hbytes : rest.outcome.map (next.bytes ++ ·) =
          (rest.outcome.map (data.bytes ++ ·)).map (state.bytes ++ ·) := by
        rw [bytes_take overflowChecks hnext]
        cases rest.outcome with
        | error e => rfl
        | ok bytes => simp [Except.map]
      rw [polls_chunk, hnext, ok_bind, ih h (n + 1), hbytes]
      rfl

/-- If some chunk finds no room, the polls up to the end of the body do not get there. -/
theorem polls_of_takeAll_error {state : State} {body : Body ε} {e : Panic}
    (h : takeAll overflowChecks state body.chunks = .error e) :
    polls overflowChecks (body.pendings + 1) state body = .error e := by
  induction body generalizing state with
  | eof => contradiction
  | error _ => contradiction
  | pending rest ih =>
    rw [Body.pendings, polls_pending, ih h]
    rfl
  | chunk data lower rest ih =>
    rw [Body.chunks, takeAll_cons] at h
    rw [Body.pendings, polls_chunk]
    cases hnext : state.take overflowChecks data lower with
    | error e' =>
      rw [hnext, error_bind] at h
      rw [error_bind, Except.error.inj h]
    | ok next =>
      rw [hnext, ok_bind] at h
      exact ih h

/-! ### When every chunk finds room -/

/-- The bytes of the chunks. -/
def size : List (Buf × UInt64) → ℕ
  | [] => 0
  | (data, _) :: chunks => data.remaining + size chunks

@[simp]
theorem size_nil : size [] = 0 := rfl

@[simp]
theorem size_cons (data : Buf) (lower : UInt64) (chunks : List (Buf × UInt64)) :
    size ((data, lower) :: chunks) = data.remaining + size chunks := rfl

/-- The second chunk, if there is one, asks for no more than a vector can have. -/
def CapacityFits : List (Buf × UInt64) → Prop
  | (first, _) :: (second, lower) :: _ =>
    capacity overflowChecks first.remaining second.remaining lower ≤ isizeMax
  | _ => True

instance instDecidableCapacityFits : (chunks : List (Buf × UInt64)) →
    Decidable (CapacityFits overflowChecks chunks)
  | [] => inferInstanceAs (Decidable True)
  | [_] => inferInstanceAs (Decidable True)
  | (first, _) :: (second, lower) :: _ =>
    inferInstanceAs (Decidable (capacity overflowChecks first.remaining second.remaining lower ≤ isizeMax))

theorem succeeds_takeAll_streaming {buf : List UInt8} (hbuf : buf.length ≤ isizeMax)
    (chunks : List (Buf × UInt64)) :
    Succeeds (takeAll overflowChecks (.streaming buf) chunks) ↔ buf.length + size chunks ≤ isizeMax := by
  induction chunks generalizing buf with
  | nil =>
    constructor
    · intro _
      simpa using hbuf
    · intro _
      exact succeeds_ok _
  | cons c chunks ih =>
    obtain ⟨data, lower⟩ := c
    rw [takeAll_cons, size_cons]
    by_cases hdata : buf.length + data.remaining ≤ isizeMax
    · have hlen : (buf ++ data.bytes).length = buf.length + data.remaining := List.length_append
      rw [take_streaming_of_le overflowChecks lower hdata, ok_bind, ih (by omega), hlen]
      omega
    · rw [take_streaming_of_lt overflowChecks lower (Nat.lt_of_not_le hdata), error_bind]
      constructor
      · intro h
        exact absurd h (not_succeeds_error _)
      · intro h
        omega

theorem succeeds_takeAll_once (first : List UInt8) (data : Buf)
    (lower : UInt64) (chunks : List (Buf × UInt64)) :
    Succeeds (takeAll overflowChecks (.once first) ((data, lower) :: chunks)) ↔
      first.length + size ((data, lower) :: chunks) ≤ isizeMax ∧
        capacity overflowChecks first.length data.remaining lower ≤ isizeMax := by
  rw [takeAll_cons, size_cons]
  constructor
  · intro h
    obtain ⟨hcap, hdata⟩ := (succeeds_take_once overflowChecks).mp h.of_bind
    have hlen : (first ++ data.bytes).length = first.length + data.remaining := List.length_append
    rw [take_once_of_le overflowChecks hcap hdata, ok_bind,
      succeeds_takeAll_streaming overflowChecks (by omega)] at h
    refine ⟨?_, hcap⟩
    omega
  · intro h
    obtain ⟨hsize, hcap⟩ := h
    have hlen : (first ++ data.bytes).length = first.length + data.remaining := List.length_append
    rw [take_once_of_le overflowChecks hcap (by omega), ok_bind,
      succeeds_takeAll_streaming overflowChecks (by omega)]
    omega

theorem succeeds_takeAll_init (chunks : List (Buf × UInt64)) :
    Succeeds (takeAll overflowChecks .init chunks) ↔
      size chunks ≤ isizeMax ∧ CapacityFits overflowChecks chunks := by
  cases chunks with
  | nil => exact ⟨fun _ => ⟨Nat.zero_le _, trivial⟩, fun _ => succeeds_ok _⟩
  | cons c chunks =>
    obtain ⟨data, lower⟩ := c
    rw [takeAll_cons]
    by_cases hdata : data.remaining ≤ isizeMax
    · rw [take_init_of_le overflowChecks lower hdata, ok_bind]
      cases chunks with
      | nil => simp [takeAll, CapacityFits, hdata, Succeeds, pure, Except.pure]
      | cons c chunks =>
        obtain ⟨second, lower⟩ := c
        rw [succeeds_takeAll_once]
        rfl
    · rw [take_init_of_lt overflowChecks lower (Nat.lt_of_not_le hdata), error_bind, size_cons]
      constructor
      · intro h
        exact absurd h (not_succeeds_error _)
      · intro h
        omega

/-- With hints that are bounds for what follows, as `size_hint` means them, a body that fits in memory finds
room. -/
def HintsHold : List (Buf × UInt64) → Prop
  | [] => True
  | (_, lower) :: chunks => lower.toNat ≤ size chunks ∧ HintsHold chunks

theorem capacityFits_of_hintsHold {chunks : List (Buf × UInt64)} (hsize : size chunks ≤ isizeMax)
    (h : HintsHold chunks) : CapacityFits overflowChecks chunks := by
  rcases chunks with _ | ⟨⟨first, _⟩, _ | ⟨⟨second, lower⟩, chunks⟩⟩
  · trivial
  · trivial
  · have hlower : lower.toNat ≤ size chunks := h.2.1
    have hle : first.remaining + second.remaining + lower.toNat ≤ isizeMax := by
      rw [size_cons, size_cons] at hsize
      omega
    unfold CapacityFits capacity
    cases overflowChecks with
    | true => exact hle
    | false => exact Nat.le_trans (Nat.mod_le _ _) hle

/-! ### Plain concatenation, and when it is not -/

/-- However often the future is polled, it is pending as often as the body and then gives all of the body's
bytes or its error. -/
def Concatenates (body : Body ε) : Prop :=
  ∀ n, polls overflowChecks n .init body = .ok ((body.answers body.outcome).take n)

/-- The code is plain concatenation just for the bodies whose data and whose hint after the second chunk a
vector has room for. -/
theorem concatenates_iff (body : Body ε) :
    Concatenates overflowChecks body ↔
      size body.chunks ≤ isizeMax ∧ CapacityFits overflowChecks body.chunks := by
  rw [← succeeds_takeAll_init]
  constructor
  · intro h
    by_contra hfails
    obtain ⟨e, he⟩ := exists_error hfails
    have herror := polls_of_takeAll_error overflowChecks he
    rw [h] at herror
    contradiction
  · intro h n
    obtain ⟨state, hstate⟩ := h
    have houtcome : body.outcome.map (State.init.bytes ++ ·) = body.outcome := by
      cases body.outcome <;> rfl
    rw [polls_of_takeAll overflowChecks hstate n, houtcome]

/-- A response that declares `2 ^ 63` bytes, of which two come in two chunks before the connection breaks. -/
def brokenBody : Body Unit :=
  .chunk ⟨[[60]], by decide⟩ 9223372036854775807
    (.chunk ⟨[[63]], by decide⟩ 9223372036854775806 (.error ()))

theorem not_concatenates_brokenBody :
    ¬ Concatenates true brokenBody ∧ ¬ Concatenates false brokenBody ∧
      polls true 1 .init brokenBody = .error .capacityOverflow ∧
      brokenBody.answers brokenBody.outcome = [.ready (.error ())] := by
  have hpanic (checks : Bool) : polls checks 1 .init brokenBody = .error .capacityOverflow := by
    cases checks <;> decide
  refine ⟨?_, ?_, hpanic true, by decide⟩
  · intro h
    have hone := h 1
    rw [hpanic] at hone
    contradiction
  · intro h
    have hone := h 1
    rw [hpanic] at hone
    contradiction

end ConcatBody

end Pipitor.Websub
