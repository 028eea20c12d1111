import Pipitor.Foundation.Fields
import Pipitor.Foundation.Json
import Pipitor.Websub.Delivery

/-!
# The messages of the control socket

`bin/pipitor/common/ipc.rs`: the requests and the responses, as they are written and as the derived
deserializers read them.
-/

namespace Pipitor.Ipc

open Fields

inductive Request
  | reload
  | shutdown
deriving DecidableEq, Repr

inductive ResponseCode
  | success
  | internalError
  | requestUnrecognized
deriving DecidableEq, Repr

structure Response where
  message : Option String
  code : ResponseCode
deriving DecidableEq, Repr

namespace ResponseCode

def asStr : ResponseCode → String
  | success => "SUCCESS"
  | internalError => "INTERNAL_ERROR"
  | requestUnrecognized => "REQUEST_UNRECOGNIZED"

def ofName (name : String) : Except Error ResponseCode :=
  if name = "SUCCESS" then .ok success
  else if name = "INTERNAL_ERROR" then .ok internalError
  else if name = "REQUEST_UNRECOGNIZED" then .ok requestUnrecognized
  else .error (.invalid "code")

/-- A variant without content, alone or as the only member of an object. -/
def ofJson : Json → Except Error ResponseCode
  | .string name => ofName name
  | .object [(name, .null)] => ofName name
  | _ => .error (.invalid "code")

end ResponseCode

namespace Request

def name : Request → String
  | reload => "reload"
  | shutdown => "shutdown"

/-- `json::to_vec` of the request. -/
def text (req : Request) : String := "\x7b\"" ++ req.name ++ "\":\x7b\x7d\x7d"

def toJson (req : Request) : Json := .object [(req.name, .object [])]

def ofName (name : String) : Option Request :=
  if name = "reload" then some reload else if name = "shutdown" then some shutdown else none

/-- The fields of a variant that has none. Members that are not known are skipped. -/
def isFieldless : Json → Bool
  | .object _ => true
  | .array [] => true
  | _ => false

/-- A variant as the only member of an object. -/
def ofJson : Json → Option Request
  | .object [(name, content)] => if isFieldless content then ofName name else none
  | _ => none

theorem ofJson_toJson (req : Request) : ofJson req.toJson = some req := by
  cases req with
  | reload => rfl
  | shutdown => rfl

end Request

namespace Response

/-- `Response::default()`. -/
def default : Response := ⟨none, .success⟩

def failedToReload : Response := ⟨some "failed to reload the manifest", .internalError⟩

def failedToShutDown : Response := ⟨some "error occured during shutdown", .internalError⟩

def unrecognized : Response := ⟨some "request unrecognized", .requestUnrecognized⟩

/-- `json::to_vec` of the response. A message that is not there is left out. -/
def text (res : Response) : String :=
  "\x7b" ++ (match res.message with
    | some message => "\"message\":" ++ Json.quote message ++ ","
    | none => "") ++ "\"code\":" ++ Json.quote res.code.asStr ++ "\x7d"

def toJson (res : Response) : Json :=
  .object ((res.message.map fun message => ("message", .string message)).toList ++
    [("code", .string res.code.asStr)])

/-- `Option<String>`. -/
def messageOf : Json → Except Error (Option String)
  | .null => .ok none
  | .string message => .ok (some message)
  | _ => .error (.invalid "message")

def ofJson : Json → Except Error Response
  | .object members => do
    let fields ← visit ["message", "code"] [] members
    let message ← ((fields.lookup "message").map messageOf).getD (.ok none)
    let code ← ResponseCode.ofJson (← required "code" fields)
    return ⟨message, code⟩
  | .array [message, code] => do return ⟨← messageOf message, ← ResponseCode.ofJson code⟩
  | _ => .error (.invalid "response")

theorem ofJson_toJson (res : Response) : ofJson res.toJson = .ok res := by
  obtain ⟨message, code⟩ := res
  cases message with
  | none => cases code <;> rfl
  | some message => cases code <;> rfl

/-- `Display`. -/
def display (res : Response) : String := res.message.getD res.code.asStr

/-- `Response::result`. -/
def result (res : Response) : Except Response Response :=
  if res.code = .success then .ok res else .error res

end Response

/-- What `json::from_slice` documents of the texts that are exchanged here: it reads what is written, and there is
no value without a text. -/
structure Reads (parse : List UInt8 → Option Json) : Prop where
  request : ∀ req : Request, parse (Websub.asBytes req.text) = some req.toJson
  response : ∀ res ∈ [Response.default, .failedToReload, .failedToShutDown, .unrecognized],
    parse (Websub.asBytes res.text) = some res.toJson
  nothing : parse [] = none

/-- `json::from_slice::<Request>`. -/
def readRequest (parse : List UInt8 → Option Json) (bytes : List UInt8) : Option Request :=
  (parse bytes).bind Request.ofJson

/-- How `pipitor ctl` ends. -/
inductive CtlError
  | json
  | response (message : String)
deriving DecidableEq, Repr

/-- The rest of `pipitor ctl` once the other side has closed the connection: the message, if it succeeds. -/
def ctlResult (parse : List UInt8 → Option Json) (bytes : List UInt8) : Except CtlError (Option String) :=
  match parse bytes with
  | none => .error .json
  | some json => match Response.ofJson json with
    | .error _ => .error .json
    | .ok res => match res.result with
      | .ok res => .ok res.message
      | .error res => .error (.response res.display)

variable {parse : List UInt8 → Option Json}

theorem Reads.readRequest (h : Reads parse) (req : Request) :
    Ipc.readRequest parse (Websub.asBytes req.text) = some req := by
  unfold Ipc.readRequest
  rw [h.request, Option.bind_some, req.ofJson_toJson]

theorem Reads.ctlResult (h : Reads parse) {res : Response}
    (hres : res ∈ [Response.default, .failedToReload, .failedToShutDown, .unrecognized]) :
    Ipc.ctlResult parse (Websub.asBytes res.text) =
      if res.code = .success then .ok res.message else .error (.response res.display) := by
  unfold Ipc.ctlResult
  rw [h.response res hres]
  dsimp only
  rw [res.ofJson_toJson]
  dsimp only
  unfold Response.result
  by_cases hcode : res.code = .success
  · rw [if_pos hcode, if_pos hcode]
  · rw [if_neg hcode, if_neg hcode]

theorem Reads.ctlResult_nil (h : Reads parse) : Ipc.ctlResult parse [] = .error .json := by
  unfold Ipc.ctlResult
  rw [h.nothing]

end Pipitor.Ipc
