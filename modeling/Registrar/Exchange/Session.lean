import Registrar.Exchange
import Registrar.Number.Literal

/-!
# Sessions

A session with an HTTP server carries a login and default headers, and lives until it is closed.
The session transport holds at most one: it starts a session when a request finds none or a closed
one, and `close` closes the session that it holds. Starting a session and asking whether one is
closed take no time; a request and the closing of a session do, so that other tasks may run
meanwhile.
-/

namespace Registrar.Session

/-- The media type of the registry's documents. -/
def contentType : String := "application/vnd.schemaregistry.v1+json"

/-- Header fields by their names. -/
abbrev Headers := List (String × String)

/-- The header fields of every request of a session. -/
def defaultHeaders : Headers := [("Accept", contentType)]

/-- The header fields of a request with a body. -/
def bodyHeaders : Headers := [("Content-Type", contentType), ("Accept", contentType)]

/-- A name and a password. -/
structure Login where
  username : Text
  password : Text
  deriving DecidableEq, Repr

/-- The login for optional parts: without a name there is none, and a name has no colon. -/
def Login.make (username password : Option Text) : Except ForeignError (Option Login) :=
  match username.filter (· ≠ []) with
  | none => .ok none
  | some u =>
    if u.contains (.char ':') then
      .error ⟨.value, "A \":\" is not allowed in login (RFC 1945#section-11.1)"⟩
    else .ok (some ⟨u, password.getD []⟩)

/-! ## Calls -/

/-- A request within a session. -/
structure Request where
  session : SessionId
  verb : Verb
  url : Text
  body : Option Bytes
  /-- Header fields beside the default ones. -/
  headers : Option Headers
  /-- The number of seconds after which the request is given up, if there is any. -/
  timeout : Option Number
  deriving DecidableEq, Repr

/-- Why a request has no response. -/
inductive Fault where
  | timeout
  /-- The connection could not be made or kept. -/
  | connection (message : Text)
  | other (f : Failure)
  deriving DecidableEq, Repr

/-- What the session transport demands of the world. -/
inductive Call where
  | start (headers : Headers) (login : Option Login)
  | isClosed (s : SessionId)
  | send (r : Request)
  | close (s : SessionId)
  deriving DecidableEq, Repr

def interface : Interface where
  Call := Call
  Reply
    | .start _ _ => SessionId
    | .isClosed _ => Bool
    | .send _ => Except Fault Response
    | .close _ => Unit

/-- How to make calls: those answered at once and those that take time. -/
structure Access (I : Interface) where
  ask : (c : Call) → Routine I (interface.Reply c)
  await : (c : Call) → Routine I (interface.Reply c)

/-- The access that hands every call to the world. -/
def direct : Access interface := ⟨Routine.ask (I := interface), Routine.await (I := interface)⟩

/-! ## The transport -/

section

variable {I : Interface} (access : Access I) (login : Option Login)
  (timeout : Option Number)

def isClosed (id : SessionId) : Routine I Bool := access.ask (.isClosed id)

/-- Starts a session and holds it. -/
def start : Routine I SessionId := do
  let id ← access.ask (.start defaultHeaders login)
  let _ ← Routine.update fun s => { s with session := some id }
  return id

/-- The session to use, started if there is none that is open. -/
def ensure : Routine I SessionId := do
  match (← Routine.current).session with
  | none => start access login
  | some id => if ← isClosed access id then start access login else return id

/-- Closes the session if one is open, and holds none. -/
def close : Routine I Unit := do
  if let some id := (← Routine.current).session then
    unless ← isClosed access id do access.await (.close id)
  let _ ← Routine.update fun s => { s with session := none }

def logger : Text := "kafka_schema_registry.transport.transport"

/-- The error of a request that did not reach the registry. -/
def unreached (verb : Verb) (cause : Text) : ResolutionError :=
  .transport ("error performing " ++ verb.word ++ " to schema registry") (some cause)

/-- The number of seconds that a request may take, as messages show it. -/
def patience : Option Number → String
  | some seconds => seconds.text
  | none => "None"

/-- Sends a request within the session. -/
def request (verb : Verb) (url : Text) (body : Option Bytes) (headers : Option Headers) :
    Routine I Response := do
  let session ← ensure access login
  let about : Fields := [("http_method", .string verb.name), ("url", .string url)]
  match ← access.await (.send ⟨session, verb, url, body, headers, timeout⟩) with
  | .ok response => return response
  | .error .timeout =>
    Routine.note logger Level.warning "Schema registry request timeout" about
    Routine.fail (unreached verb ("timeout after " ++ patience timeout ++ "s"))
  | .error (.connection message) =>
    Routine.note logger Level.warning "Schema registry connection error"
      (about.put "error_message" (.string message))
    Routine.fail (unreached verb message)
  | .error (.other f) => throw f

/-- Posts a body, which may be absent, within the session. -/
def post (url : Text) (body : Option Bytes) : Routine I Response :=
  request access login timeout .post url body (some bodyHeaders)

/-- The transport that sends its requests within a session. -/
def transport : Transport I where
  get url := request access login timeout .get url none none
  post url body := post access login timeout url (some body)
  close := close access

end

end Registrar.Session
