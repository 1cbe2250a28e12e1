import Registrar.Cache.Loading
import Registrar.Exchange.Session
import Registrar.Schedule.Settling

/-!
# Scripted worlds

A script answers requests from lists of prepared replies, one list for each verb and path; the last
reply of a list serves for all further requests. A reply may be held back behind a gate until that
gate is opened. The script keeps a trace of what was asked of it.
-/

namespace Registrar.Script

/-! ## Prepared replies -/

/-- What comes of a request. -/
inductive Outcome where
  | response (r : Response)
  | failure (f : Failure)
  /-- The connection fails. -/
  | connection (message : Text)
  | timeout
  deriving Repr

/-- A prepared reply. -/
structure Reply where
  outcome : Outcome
  gate : Option Text
  deriving Repr

/-- The reply to a request for which none is prepared. -/
def notFound : Reply :=
  ⟨.response ⟨404, Utf8.encode "\x7b\"error_code\":40401\x7d".toList⟩, none⟩

/-- What a loader does: it notes its label and ends with the result. -/
structure Load where
  label : Text
  result : Except Failure RegisteredSchema
  gate : Option Text

/-! ## The world -/

/-- The calls that a script answers. -/
inductive Call where
  | exchange (c : Exchange.Call)
  | session (c : Session.Call)
  | load (l : Load)
  /-- Closes a session from outside. -/
  | lose (id : SessionId)

def interface : Interface where
  Call := Call
  Reply
    | .exchange c => Exchange.interface.Reply c
    | .session c => Session.interface.Reply c
    | .load _ => Except Failure RegisteredSchema
    | .lose _ => Unit

/-- What is traced. -/
inductive Event where
  | request (verb : Verb) (url : Text) (body : Option Bytes)
  /-- A session was started. -/
  | started (headers : Session.Headers) (login : Option Session.Login)
  /-- The terms of the request that follows. -/
  | terms (headers : Option Session.Headers) (timeout : Option Number)
  | closed
  deriving DecidableEq, Repr

/-- The state of a scripted world. -/
structure Stage where
  /-- The URL below which the paths of the replies are. -/
  home : Text
  replies : Assoc (Verb × Text) (List Reply)
  opened : List Text
  /-- The number of sessions started. -/
  sessions : Nat
  /-- The sessions that are closed. -/
  lost : List SessionId
  trace : List Event
  /-- The labels that loaders noted. -/
  loads : List Text
  deriving Repr

namespace Stage

/-- The path of a URL below the home. -/
def pathOf (s : Stage) (url : Text) : Text :=
  if s.home.isPrefixOf url then url.drop s.home.length else url

/-- The next reply to a request. -/
def peek (s : Stage) (verb : Verb) (url : Text) : Reply :=
  match Assoc.get? (verb, s.pathOf url) s.replies with
  | some (r :: _) => r
  | _ => notFound

/-- Takes the next reply, of which the last one stays. -/
def take (s : Stage) (verb : Verb) (url : Text) : Stage :=
  match Assoc.get? (verb, s.pathOf url) s.replies with
  | some (_ :: r :: rest) =>
    { s with replies := Assoc.put (verb, s.pathOf url) (r :: rest) s.replies }
  | _ => s

def record (s : Stage) (es : List Event) : Stage := { s with trace := s.trace ++ es }

/-- Marks a session closed. -/
def lose (s : Stage) (id : SessionId) : Stage := { s with lost := id :: s.lost }

/-- The gate, if it is closed. -/
def closedGate? (s : Stage) (gate : Option Text) : Option Text :=
  gate.filter fun g => !s.opened.contains g

end Stage

/-- What a direct transport gets. -/
def Outcome.direct : Outcome → Except Failure Response
  | .response r => .ok r
  | .failure f => .error f
  | .connection m => .error (.foreign ⟨.connection, m⟩)
  | .timeout => .error (.foreign ⟨.timeout, ""⟩)

/-- What a session gets. -/
def Outcome.inSession : Outcome → Except Session.Fault Response
  | .response r => .ok r
  | .failure (.foreign ⟨.timeout, _⟩) => .error .timeout
  | .failure f => .error (.other f)
  | .connection m => .error (.connection m)
  | .timeout => .error .timeout

/-- The answer to a call. -/
def answer : (c : Call) → Stage → interface.Reply c × Stage
  | .exchange (.get url), s =>
    ((s.peek .get url).outcome.direct, (s.take .get url).record [.request .get url none])
  | .exchange (.post url body), s =>
    ((s.peek .post url).outcome.direct, (s.take .post url).record [.request .post url (some body)])
  | .exchange .close, s => ((), s.record [.closed])
  | .session (.start headers login), s =>
    (s.sessions, { s with sessions := s.sessions + 1 }.record [.started headers login])
  | .session (.isClosed id), s => (s.lost.contains id, s)
  | .session (.send r), s =>
    ((s.peek r.verb r.url).outcome.inSession,
      (s.take r.verb r.url).record
        [.terms r.headers r.timeout, .request r.verb r.url r.body])
  | .session (.close id), s => ((), (s.lose id).record [.closed])
  | .load l, s => (l.result, { s with loads := s.loads ++ [l.label] })
  | .lose id, s => ((), s.lose id)

/-- The gate behind which the reply to a call is held back. -/
def gate? : Call → Stage → Option Text
  | .exchange (.get url), s => s.closedGate? (s.peek .get url).gate
  | .exchange (.post url _), s => s.closedGate? (s.peek .post url).gate
  | .session (.send r), s => s.closedGate? (s.peek r.verb r.url).gate
  | .load l, s => s.closedGate? l.gate
  | _, _ => none

def environment : Environment interface Stage Text := ⟨⟨answer⟩, gate?⟩

/-! ## Transports and loaders -/

/-- The transport that hands every request to the script. -/
def transport : Transport interface :=
  Exchange.through fun c => Routine.await (I := interface) (.exchange c)

/-- The access to the sessions of the script. -/
def sessions : Session.Access interface :=
  ⟨fun c => Routine.ask (I := interface) (.session c),
    fun c => Routine.await (I := interface) (.session c)⟩

/-- Closes the session that the transport holds without its knowledge. -/
def loseSession : Routine interface Unit := do
  match (← Routine.current).session with
  | some id => Routine.ask (I := interface) (.lose id)
  | none => Routine.failForeign (.lacking Json.null.typeName "closed")

def loader (l : Load) : Cache.Loader interface := do
  Routine.ofExcept (← Routine.await (I := interface) (.load l))

/-! ## Rehearsals -/

/-- Tasks that end with an `α` before a scripted world. -/
structure Rehearsal (α : Type) where
  system : System State interface Text α
  stage : Stage

namespace Rehearsal

variable {α : Type}

/-- Lets every task that is ready have its turn. -/
def settle (r : Rehearsal α) : Rehearsal α :=
  let (system, stage) := r.system.settle environment r.stage
  ⟨system, stage⟩

/-- Adds a task. -/
def spawn (r : Rehearsal α) (p : Program State interface α) : Rehearsal α :=
  { r with system := r.system.spawn p }

/-- Opens a gate for good. -/
def openGate (r : Rehearsal α) (gate : Text) : Rehearsal α :=
  ⟨r.system.openGate gate, { r.stage with opened := gate :: r.stage.opened }⟩

def cancel (r : Rehearsal α) (t : TaskId) : Rehearsal α := { r with system := r.system.cancel t }

end Rehearsal

end Registrar.Script
