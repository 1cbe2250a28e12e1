import Registrar.State

/-!
# Routines

A routine is a program over the state of a client that may fail. Being cancelled while it waits is
one of its failures, so what `ensuring` and `holding` promise also holds then. A routine that is
`logged` leaves a record of how it ended.
-/

namespace Registrar

/-- A program over the state of a client that gives an `α` or fails. -/
abbrev Routine (I : Interface) := ExceptT Failure (Program State I)

namespace Routine

variable {I : Interface} {α β : Type}

/-! ## Steps -/

/-- Changes the state in one step and gives the state before. -/
def update (f : State → State) : Routine I State := ExceptT.mk (.update f fun s => .done (.ok s))

/-- The current state. -/
def current : Routine I State := update id

/-- Asks a question that is answered at once. -/
def ask (c : I.Call) : Routine I (I.Reply c) := ExceptT.mk (.ask c fun r => .done (.ok r))

/-- Calls the world and waits for the reply. -/
def await (c : I.Call) : Routine I (I.Reply c) :=
  ExceptT.mk <| .await c fun
    | .value r => .done (.ok r)
    | .cancelled => .done (.error .cancelled)

def acquire (l : LockId) : Routine I Unit :=
  ExceptT.mk <| .acquire l fun
    | .value () => .done (.ok ())
    | .cancelled => .done (.error .cancelled)

def release (l : LockId) : Routine I Unit := ExceptT.mk (.release l fun _ => .done (.ok ()))

/-! ## Failing -/

def fail (e : ResolutionError) : Routine I α := throw (.resolution e)

def failForeign (e : ForeignError) : Routine I α := throw (.foreign e)

/-- The result of a computation that may fail. -/
def ofExcept : Except Failure α → Routine I α
  | .ok a => pure a
  | .error f => throw f

/-- The result of a computation that may fail to resolve. -/
def resolving : Except ResolutionError α → Routine I α
  | .ok a => pure a
  | .error e => fail e

/-- The end of `body`, which does not end the routine. -/
def attempt (body : Routine I α) : Routine I (Except Failure α) := ExceptT.mk (.ok <$> body.run)

/-- Applies `f` to the error with which resolving in `body` failed. -/
def rewording (f : ResolutionError → ResolutionError) (body : Routine I α) : Routine I α := do
  match ← attempt body with
  | .error (.resolution e) => fail (f e)
  | r => ofExcept r

/-- Runs `cleanup` after `body`, however that ended. -/
def ensuring (body : Routine I α) (cleanup : Routine I Unit) : Routine I α := do
  let r ← attempt body
  cleanup
  ofExcept r

/-- Runs `body` while holding a lock. -/
def holding (l : LockId) (body : Routine I α) : Routine I α := do
  acquire l
  ensuring body (release l)

/-! ## Journal and tally -/

/-- Leaves a record whose field names are not reserved. -/
def note (logger : Text) (level : Level) (message : Text) (fields : Fields) : Routine I Unit := do
  let r : LogRecord := ⟨logger, level, message, false, fields⟩
  let _ ← update fun s => { s with journal := s.journal.note r }

/-- Writes into the journal, which may refuse it. -/
def write (f : Journal → Except ForeignError Journal) : Routine I Unit := do
  match f (← current).journal with
  | .ok j => let _ ← update fun s => { s with journal := j }
  | .error e => failForeign e

def mark (m : Mark) : Routine I Unit := do
  let _ ← update fun s => { s with tally := s.tally.add m }

/-- How a routine is logged: by which logger, under which name, at which level, and whether its
start is. -/
structure Logging where
  logger : Text
  name : Text
  level : LevelChoice
  start : Bool

/-- Leaves a record about the routine that is logged. -/
def Logging.note (l : Logging) (event : String) : Routine I Unit := do
  let level ← ofExcept (l.level.forRecord.mapError .foreign)
  Routine.note l.logger level (l.name ++ " " ++ event) []

/-- Leaves a record when `body` completes and one with the failure when it fails; being cancelled
is not recorded. A level that is none is noticed with the first record and, after the start, counts
as a failure of `body`. -/
def logged (l : Logging) (body : Routine I α) : Routine I α := do
  if l.start then l.note "starting"
  match ← attempt (do let a ← body; l.note "completed"; return a) with
  | .ok a => return a
  | .error .cancelled => throw .cancelled
  | .error f =>
    note l.logger Level.warning (l.name ++ " failed") (f.describedFields [])
    throw f

end Routine

end Registrar
