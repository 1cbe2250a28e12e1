import Registrar.Program
import Registrar.Assoc

/-!
# Scheduling tasks

A system runs several programs, its tasks, in one thread. Tasks that are ready take turns in the
order in which they became so. A task whose turn it is runs until it ends, until it needs a lock
that another one holds, or until it makes a call whose reply the world holds back behind a gate. A
lock that is released goes to the task that has waited longest for it.
-/

namespace Registrar

/-- The position of a task among all tasks. -/
abbrev TaskId := Nat

/-- How the world treats the calls of tasks: it has a reply to each from the start, but may hold it
back behind a gate. -/
structure Environment (I : Interface) (ε γ : Type) extends Program.World I ε where
  gate? : I.Call → ε → Option γ

/-- Where a task stands. A task that has stopped goes on with one of two programs, the second if it
is cancelled, be it only after it was awakened. -/
inductive Standing (σ : Type) (I : Interface) (γ α : Type) where
  | ready (p : Program σ I α)
  /-- Awakened, and not yet at its turn; a task that waited for a lock has it now. -/
  | awake (lock : Option LockId) (resumed cancelled : Program σ I α)
  | held (gate : γ) (resumed cancelled : Program σ I α)
  | waiting (lock : LockId) (resumed cancelled : Program σ I α)
  | ended (a : α)

/-- Tasks over a shared state. -/
structure System (σ : Type) (I : Interface) (γ α : Type) where
  state : σ
  tasks : List (Standing σ I γ α)
  /-- The tasks that are ready, in the order of their turns. -/
  queue : List TaskId
  /-- The tasks that have stopped, in the order in which they did. -/
  line : List TaskId
  /-- The holders of the locks that are taken. -/
  locks : Assoc LockId TaskId
  /-- The tasks that have ended, in the order in which they did. -/
  results : List (TaskId × α)

namespace System

variable {σ : Type} {I : Interface} {γ ε α : Type}

/-- A system without tasks. -/
def initial (s : σ) : System σ I γ α := ⟨s, [], [], [], [], []⟩

/-! ## Standings -/

/-- Adds a task, which is ready. -/
def spawn (s : System σ I γ α) (p : Program σ I α) : System σ I γ α :=
  { s with tasks := s.tasks ++ [.ready p], queue := s.queue ++ [s.tasks.length] }

/-- Lets a task that has stopped go on: it gets a turn, and stands at `x` until then. -/
def awaken (s : System σ I γ α) (t : TaskId) (x : Standing σ I γ α) : System σ I γ α :=
  { s with tasks := s.tasks.set t x, line := s.line.erase t, queue := s.queue ++ [t] }

/-- Stops a task. -/
def stop (s : System σ I γ α) (t : TaskId) (x : Standing σ I γ α) : System σ I γ α :=
  { s with tasks := s.tasks.set t x, line := s.line ++ [t] }

def finish (s : System σ I γ α) (t : TaskId) (a : α) : System σ I γ α :=
  { s with tasks := s.tasks.set t (.ended a), results := s.results ++ [(t, a)] }

/-! ## Locks -/

/-- Where a task stands when it gets the lock, if it waits for it. -/
def waiter? (s : System σ I γ α) (l : LockId) (t : TaskId) : Option (Standing σ I γ α) :=
  match s.tasks[t]? with
  | some (.waiting m resumed cancelled) =>
    if m = l then some (.awake (some l) resumed cancelled) else none
  | _ => none

/-- The task that has waited longest for a lock, and where it stands when it gets it. -/
def next? (s : System σ I γ α) (l : LockId) : Option (TaskId × Standing σ I γ α) :=
  s.line.findSome? fun t => (s.waiter? l t).map fun x => (t, x)

/-- Gives a lock back; the next task that waits for it gets it. -/
def release (s : System σ I γ α) (l : LockId) : System σ I γ α :=
  match s.next? l with
  | none => { s with locks := Assoc.erase l s.locks }
  | some (t, x) => { s.awaken t x with locks := Assoc.put l t s.locks }

/-! ## Turns -/

/-- Runs the program of a task until the task ends or stops. -/
def turn (env : Environment I ε γ) (t : TaskId) (p : Program σ I α) (s : System σ I γ α) (e : ε) :
    System σ I γ α × ε :=
  match p with
  | .done a => (s.finish t a, e)
  | .update f next => turn env t (next s.state) { s with state := f s.state } e
  | .ask c next => turn env t (next (env.reply c e).1) s (env.reply c e).2
  | .await c next =>
    match env.gate? c e with
    | none => turn env t (next (.value (env.reply c e).1)) s (env.reply c e).2
    | some g =>
      (s.stop t (.held g (next (.value (env.reply c e).1)) (next .cancelled)), (env.reply c e).2)
  | .acquire l next =>
    if (Assoc.get? l s.locks).isNone then
      turn env t (next (.value ())) { s with locks := Assoc.put l t s.locks } e
    else (s.stop t (.waiting l (next (.value ())) (next .cancelled)), e)
  | .release l next => turn env t (next ()) (s.release l) e

/-! ## Events -/

/-- The program with which a task goes on at its turn, if it is to have one. -/
def turn? (s : System σ I γ α) (t : TaskId) : Option (Program σ I α) :=
  match s.tasks[t]? with
  | some (.ready p) => some p
  | some (.awake _ p _) => some p
  | _ => none

/-- Where a task stands when a gate opens, if it is held back there. -/
def heldAt? [DecidableEq γ] (s : System σ I γ α) (g : γ) (t : TaskId) :
    Option (Standing σ I γ α) :=
  match s.tasks[t]? with
  | some (.held h resumed cancelled) => if h = g then some (.awake none resumed cancelled) else none
  | _ => none

/-- Awakens the tasks held back at a gate, in the order in which they stopped. -/
def openGate [DecidableEq γ] (s : System σ I γ α) (g : γ) : System σ I γ α :=
  (s.line.filterMap fun t => (s.heldAt? g t).map fun x => (t, x)).foldl
    (fun s w => s.awaken w.1 w.2) s

/-- Gives a lock back, if there is one, before `p`. -/
def yielding (lock : Option LockId) (p : Program σ I α) : Program σ I α :=
  match lock with
  | some l => .release l fun _ => p
  | none => p

/-- Cancels a task that has stopped, or one that was awakened and has not had its turn, which gives
back the lock that it got meanwhile. -/
def cancel (s : System σ I γ α) (t : TaskId) : System σ I γ α :=
  match s.tasks[t]? with
  | some (.held _ _ p) => s.awaken t (.ready p)
  | some (.waiting _ _ p) => s.awaken t (.ready p)
  | some (.awake lock _ p) => { s with tasks := s.tasks.set t (.ready (yielding lock p)) }
  | _ => s

def isEnded (s : System σ I γ α) (t : TaskId) : Bool :=
  match s.tasks[t]? with
  | some (.ended _) => true
  | _ => false

end System

end Registrar
