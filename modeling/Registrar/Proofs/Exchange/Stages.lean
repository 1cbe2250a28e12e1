import Mathlib.Logic.Relation
import Registrar.Exchange.Session
import Registrar.Schedule.Settling

/-!
# Tasks among their sessions

The session transport is used by many tasks at once. A request suspends while its reply is under
way, and `close` while the session is being closed; meanwhile other tasks have their turns, and a
session may become closed by itself. A stage is the system of these tasks with the sessions that it
has started. It changes by whole turns, and between them by tasks that are spawned or cancelled,
replies that come and sessions that become closed.

Nothing is said about the order of turns, about how long anything takes or about when a session that
is being closed begins to report so, except that it does when `close` goes on. `settle_steps` says
that what `System.settle` computes consists of such steps.
-/

namespace Registrar

/-- The task waits behind a gate, or has not had its turn since the gate opened. -/
def Standing.suspended {σ : Type} {I : Interface} {γ α : Type} : Standing σ I γ α → Bool
  | .held .. | .awake .. => true
  | _ => false

namespace Session

/-! ## Sessions -/

/-- The sessions that have been started, which are numbered from 0, and which of them report that
they are closed. -/
structure Pool where
  started : SessionId
  closed : List SessionId

namespace Pool

/-- No session has been started. -/
def empty : Pool := ⟨0, []⟩

def Open (e : Pool) (s : SessionId) : Prop := s < e.started ∧ s ∉ e.closed

instance (e : Pool) (s : SessionId) : Decidable (e.Open s) :=
  inferInstanceAs (Decidable (s < e.started ∧ s ∉ e.closed))

/-- One more session. -/
def start (e : Pool) : Pool := { e with started := e.started + 1 }

def shut (e : Pool) (s : SessionId) : Pool := { e with closed := s :: e.closed }

/-- No session was started; some may have become closed. -/
structure Wanes (e e' : Pool) : Prop where
  started : e'.started = e.started
  closed : ∀ s ∈ e.closed, s ∈ e'.closed

theorem Wanes.refl (e : Pool) : e.Wanes e := ⟨rfl, fun _ h => h⟩

theorem Wanes.of_open {e e' : Pool} (h : e.Wanes e') {s : SessionId} (hs : e'.Open s) :
    e.Open s :=
  ⟨h.started ▸ hs.1, fun closed => hs.2 (h.closed s closed)⟩

theorem wanes_shut (e : Pool) (s : SessionId) : e.Wanes (e.shut s) :=
  ⟨rfl, fun _ h => .tail _ h⟩

/-- Whatever is open when one has been started was open before or is the new one. -/
theorem open_of_start {e : Pool} {s : SessionId} (h : e.start.Open s) :
    e.Open s ∨ s = e.started := by
  rcases Nat.lt_succ_iff_lt_or_eq.1 h.1 with lt | eq
  · exact .inl ⟨lt, h.2⟩
  · exact .inr eq

end Pool

/-- Where a task waits: until a session is closed, or for a reply. -/
inductive Gate where
  | closing (s : SessionId)
  | reply (n : Nat)
  deriving DecidableEq

/-- Sessions are started at once, report that they are closed from some time on, and may become
closed during any call. Closing one may take time, and ends when it reports that it is closed. -/
structure Faithful (env : Environment interface Pool Gate) : Prop where
  start : ∀ headers login (e : Pool),
    env.reply (.start headers login) e = (e.started, e.start)
  isClosed : ∀ s (e : Pool), env.reply (.isClosed s) e = (!decide (e.Open s), e)
  send : ∀ r (e : Pool), e.Wanes (env.reply (.send r) e).2
  close : ∀ s (e : Pool), e.Wanes (env.reply (.close s) e).2
  prompt : ∀ s e, env.gate? (.close s) e = none → ¬(env.reply (.close s) e).2.Open s
  delayed : ∀ s e g, env.gate? (.close s) e = some g → g = .closing s

/-! ## Tasks -/

/-- What a task demands of the transport. -/
inductive Demand where
  | get (url : Text)
  | post (url : Text) (body : Bytes)
  | close
  deriving DecidableEq

/-- What a task ends with. -/
abbrev Outcome := Except Failure (Option Response)

/-- The program of a task. -/
def Demand.program (login : Option Login) (timeout : Option Number) :
    Demand → Program State interface Outcome
  | .get url => (do return some (← (transport direct login timeout).get url) : Routine _ _).run
  | .post url body =>
    (do return some (← (transport direct login timeout).post url body) : Routine _ _).run
  | .close => (do (transport direct login timeout).close; return none : Routine _ _).run

/-- The tasks at some time, and the sessions. -/
structure Stage where
  /-- What each task was spawned for. -/
  calls : List Demand
  system : System State interface Gate Outcome
  pool : Pool
  /-- The tasks that have had a turn, in the order of their first ones. -/
  begun : List TaskId
  /-- The sessions that were started while a session was being closed. -/
  strays : List SessionId

namespace Stage

def initial (start : State) : Stage := ⟨[], System.initial start, .empty, [], []⟩

/-- Some `close` is suspended while a session is being closed. -/
def Closing (m : Stage) : Prop :=
  ∃ t < m.calls.length, m.calls[t]? = some .close ∧ m.system.tasks[t]?.any Standing.suspended

instance (m : Stage) : Decidable m.Closing :=
  inferInstanceAs (Decidable (∃ t < m.calls.length, _))

/-- The stage after a turn of a task. -/
def turned (m : Stage) (t : TaskId) (out : System State interface Gate Outcome × Pool) :
    Stage where
  calls := m.calls
  system := out.1
  pool := out.2
  begun := if t ∈ m.begun then m.begun else m.begun ++ [t]
  strays :=
    if m.Closing then m.strays ++ List.range' m.pool.started (out.2.started - m.pool.started)
    else m.strays

section

variable (login : Option Login) (timeout : Option Number)

/-- A turn of a task, or an event between turns. -/
inductive Step : Stage → Stage → Prop where
  | spawn (m : Stage) (k : Demand) :
    Step m { m with calls := m.calls ++ [k], system := m.system.spawn (k.program login timeout) }
  | reorder (m : Stage) (queue : List TaskId) :
    Step m { m with system := { m.system with queue := queue } }
  /-- The reply is there, or the session is closed. -/
  | openGate (m : Stage) (g : Gate) (done : ∀ s, g = .closing s → ¬m.pool.Open s) :
    Step m { m with system := m.system.openGate g }
  | cancel (m : Stage) (t : TaskId) : Step m { m with system := m.system.cancel t }
  /-- A session becomes closed. -/
  | shut (m : Stage) (s : SessionId) : Step m { m with pool := m.pool.shut s }
  | turn (m : Stage) {env : Environment interface Pool Gate} (faithful : Faithful env) {t : TaskId}
    {p : Program State interface Outcome} (ready : m.system.turn? t = some p) :
    Step m (m.turned t (m.system.turn env t p m.pool))

/-- A stage that is reached from one without tasks and sessions. -/
def Reached (start : State) : Stage → Prop :=
  Relation.ReflTransGen (Step login timeout) (initial start)

end

end Stage

/-- The turns that a system computes are steps. -/
theorem Stage.settle_steps {env : Environment interface Pool Gate} (faithful : Faithful env)
    (login : Option Login) (timeout : Option Number) (m : Stage) :
    ∃ m', Relation.ReflTransGen (Step login timeout) m m' ∧ m'.calls = m.calls ∧
      (m'.system, m'.pool) = m.system.settle env m.pool := by
  generalize hs : m.system = s
  generalize he : m.pool = e
  fun_induction System.settle env s e generalizing m with
  | case1 => exact ⟨m, .refl, rfl, by rw [hs, he]⟩
  | case2 s e t rest hq p ht r ih =>
    subst hs he
    let first : Stage := { m with system := { m.system with queue := rest } }
    obtain ⟨m', steps, calls, settled⟩ := ih (first.turned t r) rfl rfl
    exact ⟨m', .head (.reorder m rest) (.head (.turn first faithful ht) steps), calls, settled⟩
  | case3 s e t rest hq ht ih =>
    subst hs he
    let later : Stage := { m with system := { m.system with queue := rest } }
    obtain ⟨m', steps, calls, settled⟩ := ih later rfl rfl
    exact ⟨m', .head (.reorder m rest) steps, calls, settled⟩

/-! ## Moves -/

namespace Stage

/-- Spawns a task. -/
def enter (k : Demand) (m : Stage) : Stage :=
  { m with calls := m.calls ++ [k], system := m.system.spawn (k.program none none) }

def openGate (g : Gate) (m : Stage) : Stage := { m with system := m.system.openGate g }

/-- Gives a task a turn, if it is ready for one. -/
def advance (env : Environment interface Pool Gate) (t : TaskId) (m : Stage) : Stage :=
  match m.system.turn? t with
  | some p => m.turned t (m.system.turn env t p m.pool)
  | none => m

section

variable {login : Option Login} {timeout : Option Number} {start : State} {m : Stage}

theorem Reached.enter (h : Reached none none start m) (k : Demand) :
    Reached none none start (m.enter k) :=
  .tail h (.spawn m k)

theorem Reached.closes (h : Reached login timeout start m) {s : SessionId}
    (done : ¬m.pool.Open s) : Reached login timeout start (m.openGate (.closing s)) :=
  .tail h (.openGate m _ fun _ e => Gate.closing.inj e ▸ done)

theorem Reached.advance (h : Reached login timeout start m)
    {env : Environment interface Pool Gate} (faithful : Faithful env) (t : TaskId) :
    Reached login timeout start (m.advance env t) := by
  unfold Stage.advance
  split
  · rename_i p ready
    exact .tail h (.turn m faithful ready)
  · exact h

end

end Stage

end Session

end Registrar
