import Registrar.Proofs.Cache.Separate
import Registrar.Proofs.Client.Posting
import Registrar.Proofs.Client.Registering
import Registrar.Proofs.Schedule.Passing
import Registrar.Record.Shared

/-!
# Decoders and encoders that several tasks share

A decoder or an encoder that several tasks share is a turnstile: its lock is none of those that the
cache makes, and every call does all that it does inside the lock. Whatever the schedule, what the
calls come to is what they come to on the plain instance, one after another in the order in which
they asked for the lock, without those that were cancelled while they waited for it.
-/

namespace Registrar

open Client (direct)
open Exchange (Call)
open Routine (Apart)

variable {I : Interface} {ν α β : Type}

/-! ## Calls -/

namespace Decoder

/-- A call of a decoder. -/
inductive Request where
  | decode (data : Option Bytes)
  | decodeRecord (r : ConsumedRecord)
  | removeErrors
  | close
  deriving DecidableEq, Repr

/-- The result of a call of a decoder. -/
inductive Reply (ν : Type) where
  | value (v : Option ν)
  | record (r : DecodedRecord ν)
  | removed (n : Nat)
  | closed
  deriving Repr

def perform (d : Decoder I ν) : Request → Routine I (Reply ν)
  | .decode data => do return .value (← d.decode data)
  | .decodeRecord r => do return .record (← d.decodeRecord r)
  | .removeErrors => do return .removed (← d.removeErrors)
  | .close => do
    d.close
    return .closed

/-- The call that several tasks may make at once. -/
def share (d : Decoder I ν) : Request → Routine I (Reply ν)
  | .decode data => do return .value (← d.sharedDecode data)
  | .decodeRecord r => do return .record (← d.sharedDecodeRecord r)
  | .removeErrors => do return .removed (← d.sharedRemoveErrors)
  | .close => do
    d.sharedClose
    return .closed

end Decoder

namespace Encoder

/-- A call of an encoder. -/
inductive Request (ν : Type) where
  | encode (v : ν) (n : Naming)
  | encodeBytes (payload : Option Bytes) (n : Naming)
  | removeErrors
  | close

/-- The result of a call of an encoder. -/
inductive Reply where
  | bytes (b : Bytes)
  | removed (n : Nat)
  | closed
  deriving DecidableEq, Repr

def perform (e : Encoder I ν) : Request ν → Routine I Reply
  | .encode v n => do return .bytes (← e.encode v n)
  | .encodeBytes payload n => do return .bytes (← e.encodeBytes payload n)
  | .removeErrors => do return .removed (← e.removeErrors)
  | .close => do
    e.close
    return .closed

/-- The call that several tasks may make at once. -/
def share (e : Encoder I ν) : Request ν → Routine I Reply
  | .encode v n => do return .bytes (← e.sharedEncode v n)
  | .encodeBytes payload n => do return .bytes (← e.sharedEncodeBytes payload n)
  | .removeErrors => do return .removed (← e.sharedRemoveErrors)
  | .close => do
    e.sharedClose
    return .closed

end Encoder

/-! ## Inside the lock -/

theorem run_shared_bind (x : Routine I α) (f : α → β) :
    (Routine.shared x >>= fun a => pure (f a)).run = .acquire State.sharedLock fun
      | .value () => (x >>= fun a => pure (f a)).run.bind fun r =>
        .release State.sharedLock fun _ => .done r
      | .cancelled => .done (.error .cancelled) := by
  rw [Routine.run_bind, Routine.shared, Routine.run_holding]
  show Program.acquire _ _ = _
  congr 1
  funext w
  cases w with
  | value u =>
    show Program.bind (Program.bind _ _) _ = _
    rw [Program.bind_assoc, Routine.run_bind, Program.bind_assoc]
    congr 1
    funext r
    cases r <;> rfl
  | cancelled => rfl

theorem Decoder.run_share (d : Decoder I ν) (k : Decoder.Request) :
    (d.share k).run = .acquire State.sharedLock fun
      | .value () => (d.perform k).run.bind fun r => .release State.sharedLock fun _ => .done r
      | .cancelled => .done (.error .cancelled) := by
  cases k <;> exact run_shared_bind _ _

theorem Encoder.run_share (e : Encoder I ν) (k : Encoder.Request ν) :
    (e.share k).run = .acquire State.sharedLock fun
      | .value () => (e.perform k).run.bind fun r => .release State.sharedLock fun _ => .done r
      | .cancelled => .done (.error .cancelled) := by
  cases k <;> exact run_shared_bind _ _

/-! ## Other locks -/

theorem apart_logged {x : Routine I α} (h : Apart State.sharedLock Cache.Separate x)
    (logging : Routine.Logging) :
    Apart State.sharedLock Cache.Separate (Routine.logged logging x) :=
  h.logged (fun _ _ same separate =>
    separate.of_locksKept (Cache.Lookup.locksKept_of_sameCache _ _ same)) logging

theorem Cache.apart_removeErrors :
    Apart State.sharedLock Cache.Separate (Cache.removeErrors : Routine I Nat) := by
  refine Cache.apart_of_keeps ?_
  refine Routine.Keeps.bind (Cache.Lookup.keeps_change fun _ => ⟨rfl, rfl, rfl⟩) fun c => ?_
  dsimp only
  split
  · exact ((Routine.keeps_note ..).mono Cache.Lookup.locksKept_of_sameCache).bind fun _ =>
      Routine.keeps_pure _
  · exact Routine.keeps_pure _

namespace Client

variable (settings : Settings)

theorem apart_resolveReference (r : RegisteredReference) :
    Apart State.sharedLock Cache.Separate ((direct settings).resolveReference r) :=
  Cache.apart_getOrLoad _ (keeps_fetchReference settings r)

theorem apart_search (limit : Nat) (agenda : List Closure.Item) (f : Closure.Found) :
    Apart State.sharedLock Cache.Separate
      (Closure.search limit (direct settings).resolveReference agenda f) := by
  fun_induction Closure.search limit (direct settings).resolveReference agenda f with
  | case1 f => exact Routine.apart_pure _
  | case2 f i rest seen ih => exact ih
  | case3 f i rest seen followed x hx ih => exact ih
  | case4 f i rest seen followed hx => exact Routine.apart_throw _
  | case5 f i rest seen followed deep => exact Routine.apart_throw _
  | case6 f i rest seen followed deep ih =>
    exact (apart_resolveReference settings i.reference).bind fun x => ih x

theorem apart_resolveReferences (x : RegisteredSchema) :
    Apart State.sharedLock Cache.Separate ((direct settings).resolveReferences x) :=
  apart_search settings _ _ _

theorem apart_payload (message : String) (r : Except Failure α) :
    Apart State.sharedLock Cache.Separate (payload message r : Routine I α) := by
  rcases r with (e | e | _) | a
  · exact Routine.apart_throw _
  · exact Routine.apart_throw _
  · exact Routine.apart_throw _
  · exact Routine.apart_pure a

theorem apart_close : Apart State.sharedLock Cache.Separate (direct settings).close :=
  Cache.apart_of_keeps (Routine.keeps_await (I := Exchange.interface) Call.close)

end Client

open Client (apart_resolveReferences apart_payload apart_close)

variable (settings : Settings) (codec : Codec ν)

theorem Decoder.apart_getSchema (id : Int) : Apart State.sharedLock Cache.Separate
    ((⟨direct settings, codec⟩ : Decoder Exchange.interface ν).getSchema id) := by
  unfold getSchema operation
  exact apart_logged (Cache.apart_getOrLoad _ (Client.keeps_fetchById settings id)) _

theorem Decoder.apart_removeErrors (d : Decoder I ν) :
    Apart State.sharedLock Cache.Separate d.removeErrors := by
  unfold removeErrors operation
  exact apart_logged Cache.apart_removeErrors _

theorem Decoder.apart_decode (data : Option Bytes) : Apart State.sharedLock Cache.Separate
    ((⟨direct settings, codec⟩ : Decoder Exchange.interface ν).decode data) := by
  unfold decode
  split
  · exact Routine.apart_pure _
  · exact Routine.apart_throw _
  · refine (apart_getSchema settings codec _).bind fun schema => ?_
    refine (apart_resolveReferences settings schema).bind fun references => ?_
    exact (apart_payload _ _).bind fun value => Routine.apart_pure _

theorem Decoder.apart_perform (k : Decoder.Request) : Apart State.sharedLock Cache.Separate
    ((⟨direct settings, codec⟩ : Decoder Exchange.interface ν).perform k) := by
  cases k with
  | decode data => exact (apart_decode settings codec data).bind fun _ => Routine.apart_pure _
  | decodeRecord r =>
    refine Apart.bind ?_ fun _ => Routine.apart_pure _
    refine (apart_decode settings codec r.key).bind fun key => ?_
    exact (apart_decode settings codec r.value).bind fun value => Routine.apart_pure _
  | removeErrors => exact (apart_removeErrors _).bind fun _ => Routine.apart_pure _
  | close => exact (apart_close settings).bind fun _ => Routine.apart_pure _

theorem Encoder.apart_getSchema (n : Naming) : Apart State.sharedLock Cache.Separate
    ((⟨direct settings, codec⟩ : Encoder Exchange.interface ν).getSchema n) := by
  unfold getSchema operation
  exact apart_logged (Cache.apart_getOrLoad _ (Client.keeps_fetchBySubject settings n)) _

theorem Encoder.apart_removeErrors (e : Encoder I ν) :
    Apart State.sharedLock Cache.Separate e.removeErrors := by
  unfold removeErrors operation
  exact apart_logged Cache.apart_removeErrors _

theorem Encoder.apart_frame (x : RegisteredSchema) (payload : Option Bytes) :
    Apart State.sharedLock Cache.Separate (frame x payload : Routine I Bytes) :=
  Routine.apart_ofExcept _

theorem Encoder.apart_encode (v : ν) (n : Naming) : Apart State.sharedLock Cache.Separate
    ((⟨direct settings, codec⟩ : Encoder Exchange.interface ν).encode v n) := by
  unfold encode
  refine (apart_getSchema settings codec n).bind fun schema => ?_
  refine (apart_resolveReferences settings schema).bind fun references => ?_
  exact (apart_payload _ _).bind fun payload => apart_frame schema (some payload)

theorem Encoder.apart_encodeBytes (payload : Option Bytes) (n : Naming) :
    Apart State.sharedLock Cache.Separate
      ((⟨direct settings, codec⟩ : Encoder Exchange.interface ν).encodeBytes payload n) := by
  unfold encodeBytes
  exact (apart_getSchema settings codec n).bind fun schema => apart_frame schema payload

theorem Encoder.apart_perform (k : Encoder.Request ν) : Apart State.sharedLock Cache.Separate
    ((⟨direct settings, codec⟩ : Encoder Exchange.interface ν).perform k) := by
  cases k with
  | encode v n => exact (apart_encode settings codec v n).bind fun _ => Routine.apart_pure _
  | encodeBytes payload n =>
    exact (apart_encodeBytes settings codec payload n).bind fun _ => Routine.apart_pure _
  | removeErrors => exact (apart_removeErrors _).bind fun _ => Routine.apart_pure _
  | close => exact (apart_close settings).bind fun _ => Routine.apart_pure _

/-! ## Facades -/

/-- What several tasks share: a decoder or an encoder that hands its calls to the world. -/
inductive Facade (ν : Type) where
  | decoder (settings : Settings) (codec : Codec ν)
  | encoder (settings : Settings) (codec : Codec ν)

namespace Facade

def Request : Facade ν → Type
  | .decoder _ _ => Decoder.Request
  | .encoder _ _ => Encoder.Request ν

def Reply : Facade ν → Type
  | .decoder _ _ => Decoder.Reply ν
  | .encoder _ _ => Encoder.Reply

/-- A call of the plain instance. -/
def perform : (F : Facade ν) → F.Request → Routine Exchange.interface F.Reply
  | .decoder settings codec => (⟨direct settings, codec⟩ : Decoder _ ν).perform
  | .encoder settings codec => (⟨direct settings, codec⟩ : Encoder _ ν).perform

/-- A call of the shared instance. -/
def share : (F : Facade ν) → F.Request → Routine Exchange.interface F.Reply
  | .decoder settings codec => (⟨direct settings, codec⟩ : Decoder _ ν).share
  | .encoder settings codec => (⟨direct settings, codec⟩ : Encoder _ ν).share

theorem apart_perform (F : Facade ν) (k : F.Request) :
    Apart State.sharedLock Cache.Separate (F.perform k) := by
  cases F with
  | decoder settings codec => exact Decoder.apart_perform settings codec k
  | encoder settings codec => exact Encoder.apart_perform settings codec k

/-- Calls of the instance pass its lock one at a time. -/
def turnstile (F : Facade ν) :
    Turnstile F.Request State Exchange.interface (Except Failure F.Reply) where
  lock := State.sharedLock
  body k := (F.perform k).run
  refused := .error .cancelled
  Fit := Cache.Separate
  apart k := (F.apart_perform k).program

theorem run_share (F : Facade ν) (k : F.Request) : (F.share k).run = F.turnstile.program k := by
  cases F with
  | decoder settings codec => exact Decoder.run_share _ k
  | encoder settings codec => exact Encoder.run_share _ k

/-! ## Schedules -/

variable {γ ε : Type} (F : Facade ν) (w : Program.World Exchange.interface ε)

/-- Tasks, each of which makes one call, before a world that notes what is asked of it. -/
abbrev Scene (F : Facade ν) (γ ε : Type) :=
  Registrar.Scene F.Request State Exchange.interface γ (ε × List Call) (Except Failure F.Reply)

/-- A step of such tasks. Tasks are cancelled only while they wait for the lock of the instance. -/
abbrev Step [DecidableEq γ] : F.Scene γ ε → F.Scene γ ε → Prop :=
  Scene.Step (fun k => (F.share k).run) w.noting fun s t => s.Waits State.sharedLock t

/-- A scene that is reached from one without tasks. -/
abbrev Reached [DecidableEq γ] (s : State) (e : ε) (m : F.Scene γ ε) : Prop :=
  Relation.ReflTransGen (F.Step w) (.initial s (e, [])) m

/-- The calls of tasks are made one after another on the plain instance. -/
def inTurn (m : F.Scene γ ε) (ts : List TaskId) (s : State) (e : ε) :
    List (Except Failure F.Reply) × State × ε × List Call :=
  Program.runEach w.noting (fun k => (F.perform k).run) (ts.filterMap fun t => m.calls[t]?) s
    (e, [])

/-- The calls of the tasks `past` have been made as if one after another on the plain instance, and
those of the tasks `later` are still to be made. -/
structure InOrder (s : State) (e : ε) (m : F.Scene γ ε) (past later : List TaskId) : Prop where
  /-- This is the order in which the tasks that were not cancelled asked for the lock. -/
  asked : Event.admitted m.history = past ++ later
  results : (past.map fun t => m.system.tasks[t]?) =
    (F.inTurn w m past s e).1.map fun r => some (.ended r)
  /-- The tasks also ended in this order. -/
  ended : (m.system.results.map Prod.fst).filter (fun t => .cancel t ∉ m.history) = past
  cancelled : ∀ (t : TaskId) r, m.system.tasks[t]? = some (.ended r) → t ∉ past →
    r = .error .cancelled ∧ .cancel t ∈ m.history
  /-- The state and the world, with the calls that it received. -/
  settled : (∀ t, ¬m.system.Inside State.sharedLock t) →
    m.system.state = (F.inTurn w m past s e).2.1 ∧ m.world = (F.inTurn w m past s e).2.2
  complete : (∀ x ∈ m.system.tasks, ∃ r, x = .ended r) → later = []

/-- Calls of a shared instance, at most one of which is inside at a time, come to what the calls
that are not cancelled come to when they are made one after another, in the order in which they
asked for the lock. A cancelled call changes nothing and calls nobody at any of its turns. When no
task can go on and none is held back inside, all have ended. -/
theorem linearizable [DecidableEq γ] (threshold : Level) (keepRetriable : Bool) (e : ε)
    {m : F.Scene γ ε} (reached : F.Reached w (State.initial threshold keepRetriable) e m) :
    (∀ t u, m.system.Inside State.sharedLock t → m.system.Inside State.sharedLock u → t = u) ∧
    (∀ gate t, let m' := m.advance w.noting gate t
      (m'.system.state = m.system.state ∧ m'.world = m.world) ∨
        (∀ u, m.system.Inside State.sharedLock u → u = t) ∧
          ∀ m'', Relation.ReflTransGen (F.Step w) m' m'' → .cancel t ∉ m''.history) ∧
    (∃ past later, F.InOrder w (State.initial threshold keepRetriable) e m past later) ∧
    ((∀ t, m.system.turn? t = none) →
      (∀ (t : TaskId) g p q, m.system.tasks[t]? ≠ some (.held g p q)) →
        ∀ x ∈ m.system.tasks, ∃ r, x = .ended r) := by
  have program : (fun k => (F.share k).run) = F.turnstile.program := funext F.run_share
  have fit : F.turnstile.Fit (State.initial threshold keepRetriable) :=
    Cache.Separate.initial threshold keepRetriable
  unfold Reached Step at reached
  unfold Step
  rw [program] at reached ⊢
  obtain ⟨past, front, h⟩ := Turnstile.Queued.of_reached fit reached
  refine ⟨fun t u => h.inside_unique, fun gate t => h.advance_quiet gate t, ?_, ?_⟩
  · exact ⟨past, _, h.admitted, h.passed, h.ended, fun t r => h.refused, h.settled, h.nobody_left⟩
  · exact fun idle gates x => h.progress idle gates

/-! ### Three tasks -/

/-- A decoder that passes payloads through. -/
def passing : Facade Value := .decoder Client.bare Codec.raw

/-- The first task is inside, where it waits for a reply; the other two wait for the lock. -/
def crowd : passing.Scene Unit Unit :=
  let program (k : Decoder.Request) := (passing.share k).run
  let w := Posting.unreachable.noting
  let entered := (((Scene.initial (State.initial Level.info false) ((), [])).enter program
    (.decode (some [0, 0, 0, 0, 1]))).enter program .removeErrors).enter program (.decode none)
  ((entered.advance w (fun _ _ => some ()) 0).advance w (fun _ _ => none) 1).advance w
    (fun _ _ => none) 2

/-- The second task is cancelled, then the others go on. -/
def dispersed : passing.Scene Unit Unit :=
  let w := Posting.unreachable.noting
  (((crowd.cancel 1).openGate ()).advance w (fun _ _ => none) 0).advance w (fun _ _ => none) 1
    |>.advance w (fun _ _ => none) 2

theorem crowd_reached :
    passing.Reached Posting.unreachable (State.initial Level.info false) () crowd := by
  have start : passing.Reached (γ := Unit) Posting.unreachable (State.initial Level.info false) ()
      (.initial _ _) := .refl
  have first := Scene.Reached.enter start
    (.decode (some [0, 0, 0, 0, 1]) : Decoder.Request)
  have entered := (first.enter (.removeErrors : Decoder.Request)).enter
    (.decode none : Decoder.Request)
  exact ((entered.advance (fun _ _ => some ()) 0).advance (fun _ _ => none) 1).advance
    (fun _ _ => none) 2

theorem dispersed_reached :
    passing.Reached Posting.unreachable (State.initial Level.info false) () dispersed := by
  have waits : (crowd.system.waiter? State.sharedLock 1).isSome = true := by decide +kernel
  obtain ⟨p, q, stands⟩ := Turnstile.isSome_waiter?.1 waits
  have dropped := (Scene.Reached.cancel crowd_reached ⟨p, q, .inl stands⟩).openGate ()
  exact ((dropped.advance (fun _ _ => none) 0).advance (fun _ _ => none) 1).advance
    (fun _ _ => none) 2

/-- The calls of the first and the third task are made. -/
theorem linearizable_of_three :
    passing.Reached Posting.unreachable (State.initial Level.info false) () dispersed ∧
      passing.InOrder Posting.unreachable (State.initial Level.info false) () dispersed
        [0, 2] [] := by
  obtain ⟨past, later, order⟩ :=
    (linearizable _ Posting.unreachable Level.info false () dispersed_reached).2.2.1
  have results : dispersed.system.tasks.all (·.result?.isSome) = true := by decide +kernel
  have ended : ∀ x ∈ dispersed.system.tasks, ∃ r, x = .ended r := by
    intro x hx
    have := List.all_eq_true.1 results x hx
    cases x <;> simp_all [Standing.result?]
  obtain rfl := order.complete ended
  have asked : Event.admitted dispersed.history = [0, 2] := by decide +kernel
  obtain rfl : past = [0, 2] := by simpa using order.asked.symm.trans asked
  exact ⟨dispersed_reached, order⟩

end Facade

end Registrar
