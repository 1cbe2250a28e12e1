import Mathlib.Data.List.Induction
import Registrar.Proofs.Program.Apart
import Registrar.Proofs.Schedule.Scenes

/-!
# Turnstiles

A turnstile is a lock inside which each of several calls does all that it does. The body of a call
may take other locks and wait for replies, but leaves the lock of the turnstile alone. A turn inside
the lock does to the state and the world what the same part of the body does when it runs alone
(`turned`).

Those who wait for the lock stand in the line in the order in which they asked for it, and whoever
has the lock hands it over to the first of them when it ends (`handsOver`). Who asked, and in which
order, is read off the history: a call asks for the lock at its first turn.
-/

namespace Registrar

variable {κ σ : Type} {I : Interface} {γ ε α : Type}

/-! ## The order of first turns -/

namespace Event

def task : Event → TaskId
  | .turn t => t
  | .cancel t => t

theorem mem_concat {h : List Event} {ev ev' : Event} (ne : ev'.task ≠ ev.task) :
    ev' ∈ h ++ [ev] ↔ ev' ∈ h := by
  have : ev' ≠ ev := fun same => ne (congrArg task same)
  simp [this]

/-- Adds the task that has a turn to those that have had one. -/
def addTurn (ts : List TaskId) : Event → List TaskId
  | .turn t => if t ∈ ts then ts else ts ++ [t]
  | .cancel _ => ts

/-- The tasks that have had a turn, in the order of their first turns. -/
def firstTurns (h : List Event) : List TaskId := h.foldl addTurn []

/-- Those of them that have not been cancelled. -/
def admitted (h : List Event) : List TaskId := (firstTurns h).filter fun t => .cancel t ∉ h

variable {h : List Event} {t u : TaskId}

theorem firstTurns_turn (h : List Event) (t : TaskId) :
    firstTurns (h ++ [.turn t]) =
      if t ∈ firstTurns h then firstTurns h else firstTurns h ++ [t] := by
  rw [firstTurns, List.foldl_append]
  rfl

theorem firstTurns_cancel (h : List Event) (t : TaskId) :
    firstTurns (h ++ [.cancel t]) = firstTurns h := by
  rw [firstTurns, List.foldl_append]
  rfl

theorem mem_firstTurns : t ∈ firstTurns h ↔ .turn t ∈ h := by
  induction h using List.reverseRecOn with
  | nil => simp [firstTurns]
  | append_singleton h ev ih =>
    cases ev with
    | turn u =>
      rw [firstTurns_turn]
      split <;> grind
    | cancel u => simpa [firstTurns_cancel] using ih

theorem nodup_firstTurns (h : List Event) : (firstTurns h).Nodup := by
  induction h using List.reverseRecOn with
  | nil => exact List.nodup_nil
  | append_singleton h ev ih =>
    cases ev with
    | turn t =>
      rw [firstTurns_turn]
      split
      · exact ih
      · rename_i new
        exact List.nodup_append.2 ⟨ih, by simp, by grind⟩
    | cancel t => rwa [firstTurns_cancel]

theorem mem_admitted : t ∈ admitted h ↔ .turn t ∈ h ∧ .cancel t ∉ h := by
  simp [admitted, mem_firstTurns]

theorem nodup_admitted (h : List Event) : (admitted h).Nodup := (nodup_firstTurns h).filter _

theorem admitted_turn_of_mem (ht : .turn t ∈ h) : admitted (h ++ [.turn t]) = admitted h := by
  simp [admitted, firstTurns_turn, mem_firstTurns.2 ht]

/-- A cancelled task is not admitted. -/
theorem admitted_turn_of_cancelled (cancelled : .cancel t ∈ h) :
    admitted (h ++ [.turn t]) = admitted h := by
  rw [admitted, firstTurns_turn]
  split <;> simp [admitted, cancelled]

theorem admitted_turn_of_new (new : .turn t ∉ h) (alive : .cancel t ∉ h) :
    admitted (h ++ [.turn t]) = admitted h ++ [t] := by
  simp [admitted, firstTurns_turn, mem_firstTurns.not.2 new, alive]

theorem admitted_cancel (h : List Event) (t : TaskId) :
    admitted (h ++ [.cancel t]) = (admitted h).filter (· ≠ t) := by
  simp only [admitted, firstTurns_cancel, List.filter_filter]
  congr 1
  funext u
  grind

end Event

namespace System

/-- The task waits for the lock, or has just got it. -/
def Waits (s : System σ I γ α) (l : LockId) (t : TaskId) : Prop :=
  ∃ p q, s.tasks[t]? = some (.waiting l p q) ∨ s.tasks[t]? = some (.awake (some l) p q)

/-- The task has stopped, but not before the lock. -/
def Inside (s : System σ I γ α) (l : LockId) (t : TaskId) : Prop :=
  match s.tasks[t]? with
  | some (.held _ _ _) => True
  | some (.awake m _ _) => m ≠ some l
  | some (.waiting m _ _) => m ≠ l
  | _ => False

/-- A task that has its turn was ready or awakened. -/
theorem stands_of_turn? {s : System σ I γ α} {t : TaskId} {p : Program σ I α}
    (h : s.turn? t = some p) :
    s.tasks[t]? = some (.ready p) ∨ ∃ l q, s.tasks[t]? = some (.awake l p q) := by
  unfold turn? at h
  split at h
  · rename_i hx
    cases h
    exact .inl hx
  · rename_i hx
    cases h
    exact .inr ⟨_, _, hx⟩
  · cases h

theorem cancel_tasks_of_ne (s : System σ I γ α) {t u : TaskId} (ne : t ≠ u) :
    (s.cancel u).tasks[t]? = s.tasks[t]? := by
  unfold cancel
  split <;> simp [awaken, List.getElem?_set_ne (Ne.symm ne)]

/-- A turn leaves the other tasks where they are, unless they wait for a lock. -/
theorem turn_tasks_of_free (env : Environment I ε γ) {t u : TaskId} (ne : t ≠ u)
    {p : Program σ I α} {s : System σ I γ α} {e : ε} (free : s.Free t) :
    (s.turn env u p e).1.tasks[t]? = s.tasks[t]? := by
  induction p generalizing s e with
  | done a => exact List.getElem?_set_ne (Ne.symm ne)
  | update f next ih => exact ih s.state (s := { s with state := f s.state }) free
  | ask c next ih => exact ih _ free
  | await c next ih =>
    unfold turn
    split
    · exact ih _ free
    · exact List.getElem?_set_ne (Ne.symm ne)
  | acquire l next ih =>
    unfold turn
    split
    · exact ih _ (s := { s with locks := Assoc.put l u s.locks }) free
    · exact List.getElem?_set_ne (Ne.symm ne)
  | release l next ih =>
    refine (ih () (free_release free l)).trans ?_
    exact (s.tasks_release l t).resolve_right fun ⟨p, q, waits, _⟩ => free l p q waits

end System

/-! ## One after another -/

namespace Program

variable (w : World I ε) (program : κ → Program σ I α)

/-- Runs the programs of calls, each of them alone. -/
def runEach : List κ → σ → ε → List α × σ × ε
  | [], s, e => ([], s, e)
  | k :: ks, s, e =>
    let first := (program k).run w s e
    let others := runEach ks first.2.1 first.2.2
    (first.1 :: others.1, others.2)

theorem runEach_append (ks : List κ) (k : κ) (s : σ) (e : ε) :
    runEach w program (ks ++ [k]) s e =
      let before := runEach w program ks s e
      let last := (program k).run w before.2.1 before.2.2
      (before.1 ++ [last.1], last.2) := by
  induction ks generalizing s e with
  | nil => rfl
  | cons k' ks ih =>
    simp only [List.cons_append, runEach]
    rw [ih]

end Program

/-! ## Turnstiles -/

/-- Calls that do what they do inside one lock. -/
structure Turnstile (κ σ : Type) (I : Interface) (α : Type) where
  lock : LockId
  /-- What a call does inside the lock. -/
  body : κ → Program σ I α
  /-- How a call ends that is cancelled while it waits. -/
  refused : α
  Fit : σ → Prop
  apart : ∀ k, (body k).Apart lock Fit none

namespace Turnstile

variable (T : Turnstile κ σ I α)

/-- Gives the lock back and ends. -/
def leave (a : α) : Program σ I α := .release T.lock fun _ => .done a

/-- What is left of a call that has the lock. -/
def inside (k : κ) : Program σ I α := (T.body k).bind T.leave

/-- The program of a call. -/
def program (k : κ) : Program σ I α :=
  .acquire T.lock fun
    | .value () => T.inside k
    | .cancelled => .done T.refused

/-! ## Inside the lock -/

/-- The task holds the lock, and besides the lock `held`, if any; no other lock is taken. -/
def Holds (t : TaskId) (held : Option LockId) (locks : Assoc LockId TaskId) : Prop :=
  ∀ l, Assoc.get? l locks = if l = T.lock ∨ held = some l then some t else none

/-- No task has moved or ended. -/
structure SameTasks (s s' : System σ I γ α) : Prop where
  tasks : s'.tasks = s.tasks
  line : s'.line = s.line
  results : s'.results = s.results

theorem SameTasks.refl (s : System σ I γ α) : SameTasks s s := ⟨rfl, rfl, rfl⟩

theorem SameTasks.trans {s s' s₂ : System σ I γ α} (h : SameTasks s s') (h' : SameTasks s' s₂) :
    SameTasks s s₂ :=
  ⟨h'.tasks.trans h.tasks, h'.line.trans h.line, h'.results.trans h.results⟩

/-- Whoever waits for a lock waits for this one. -/
def Only (s : System σ I γ α) : Prop :=
  ∀ (t : TaskId) l p q, s.tasks[t]? = some (.waiting l p q) → l = T.lock

/-- A turn inside the lock, from `s` and `e` on. Until it ends or stops, only the state, the world
and the other locks change; it ends as the rest of the body does when it runs alone, or what it
leaves of the body does. -/
inductive Turned (w : Program.World I ε) (t : TaskId) (p : Program σ I α) (s : System σ I γ α)
    (e : ε) : System σ I γ α × ε → Prop where
  | through (s' : System σ I γ α) (e' : ε) (a : α) (same : SameTasks s s')
    (holds : T.Holds t none s'.locks) (fit : T.Fit s'.state)
    (runs : p.run w s.state e = (a, s'.state, e')) :
    Turned w t p s e ((s'.release T.lock).finish t a, e')
  | stopped (s' : System σ I γ α) (e' : ε) (g : γ) (p' q : Program σ I α) (held : Option LockId)
    (same : SameTasks s s') (holds : T.Holds t held s'.locks) (fit : T.Fit s'.state)
    (apart : p'.Apart T.lock T.Fit held) (runs : p.run w s.state e = p'.run w s'.state e') :
    Turned w t p s e (s'.stop t (.held g (p'.bind T.leave) q), e')

variable {T}

theorem Holds.holder {t : TaskId} {held : Option LockId} {locks : Assoc LockId TaskId}
    (h : T.Holds t held locks) : Assoc.get? T.lock locks = some t := by
  simp [h T.lock]

theorem Holds.free {t : TaskId} {l : LockId} {locks : Assoc LockId TaskId}
    (h : T.Holds t none locks) (ne : l ≠ T.lock) : Assoc.get? l locks = none := by
  simp [h l, ne]

/-- A task takes this lock when no other is taken. -/
theorem holds_put (t : TaskId) {locks : Assoc LockId TaskId}
    (free : ∀ l, l ≠ T.lock → Assoc.get? l locks = none) :
    T.Holds t none (Assoc.put T.lock t locks) := by
  intro l
  by_cases e : l = T.lock
  · subst e
    simp
  · rw [Assoc.get?_put_of_ne e, free l e]
    simp [e]

theorem Holds.take {t : TaskId} {locks : Assoc LockId TaskId} (h : T.Holds t none locks)
    (l : LockId) : T.Holds t (some l) (Assoc.put l t locks) := by
  intro m
  by_cases e : m = l
  · subst e
    simp
  · rw [Assoc.get?_put_of_ne e, h m]
    simp [Ne.symm e]

theorem Holds.giveBack {t : TaskId} {l : LockId} {locks : Assoc LockId TaskId}
    (h : T.Holds t (some l) locks) (ne : l ≠ T.lock) : T.Holds t none (Assoc.erase l locks) := by
  intro m
  by_cases e : m = l
  · subst e
    simp [ne]
  · rw [Assoc.get?_erase_of_ne e, h m]
    simp [Ne.symm e]

theorem next?_of_only {s : System σ I γ α} (only : T.Only s) {l : LockId} (ne : l ≠ T.lock) :
    s.next? l = none := by
  refine Option.eq_none_iff_forall_ne_some.2 fun w hw => ?_
  obtain ⟨p, q, waits, -⟩ := System.waiter?_of_next? (t := w.1) (x := w.2) hw
  exact ne (only _ _ _ _ waits)

variable {w : Program.World I ε}

theorem Turned.of_same {t : TaskId} {p p' : Program σ I α} {s s' : System σ I γ α} {e e' : ε}
    {out : System σ I γ α × ε} (h : T.Turned w t p' s' e' out) (same : SameTasks s s')
    (runs : p.run w s.state e = p'.run w s'.state e') : T.Turned w t p s e out := by
  cases h with
  | through s₂ e₂ a same₂ holds fit runs₂ =>
    exact .through s₂ e₂ a (same.trans same₂) holds fit (runs.trans runs₂)
  | stopped s₂ e₂ g p₂ q held same₂ holds fit apart runs₂ =>
    exact .stopped s₂ e₂ g p₂ q held (same.trans same₂) holds fit apart (runs.trans runs₂)

theorem turned (gate : I.Call → ε → Option γ) {t : TaskId} {p : Program σ I α}
    {held : Option LockId} {s : System σ I γ α} {e : ε} (apart : p.Apart T.lock T.Fit held)
    (fit : T.Fit s.state) (holds : T.Holds t held s.locks) (only : T.Only s) :
    T.Turned w t p s e (s.turn ⟨w, gate⟩ t (p.bind T.leave) e) := by
  induction p generalizing held s e with
  | done a =>
    obtain rfl : held = none := apart
    exact .through s e a (.refl s) holds fit rfl
  | update f next ih =>
    obtain ⟨fit', apart'⟩ := apart s.state fit
    have rest := ih s.state (s := { s with state := f s.state }) (e := e) apart' fit' holds only
    exact rest.of_same ⟨rfl, rfl, rfl⟩ rfl
  | ask c next ih => exact (ih _ (apart _) fit holds only).of_same (.refl s) rfl
  | await c next ih =>
    unfold Program.bind System.turn
    split
    · exact (ih _ (apart _) fit holds only).of_same (.refl s) rfl
    · exact .stopped s _ _ _ _ held (.refl s) holds fit (apart _) rfl
  | acquire l next ih =>
    obtain ⟨rfl, ne, apart'⟩ := apart
    have free : Assoc.get? l s.locks = none := by simp [holds l, ne]
    unfold Program.bind System.turn
    rw [if_pos (by simp [free])]
    have rest := ih _ (s := { s with locks := Assoc.put l t s.locks }) (e := e) apart' fit
      (holds.take l) only
    exact rest.of_same ⟨rfl, rfl, rfl⟩ rfl
  | release l next ih =>
    obtain ⟨rfl, ne, apart'⟩ := apart
    have given : s.release l = { s with locks := Assoc.erase l s.locks } := by
      simp [System.release, next?_of_only only ne]
    unfold Program.bind System.turn
    rw [given]
    have rest := ih () (s := { s with locks := Assoc.erase l s.locks }) (e := e) apart' fit
      (holds.giveBack ne) only
    exact rest.of_same ⟨rfl, rfl, rfl⟩ rfl

/-! ## Waiting for the lock -/

/-- Who stopped before the lock and waits for it, in the order in which they did. -/
def waiting (T : Turnstile κ σ I α) (s : System σ I γ α) : List TaskId :=
  s.line.filter fun t => (s.waiter? T.lock t).isSome

theorem isSome_waiter? {s : System σ I γ α} {l : LockId} {t : TaskId} :
    (s.waiter? l t).isSome ↔ ∃ p q, s.tasks[t]? = some (.waiting l p q) := by
  unfold System.waiter?
  split
  · rename_i m p q hw
    by_cases e : m = l <;> simp [hw, e]
  · rename_i other
    simpa using fun p q => other l p q

theorem mem_waiting {s : System σ I γ α} {t : TaskId} :
    t ∈ T.waiting s ↔ t ∈ s.line ∧ ∃ p q, s.tasks[t]? = some (.waiting T.lock p q) := by
  rw [waiting, List.mem_filter, isSome_waiter?]

theorem isSome_waiter?_congr {s s' : System σ I γ α} {t : TaskId}
    (same : s'.tasks[t]? = s.tasks[t]?) (l : LockId) :
    (s'.waiter? l t).isSome = (s.waiter? l t).isSome := by
  unfold System.waiter?
  rw [same]

theorem filter_ne_self {ts : List TaskId} {t : TaskId} (h : t ∉ ts) : ts.filter (· ≠ t) = ts := by
  refine List.filter_eq_self.2 fun u hu => ?_
  have ne : u ≠ t := fun e => h (e ▸ hu)
  simpa using ne

/-- At most this task has moved. -/
structure Moves (s s' : System σ I γ α) (t : TaskId) : Prop where
  length : s'.tasks.length = s.tasks.length
  others : ∀ u, u ≠ t → s'.tasks[u]? = s.tasks[u]?
  line : s'.line.filter (· ≠ t) = s.line.filter (· ≠ t)

theorem moves_of_set {s s' : System σ I γ α} {t : TaskId} {x : Standing σ I γ α}
    (tasks : s'.tasks = s.tasks.set t x)
    (line : s'.line.filter (· ≠ t) = s.line.filter (· ≠ t)) : Moves s s' t where
  length := by simp [tasks]
  others u ne := by rw [tasks, List.getElem?_set_ne (Ne.symm ne)]
  line := line

theorem moves_awaken (s : System σ I γ α) (t : TaskId) (x : Standing σ I γ α) :
    Moves s (s.awaken t x) t := by
  refine moves_of_set rfl ?_
  simp only [System.awaken]
  induction s.line with
  | nil => rfl
  | cons u us ih => by_cases e : u = t <;> simp_all

theorem moves_stop (s : System σ I γ α) (t : TaskId) (x : Standing σ I γ α) :
    Moves s (s.stop t x) t :=
  moves_of_set rfl (by simp [System.stop])

theorem moves_finish (s : System σ I γ α) (t : TaskId) (a : α) : Moves s (s.finish t a) t :=
  moves_of_set rfl rfl

theorem SameTasks.moves {s s' s₂ : System σ I γ α} {t : TaskId} (h : SameTasks s s')
    (moves : Moves s' s₂ t) : Moves s s₂ t where
  length := h.tasks ▸ moves.length
  others := h.tasks ▸ moves.others
  line := h.line ▸ moves.line

theorem SameTasks.waiting {s s' : System σ I γ α} (h : SameTasks s s') :
    T.waiting s' = T.waiting s := by
  unfold Turnstile.waiting System.waiter?
  rw [h.tasks, h.line]

theorem Moves.mem_line {s s' : System σ I γ α} {t u : TaskId} (h : Moves s s' t) (ne : u ≠ t) :
    u ∈ s'.line ↔ u ∈ s.line := by
  have same := congrArg (u ∈ ·) h.line
  simpa [ne] using same

/-- A task that no longer waits leaves the others waiting in their order. -/
theorem waiting_of_moves {s s' : System σ I γ α} {t : TaskId} (h : Moves s s' t)
    (gone : ∀ p q, s'.tasks[t]? ≠ some (.waiting T.lock p q)) :
    T.waiting s' = (T.waiting s).filter (· ≠ t) := by
  have itself : ∀ u, (s'.waiter? T.lock u).isSome =
      ((s'.waiter? T.lock u).isSome && decide (u ≠ t)) := by
    intro u
    by_cases e : u = t
    · have : (s'.waiter? T.lock t).isSome = false := by
        rw [Bool.eq_false_iff, ne_eq, isSome_waiter?]
        exact fun ⟨p, q, h⟩ => gone p q h
      rw [e, this, Bool.false_and]
    · simp [e]
  unfold waiting
  rw [funext itself, ← List.filter_filter, h.line, List.filter_filter, List.filter_filter]
  refine List.filter_congr fun u _ => ?_
  by_cases e : u = t
  · simp [e]
  · simp [e, isSome_waiter?_congr (h.others u e)]

theorem waiting_of_moves_outside {s s' : System σ I γ α} {t : TaskId} (h : Moves s s' t)
    (before : ∀ p q, s.tasks[t]? ≠ some (.waiting T.lock p q))
    (after : ∀ p q, s'.tasks[t]? ≠ some (.waiting T.lock p q)) : T.waiting s' = T.waiting s := by
  rw [waiting_of_moves h after, filter_ne_self]
  intro ht
  obtain ⟨-, p, q, waits⟩ := mem_waiting.1 ht
  exact before p q waits

/-- A task that comes to wait is the last one. -/
theorem waiting_of_joins {s s' : System σ I γ α} {t : TaskId}
    (others : ∀ u, u ≠ t → s'.tasks[u]? = s.tasks[u]?) (line : s'.line = s.line ++ [t])
    (new : t ∉ s.line) {p q : Program σ I α} (waits : s'.tasks[t]? = some (.waiting T.lock p q)) :
    T.waiting s' = T.waiting s ++ [t] := by
  have here : [t].filter (fun u => (s'.waiter? T.lock u).isSome) = [t] := by
    simpa using isSome_waiter?.2 ⟨p, q, waits⟩
  unfold waiting
  rw [line, List.filter_append, here]
  refine congrArg (· ++ [t]) (List.filter_congr fun u hu => ?_)
  exact isSome_waiter?_congr (others u fun e => new (e ▸ hu)) T.lock

theorem waiting_spawn (s : System σ I γ α) (p : Program σ I α) :
    T.waiting (s.spawn p) = T.waiting s := by
  unfold waiting
  refine List.filter_congr fun u _ => Bool.eq_iff_iff.2 ?_
  rw [isSome_waiter?, isSome_waiter?]
  simp only [System.spawn, List.getElem?_append]
  split
  · rfl
  · rename_i ge
    rw [List.getElem?_eq_none (Nat.le_of_not_lt ge)]
    simp [List.getElem?_singleton]

theorem next?_eq_head? (s : System σ I γ α) :
    (s.next? T.lock).map Prod.fst = (T.waiting s).head? := by
  unfold System.next? waiting
  induction s.line with
  | nil => rfl
  | cons t ts ih =>
    cases h : s.waiter? T.lock t with
    | none => simpa [h] using ih
    | some x => simp [h]

/-! ## Handing over -/

/-- What becomes of the lock when the task that has it ends. -/
inductive HandsOver (T : Turnstile κ σ I α) (t : TaskId) (a : α) (s s' : System σ I γ α) :
    Prop where
  | free (tasks : s'.tasks = s.tasks.set t (.ended a)) (line : s'.line = s.line)
    (locks : ∀ l, Assoc.get? l s'.locks = none) (none : T.waiting s = [])
  | next (u : TaskId) (p q : Program σ I α) (rest : List TaskId)
    (waits : s.tasks[u]? = some (.waiting T.lock p q))
    (tasks : s'.tasks = (s.tasks.set u (.awake (some T.lock) p q)).set t (.ended a))
    (line : s'.line = s.line.erase u) (holds : T.Holds u none s'.locks)
    (first : T.waiting s = u :: rest)

theorem handsOver {s : System σ I γ α} {t : TaskId} (holds : T.Holds t none s.locks) (a : α) :
    T.HandsOver t a s ((s.release T.lock).finish t a) := by
  have head := T.next?_eq_head? s
  unfold System.release
  cases hn : s.next? T.lock with
  | none =>
    rw [hn] at head
    refine .free rfl rfl (fun l => ?_) (List.head?_eq_none_iff.1 head.symm)
    by_cases e : l = T.lock
    · subst e
      exact Assoc.get?_erase_self _ _
    · exact (Assoc.get?_erase_of_ne e _).trans (holds.free e)
  | some next =>
    obtain ⟨u, x⟩ := next
    obtain ⟨p, q, waits, rfl⟩ := System.waiter?_of_next? hn
    rw [hn] at head
    obtain ⟨rest, first⟩ := List.head?_eq_some_iff.1 head.symm
    exact .next u p q rest waits rfl rfl (holds_put u fun l ne => holds.free ne) first

end Turnstile

end Registrar
