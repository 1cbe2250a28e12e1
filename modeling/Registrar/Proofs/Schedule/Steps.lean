import Mathlib.Logic.Relation
import Registrar.Schedule.Settling

/-!
# Single steps of a system

A moment is a system of tasks together with what each task was spawned for and the task whose turn
it is. During a turn only that task moves, one operation at a time. Between turns tasks are spawned,
gates open and tasks are cancelled, and between any two steps others may change the shared state.
Nothing is said about the order of turns, about the replies of the world or about the calls that it
holds back, so whatever holds of all moments that are reached holds under every schedule and before
every world.

`turn_steps` and `settle_steps` say that the turns which `System.turn` and `System.settle` compute
consist of such steps.
-/

namespace Registrar

variable {κ σ : Type} {I : Interface} {γ ε α : Type}

/-- Leaves a task, whose turn it is, at `p`. -/
def System.goOn (s : System σ I γ α) (t : TaskId) (p : Program σ I α) : System σ I γ α :=
  { s with tasks := s.tasks.set t (.ready p) }

/-- What each task was spawned for, the tasks, and the task whose turn it is. -/
structure Moment (κ σ : Type) (I : Interface) (γ α : Type) where
  calls : List κ
  system : System σ I γ α
  turn : Option TaskId

namespace Moment

section

variable [DecidableEq γ] (program : κ → Program σ I α) (Outside : σ → σ → Prop)

/-- One operation of the task whose turn it is, or one event from outside. A call `k` spawns the
task `program k`, and `Outside` says how others change the state. -/
inductive Step : Moment κ σ I γ α → Moment κ σ I γ α → Prop where
  | spawn (cs : List κ) (s : System σ I γ α) (k : κ) :
    Step ⟨cs, s, none⟩ ⟨cs ++ [k], s.spawn (program k), none⟩
  | outside (cs : List κ) (s : System σ I γ α) (turn : Option TaskId) {x : σ}
    (h : Outside s.state x) : Step ⟨cs, s, turn⟩ ⟨cs, { s with state := x }, turn⟩
  /-- The order of turns is free. -/
  | reorder (cs : List κ) (s : System σ I γ α) (queue : List TaskId) :
    Step ⟨cs, s, none⟩ ⟨cs, { s with queue := queue }, none⟩
  | openGate (cs : List κ) (s : System σ I γ α) (g : γ) :
    Step ⟨cs, s, none⟩ ⟨cs, s.openGate g, none⟩
  | cancel (cs : List κ) (s : System σ I γ α) (t : TaskId) :
    Step ⟨cs, s, none⟩ ⟨cs, s.cancel t, none⟩
  /-- A task that is ready gets its turn. -/
  | start (cs : List κ) (s : System σ I γ α) {t : TaskId} {p : Program σ I α}
    (h : s.turn? t = some p) : Step ⟨cs, s, none⟩ ⟨cs, s.goOn t p, some t⟩
  | update (cs : List κ) (s : System σ I γ α) {t : TaskId} {f : σ → σ}
    {next : σ → Program σ I α} (h : s.tasks[t]? = some (.ready (.update f next))) :
    Step ⟨cs, s, some t⟩ ⟨cs, { s with state := f s.state }.goOn t (next s.state), some t⟩
  | ask (cs : List κ) (s : System σ I γ α) {t : TaskId} {c : I.Call}
    {next : I.Reply c → Program σ I α} (h : s.tasks[t]? = some (.ready (.ask c next)))
    (r : I.Reply c) : Step ⟨cs, s, some t⟩ ⟨cs, s.goOn t (next r), some t⟩
  /-- A call whose reply is not held back. -/
  | await (cs : List κ) (s : System σ I γ α) {t : TaskId} {c : I.Call}
    {next : Wake (I.Reply c) → Program σ I α} (h : s.tasks[t]? = some (.ready (.await c next)))
    (r : I.Reply c) : Step ⟨cs, s, some t⟩ ⟨cs, s.goOn t (next (.value r)), some t⟩
  | hold (cs : List κ) (s : System σ I γ α) {t : TaskId} {c : I.Call}
    {next : Wake (I.Reply c) → Program σ I α} (h : s.tasks[t]? = some (.ready (.await c next)))
    (r : I.Reply c) (g : γ) :
    Step ⟨cs, s, some t⟩ ⟨cs, s.stop t (.held g (next (.value r)) (next .cancelled)), none⟩
  | acquire (cs : List κ) (s : System σ I γ α) {t : TaskId} {l : LockId}
    {next : Wake Unit → Program σ I α} (h : s.tasks[t]? = some (.ready (.acquire l next)))
    (free : Assoc.get? l s.locks = none) :
    Step ⟨cs, s, some t⟩
      ⟨cs, { s with locks := Assoc.put l t s.locks }.goOn t (next (.value ())), some t⟩
  | wait (cs : List κ) (s : System σ I γ α) {t : TaskId} {l : LockId}
    {next : Wake Unit → Program σ I α} (h : s.tasks[t]? = some (.ready (.acquire l next)))
    (taken : Assoc.get? l s.locks ≠ none) :
    Step ⟨cs, s, some t⟩ ⟨cs, s.stop t (.waiting l (next (.value ())) (next .cancelled)), none⟩
  | release (cs : List κ) (s : System σ I γ α) {t : TaskId} {l : LockId}
    {next : Unit → Program σ I α} (h : s.tasks[t]? = some (.ready (.release l next))) :
    Step ⟨cs, s, some t⟩ ⟨cs, (s.release l).goOn t (next ()), some t⟩
  | finish (cs : List κ) (s : System σ I γ α) {t : TaskId} {a : α}
    (h : s.tasks[t]? = some (.ready (.done a))) :
    Step ⟨cs, s, some t⟩ ⟨cs, s.finish t a, none⟩

/-- Many steps, or none. -/
abbrev Steps : Moment κ σ I γ α → Moment κ σ I γ α → Prop :=
  Relation.ReflTransGen (Step program Outside)

/-- A moment that is reached from a state in which there are no tasks. -/
def Reached (start : σ) (m : Moment κ σ I γ α) : Prop :=
  Steps program Outside ⟨[], System.initial start, none⟩ m

end

end Moment

/-! ## Turns consist of steps -/

namespace System

@[simp]
theorem goOn_goOn (s : System σ I γ α) (t : TaskId) (p q : Program σ I α) :
    (s.goOn t p).goOn t q = s.goOn t q := by
  simp [goOn]

/-- A task that does not wait for a lock. -/
def Free (s : System σ I γ α) (t : TaskId) : Prop :=
  ∀ l p q, s.tasks[t]? ≠ some (.waiting l p q)

theorem waiter?_of_free {s : System σ I γ α} {t : TaskId} (h : s.Free t) (l : LockId) :
    s.waiter? l t = none := by
  unfold waiter?
  split
  · rename_i hw
    exact absurd hw (h _ _ _)
  · rfl

theorem free_goOn (s : System σ I γ α) (t : TaskId) (p : Program σ I α) : (s.goOn t p).Free t := by
  intro l q r
  simp only [goOn, List.getElem?_set_self']
  cases s.tasks[t]? <;> simp

theorem waiter?_goOn {s : System σ I γ α} {t : TaskId} (h : s.Free t) (p : Program σ I α)
    (l : LockId) (u : TaskId) : (s.goOn t p).waiter? l u = s.waiter? l u := by
  by_cases hu : t = u
  · subst hu
    rw [waiter?_of_free (free_goOn s t p), waiter?_of_free h]
  · unfold waiter? goOn
    rw [List.getElem?_set_ne hu]

theorem next?_goOn {s : System σ I γ α} {t : TaskId} (h : s.Free t) (p : Program σ I α)
    (l : LockId) : (s.goOn t p).next? l = s.next? l := by
  unfold next?
  simp only [waiter?_goOn h]
  rfl

/-- The task whose turn it is gives a lock back wherever it is left. -/
theorem release_goOn {s : System σ I γ α} {t : TaskId} (h : s.Free t) (p q : Program σ I α)
    (l : LockId) : ((s.goOn t p).release l).goOn t q = (s.release l).goOn t q := by
  unfold release
  rw [next?_goOn h]
  cases hn : s.next? l with
  | none => simp [goOn]
  | some w =>
    obtain ⟨u, x⟩ := w
    obtain ⟨q', r, hu, -⟩ := waiter?_of_next? hn
    have ne : u ≠ t := fun e => h _ _ _ (e ▸ hu)
    simp [goOn, awaken, List.set_comm _ _ ne]

theorem free_release {s : System σ I γ α} {t : TaskId} (h : s.Free t) (l : LockId) :
    (s.release l).Free t := by
  cases hn : s.next? l with
  | none =>
    intro m p q
    rw [release_tasks_of_next?_none hn]
    exact h m p q
  | some w =>
    obtain ⟨u, x⟩ := w
    obtain ⟨q', r, hu, rfl⟩ := waiter?_of_next? hn
    have ne : u ≠ t := fun e => h _ _ _ (e ▸ hu)
    intro m p q
    rw [release_tasks_of_next?_some hn, List.getElem?_set_ne ne]
    exact h m p q

theorem free_of_turn? {s : System σ I γ α} {t : TaskId} {p : Program σ I α}
    (h : s.turn? t = some p) : t < s.tasks.length ∧ s.Free t := by
  unfold turn? at h
  split at h
  · rename_i q hq
    exact ⟨(List.getElem?_eq_some_iff.1 hq).1, fun l p q h => by simp [h] at hq⟩
  · rename_i hq
    exact ⟨(List.getElem?_eq_some_iff.1 hq).1, fun l p q h => by simp [h] at hq⟩
  · cases h

open Moment

variable [DecidableEq γ] {program : κ → Program σ I α} {Outside : σ → σ → Prop}

variable {R : Moment κ σ I γ α → Moment κ σ I γ α → Prop}

/-- The steps of the task `t`, left at `p`, up to the end of its turn. -/
theorem turn_path_goOn (env : Environment I ε γ) (cs : List κ) {t : TaskId} (p : Program σ I α)
    (s : System σ I γ α) (e : ε) (ht : t < s.tasks.length) (free : s.Free t)
    (sub : ∀ m m', m.turn = some t → Step program Outside m m' → R m m') :
    Relation.ReflTransGen R ⟨cs, s.goOn t p, some t⟩ ⟨cs, (turn env t p s e).1, none⟩ := by
  have here : ∀ q : Program σ I α, (s.goOn t q).tasks[t]? = some (.ready q) := by
    simp [goOn, ht]
  induction p generalizing s e with
  | done a =>
    refine .single (sub _ _ rfl ?_)
    have : Step program Outside _ _ := .finish cs _ (here (.done a))
    simpa [finish, goOn, turn] using this
  | update f next ih =>
    refine .head (sub _ _ rfl (.update cs _ (here _))) ?_
    have := ih s.state { s with state := f s.state } e ht free here
    simpa [goOn, turn] using this
  | ask c next ih =>
    refine .head (sub _ _ rfl (.ask cs _ (here _) (env.reply c e).1)) ?_
    rw [goOn_goOn]
    exact ih _ s _ ht free here
  | await c next ih =>
    unfold turn
    split
    · refine .head (sub _ _ rfl (.await cs _ (here _) (env.reply c e).1)) ?_
      rw [goOn_goOn]
      exact ih _ s _ ht free here
    · rename_i g hg
      refine .single (sub _ _ rfl ?_)
      have : Step program Outside _ _ := .hold cs _ (here (.await c next)) (env.reply c e).1 g
      simpa [stop, goOn] using this
  | acquire l next ih =>
    unfold turn
    split
    · rename_i hl
      refine .head (sub _ _ rfl (.acquire cs _ (here _) (by simpa [goOn] using hl))) ?_
      have := ih (.value ()) { s with locks := Assoc.put l t s.locks } e ht free here
      simpa [goOn] using this
    · rename_i hl
      refine .single (sub _ _ rfl ?_)
      have : Step program Outside _ _ := .wait cs _ (here (.acquire l next))
        (by simpa [goOn] using hl)
      simpa [stop, goOn] using this
  | release l next ih =>
    refine .head (sub _ _ rfl (.release cs _ (here _))) ?_
    rw [release_goOn free]
    refine ih () (s.release l) e (by simpa using ht) (free_release free l) ?_
    simp [goOn, ht]

/-- A whole turn. -/
theorem turn_path (env : Environment I ε γ) (cs : List κ) {t : TaskId} {p : Program σ I α}
    {s : System σ I γ α} (h : s.turn? t = some p) (e : ε)
    (sub : ∀ m m', Step program Outside m m' → (m.turn = none → m'.turn ≠ none) → R m m') :
    Relation.ReflTransGen R ⟨cs, s, none⟩ ⟨cs, (turn env t p s e).1, none⟩ := by
  obtain ⟨ht, free⟩ := free_of_turn? h
  have inside : ∀ m m', m.turn = some t → Step program Outside m m' → R m m' :=
    fun m m' turn step => sub m m' step (by simp [turn])
  exact .head (sub _ _ (.start cs s h) (by simp)) (turn_path_goOn env cs p s e ht free inside)

theorem turn_steps (env : Environment I ε γ) (cs : List κ) {t : TaskId} {p : Program σ I α}
    {s : System σ I γ α} (h : s.turn? t = some p) (e : ε) :
    Steps program Outside ⟨cs, s, none⟩ ⟨cs, (turn env t p s e).1, none⟩ :=
  turn_path env cs h e fun _ _ step _ => step

/-- All turns up to the point at which no task is ready; between them no task moves. -/
theorem settle_path (env : Environment I ε γ) (cs : List κ) (s : System σ I γ α) (e : ε)
    (sub : ∀ m m', Step program Outside m m' →
      (m.turn = none → m'.turn = none → m'.system.tasks = m.system.tasks) → R m m') :
    Relation.ReflTransGen R ⟨cs, s, none⟩ ⟨cs, (s.settle env e).1, none⟩ := by
  have reorder (s : System σ I γ α) (queue : List TaskId) :
      R ⟨cs, s, none⟩ ⟨cs, { s with queue := queue }, none⟩ :=
    sub _ _ (.reorder cs s queue) fun _ _ => rfl
  fun_induction settle env s e with
  | case1 => exact .refl
  | case2 s e t rest hq p ht r ih =>
    have inside : ∀ m m', Step program Outside m m' → (m.turn = none → m'.turn ≠ none) → R m m' :=
      fun m m' step starts => sub m m' step fun turn turn' => absurd turn' (starts turn)
    refine .head (reorder s rest) (.trans (turn_path env cs ?_ e inside) ih)
    exact ht
  | case3 s e t rest hq ht ih => exact .head (reorder s rest) ih

theorem settle_steps (env : Environment I ε γ) (cs : List κ) (s : System σ I γ α) (e : ε) :
    Steps program Outside ⟨cs, s, none⟩ ⟨cs, (s.settle env e).1, none⟩ :=
  settle_path env cs s e fun _ _ step _ => step

end System

end Registrar
