import Registrar.Proofs.Program.Behaves
import Registrar.Proofs.Schedule.Runs

/-!
# Whole turns before a world

A scene is a system of tasks before a world, with what each task was spawned for and what has
happened. It changes by whole turns, and between them by tasks that are spawned, gates that open and
tasks that are cancelled. Which calls the world holds back is free at every turn, and so is the
order of turns: the steps of a scene allow every schedule. `settle_steps` says that what
`System.settle` computes consists of them.

If every program that is spawned behaves, then at every scene that is reached all tasks do.
-/

namespace Registrar

variable {κ σ : Type} {I : Interface} {γ ε α : Type}

/-- What has happened to a task. -/
inductive Event where
  | turn (t : TaskId)
  | cancel (t : TaskId)
  deriving DecidableEq, Repr

/-- What each task was spawned for, the tasks, the world, and what has happened. -/
structure Scene (κ σ : Type) (I : Interface) (γ ε α : Type) where
  calls : List κ
  system : System σ I γ α
  world : ε
  history : List Event

theorem Standing.Behaves.withdrawn {G : Regime I ε} {Allowed : ε → I.Call → Prop}
    {Q : α → ε → Prop} {e : ε} {x y : Standing σ I γ α} (h : x.Behaves G Allowed Q e)
    (hy : x.withdrawn? = some y) : y.Behaves G Allowed Q e := by
  cases x <;> cases hy
  · obtain ⟨rfl, -, hq⟩ := h
    exact hq
  · exact h.2
  · exact h.elim

/-- The result of a task that has ended. -/
def Standing.result? : Standing σ I γ α → Option α
  | .ended a => some a
  | _ => none

theorem Standing.ended_of_result? {x : Option (Standing σ I γ α)} {a : α}
    (h : x.bind result? = some a) : x = some (.ended a) := by
  obtain ⟨y, rfl, hy⟩ := Option.bind_eq_some_iff.1 h
  cases y <;> cases hy
  rfl

namespace Scene

/-- A scene without tasks. -/
def initial (start : σ) (e : ε) : Scene κ σ I γ ε α := ⟨[], System.initial start, e, []⟩

variable [DecidableEq γ]

section

variable (program : κ → Program σ I α) (w : Program.World I ε)
  (Cancellable : System σ I γ α → TaskId → Prop)

/-- A turn of a task, or an event between turns. -/
inductive Step : Scene κ σ I γ ε α → Scene κ σ I γ ε α → Prop where
  | spawn (cs : List κ) (s : System σ I γ α) (e : ε) (h : List Event) (k : κ) :
    Step ⟨cs, s, e, h⟩ ⟨cs ++ [k], s.spawn (program k), e, h⟩
  | reorder (cs : List κ) (s : System σ I γ α) (e : ε) (h : List Event) (queue : List TaskId) :
    Step ⟨cs, s, e, h⟩ ⟨cs, { s with queue := queue }, e, h⟩
  | openGate (cs : List κ) (s : System σ I γ α) (e : ε) (h : List Event) (g : γ) :
    Step ⟨cs, s, e, h⟩ ⟨cs, s.openGate g, e, h⟩
  | cancel (cs : List κ) (s : System σ I γ α) (e : ε) (h : List Event) {t : TaskId}
    (may : Cancellable s t) : Step ⟨cs, s, e, h⟩ ⟨cs, s.cancel t, e, h ++ [.cancel t]⟩
  /-- A turn, during which the world holds back what `gate` says. -/
  | turn (cs : List κ) (s : System σ I γ α) (e : ε) (h : List Event)
    (gate : I.Call → ε → Option γ) {t : TaskId} {p : Program σ I α} (ready : s.turn? t = some p) :
    Step ⟨cs, s, e, h⟩
      ⟨cs, (s.turn ⟨w, gate⟩ t p e).1, (s.turn ⟨w, gate⟩ t p e).2, h ++ [.turn t]⟩

/-- A scene that is reached from one without tasks. -/
def Reached (start : σ) (e : ε) : Scene κ σ I γ ε α → Prop :=
  Relation.ReflTransGen (Step program w Cancellable) (initial start e)

end

variable {program : κ → Program σ I α} {w : Program.World I ε}
  {Cancellable : System σ I γ α → TaskId → Prop}

/-- The turns that a system computes are steps. -/
theorem settle_steps (gate : I.Call → ε → Option γ) (cs : List κ) (s : System σ I γ α) (e : ε)
    (h : List Event) :
    ∃ h', Relation.ReflTransGen (Step program w Cancellable) ⟨cs, s, e, h⟩
      ⟨cs, (s.settle ⟨w, gate⟩ e).1, (s.settle ⟨w, gate⟩ e).2, h'⟩ := by
  generalize henv : (⟨w, gate⟩ : Environment I ε γ) = env
  fun_induction System.settle env s e generalizing h with
  | case1 => exact ⟨h, .refl⟩
  | case2 s e t rest hq p ht r ih =>
    obtain ⟨h', steps⟩ := ih (h ++ [.turn t])
    subst henv
    refine ⟨h', .head (.reorder cs s e h rest) (.head (.turn cs _ e h gate (p := p) ?_) steps)⟩
    exact ht
  | case3 s e t rest hq ht ih =>
    obtain ⟨h', steps⟩ := ih h
    exact ⟨h', .head (.reorder cs s e h rest) steps⟩

/-! ## Moves -/

/-- Spawns a task. -/
def enter (program : κ → Program σ I α) (k : κ) (m : Scene κ σ I γ ε α) : Scene κ σ I γ ε α :=
  { m with calls := m.calls ++ [k], system := m.system.spawn (program k) }

def openGate (g : γ) (m : Scene κ σ I γ ε α) : Scene κ σ I γ ε α :=
  { m with system := m.system.openGate g }

def cancel (t : TaskId) (m : Scene κ σ I γ ε α) : Scene κ σ I γ ε α :=
  { m with system := m.system.cancel t, history := m.history ++ [.cancel t] }

/-- Gives a task a turn, if it is ready for one. -/
def advance (w : Program.World I ε) (gate : I.Call → ε → Option γ) (t : TaskId)
    (m : Scene κ σ I γ ε α) : Scene κ σ I γ ε α :=
  match m.system.turn? t with
  | some p => ⟨m.calls, (m.system.turn ⟨w, gate⟩ t p m.world).1,
      (m.system.turn ⟨w, gate⟩ t p m.world).2, m.history ++ [.turn t]⟩
  | none => m

omit [DecidableEq γ] in
@[simp]
theorem advance_calls (gate : I.Call → ε → Option γ) (t : TaskId) (m : Scene κ σ I γ ε α) :
    (m.advance w gate t).calls = m.calls := by
  unfold advance
  split <;> rfl

@[simp]
theorem openGate_calls (g : γ) (m : Scene κ σ I γ ε α) : (m.openGate g).calls = m.calls := rfl

omit [DecidableEq γ] in
@[simp]
theorem enter_calls (k : κ) (m : Scene κ σ I γ ε α) :
    (m.enter program k).calls = m.calls ++ [k] := rfl

section

variable {start : σ} {e : ε} {m : Scene κ σ I γ ε α}

theorem Reached.enter (h : Reached program w Cancellable start e m) (k : κ) :
    Reached program w Cancellable start e (m.enter program k) :=
  .tail h (.spawn m.calls m.system m.world m.history k)

theorem Reached.openGate (h : Reached program w Cancellable start e m) (g : γ) :
    Reached program w Cancellable start e (m.openGate g) :=
  .tail h (.openGate m.calls m.system m.world m.history g)

theorem Reached.cancel (h : Reached program w Cancellable start e m) {t : TaskId}
    (may : Cancellable m.system t) : Reached program w Cancellable start e (m.cancel t) :=
  .tail h (.cancel m.calls m.system m.world m.history may)

theorem Reached.advance (h : Reached program w Cancellable start e m)
    (gate : I.Call → ε → Option γ) (t : TaskId) :
    Reached program w Cancellable start e (m.advance w gate t) := by
  unfold Scene.advance
  split
  · rename_i p ready
    exact .tail h (.turn _ _ _ _ gate ready)
  · exact h

end

/-! ## Tasks that behave -/

section

variable (G : Regime I ε) (Allowed : κ → ε → I.Call → Prop) (Q : κ → α → ε → Prop)
  (Kept : List κ → ε → Prop)

/-- Every task behaves as what it was spawned for promises. -/
structure Behaves (m : Scene κ σ I γ ε α) : Prop where
  kept : Kept m.calls m.world
  called : m.calls.length = m.system.tasks.length
  tasks : ∀ (t : TaskId) k x, m.calls[t]? = some k → m.system.tasks[t]? = some x →
    x.Behaves G (Allowed k) (Q k) m.world

end

variable {G : Regime I ε} {Allowed : κ → ε → I.Call → Prop} {Q : κ → α → ε → Prop}
  {Kept : List κ → ε → Prop} {m m' : Scene κ σ I γ ε α}

omit [DecidableEq γ] in
theorem Behaves.spawn (h : m.Behaves G Allowed Q Kept) {k : κ}
    (behaves : ∀ e, (program k).Behaves G (Allowed k) (Q k) e)
    (more : ∀ cs e, Kept cs e → Kept (cs ++ [k]) e) :
    Behaves G Allowed Q Kept (⟨m.calls ++ [k], m.system.spawn (program k), m.world, m.history⟩ :
      Scene κ σ I γ ε α) where
  kept := more _ _ h.kept
  called := by simp [System.spawn, h.called]
  tasks := by
    intro t k' x hk hx
    simp only [System.spawn] at hx
    by_cases lt : t < m.system.tasks.length
    · rw [List.getElem?_append_left lt] at hx
      rw [List.getElem?_append_left (h.called ▸ lt)] at hk
      exact h.tasks t k' x hk hx
    · have ge := Nat.le_of_not_lt lt
      rw [List.getElem?_append_right ge] at hx
      rw [List.getElem?_append_right (h.called ▸ ge), h.called] at hk
      obtain ⟨-, rfl⟩ := by simpa [List.getElem?_singleton] using hx
      obtain ⟨-, rfl⟩ := by simpa [List.getElem?_singleton] using hk
      exact behaves _

omit [DecidableEq γ] in
/-- One task moves on, and the world grows. -/
theorem Behaves.move (h : m.Behaves G Allowed Q Kept) (calls : m'.calls = m.calls)
    (kept : Kept m.calls m'.world) (later : G.Later m.world m'.world) {t : TaskId}
    {x : Standing σ I γ α} (tasks : m'.system.tasks = m.system.tasks.set t x)
    (behaves : ∀ k, m.calls[t]? = some k → x.Behaves G (Allowed k) (Q k) m'.world) :
    m'.Behaves G Allowed Q Kept where
  kept := calls ▸ kept
  called := by simp [calls, tasks, h.called]
  tasks := by
    intro u k y hk hy
    rw [calls] at hk
    rw [tasks] at hy
    by_cases e : t = u
    · subst e
      have lt : t < m.system.tasks.length := h.called ▸ (List.getElem?_eq_some_iff.1 hk).1
      rw [List.getElem?_set_self lt] at hy
      exact Option.some.inj hy ▸ behaves k hk
    · rw [List.getElem?_set_ne e] at hy
      exact (h.tasks u k y hk hy).mono later

omit [DecidableEq γ] in
/-- A task that has its turn behaves. -/
theorem Behaves.turn? (h : m.Behaves G Allowed Q Kept) {t : TaskId} {p : Program σ I α}
    (ready : m.system.turn? t = some p) :
    ∃ k, m.calls[t]? = some k ∧ p.Behaves G (Allowed k) (Q k) m.world := by
  have lt := (System.free_of_turn? ready).1
  have hk := List.getElem?_eq_getElem (h.called.symm ▸ lt)
  refine ⟨_, hk, ?_⟩
  unfold System.turn? at ready
  split at ready
  · rename_i hx
    cases ready
    exact h.tasks t _ _ hk hx
  · rename_i hx
    cases ready
    exact (h.tasks t _ _ hk hx).2.1
  · cases ready

/-- A step keeps tasks behaving if whatever is spawned does. -/
theorem Behaves.step (h : m.Behaves G Allowed Q Kept)
    (step : Step program G.toWorld Cancellable m m')
    (behaves : ∀ k e, (program k).Behaves G (Allowed k) (Q k) e)
    (more : ∀ cs k e, Kept cs e → Kept (cs ++ [k]) e)
    (keeps : ∀ cs, ∀ k ∈ cs, ∀ e c, Kept cs e → Allowed k e c → Kept cs (G.reply c e).2) :
    m'.Behaves G Allowed Q Kept := by
  cases step with
  | spawn cs s e history k => exact h.spawn (behaves k) fun cs e => more cs k e
  | reorder cs s e history queue => exact ⟨h.kept, h.called, h.tasks⟩
  | openGate cs s e history g =>
    have o := System.opened_openGate g s
    refine ⟨h.kept, h.called.trans o.length.symm, fun t k x hk hx => ?_⟩
    rcases o.tasks t with same | ⟨p, q, held, awake⟩
    · exact h.tasks t k x hk (same ▸ hx)
    · obtain rfl := Option.some.inj (awake.symm.trans hx)
      exact ⟨rfl, h.tasks t k _ hk held⟩
  | cancel cs s e history may =>
    rename_i t
    by_cases stopped : ∃ x y, s.tasks[t]? = some x ∧ x.withdrawn? = some y
    · obtain ⟨x, y, hx, hy⟩ := stopped
      refine h.move rfl h.kept (G.refl e) (System.cancel_tasks hx hy) fun k hk => ?_
      exact (h.tasks t k x hk hx).withdrawn hy
    · rw [System.cancel_eq_self]
      · exact ⟨h.kept, h.called, h.tasks⟩
      · intro x hx
        exact Option.eq_none_iff_forall_ne_some.2 fun y hy => stopped ⟨x, y, hx, hy⟩
  | turn cs s e history gate ready =>
    rename_i t p
    obtain ⟨k, hk, hp⟩ := h.turn? ready
    obtain ⟨kept, later, x, tasks, hx⟩ := System.turn_behaves (Kept cs)
      (keeps cs k (List.mem_of_getElem? hk)) gate t p s hp h.kept
    refine h.move rfl kept later tasks fun k' hk' => ?_
    obtain rfl := Option.some.inj (hk.symm.trans hk')
    exact hx

/-- Whatever is reached, all tasks behave. -/
theorem Reached.behaves {start : σ} {e : ε} (h : Reached program G.toWorld Cancellable start e m)
    (behaves : ∀ k e, (program k).Behaves G (Allowed k) (Q k) e) (kept : Kept [] e)
    (more : ∀ cs k e, Kept cs e → Kept (cs ++ [k]) e)
    (keeps : ∀ cs, ∀ k ∈ cs, ∀ e c, Kept cs e → Allowed k e c → Kept cs (G.reply c e).2) :
    m.Behaves G Allowed Q Kept := by
  induction h with
  | refl => exact ⟨kept, rfl, fun t k x hk => by simp [initial] at hk⟩
  | tail _ step ih => exact ih.step step behaves more keeps

end Scene

end Registrar
