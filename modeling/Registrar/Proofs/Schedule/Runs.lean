import Registrar.Proofs.Schedule.Steps

/-!
# Runs of a system

A run is the list of the moments that a system of tasks has gone through. What a step leaves of each
task is said once, by `tasks_of_step`; that a task has ended, for one, can only come of its own last
step and is never undone.

Two things hold of every moment that is reached, whatever the tasks are: a task that waits for a
lock stands in the line, and the lock for which it waits is taken. They are what `Orderly` says.
When every task that is ready has had its turn, tasks are left only where they wait for a gate or a
lock.
-/

namespace Registrar

variable {κ σ : Type} {I : Interface} {γ ε α : Type}

namespace Moment

variable [DecidableEq γ]

section

variable (program : κ → Program σ I α) (Outside : σ → σ → Prop) (start : σ)

/-- The moments of a run, the last one first. -/
inductive Run : List (Moment κ σ I γ α) → Prop where
  | start : Run [⟨[], System.initial start, none⟩]
  | step {m m' : Moment κ σ I γ α} {past : List (Moment κ σ I γ α)} (h : Run (m :: past))
    (step : Step program Outside m m') : Run (m' :: m :: past)

end

variable {program : κ → Program σ I α} {Outside Outside' : σ → σ → Prop} {start : σ}
  {m m' : Moment κ σ I γ α} {past : List (Moment κ σ I γ α)}

theorem Step.mono (h : Step program Outside m m') (sub : ∀ x y, Outside x y → Outside' x y) :
    Step program Outside' m m' := by
  cases h with
  | spawn cs s k => exact .spawn cs s k
  | outside cs s turn h => exact .outside cs s turn (sub _ _ h)
  | reorder cs s queue => exact .reorder cs s queue
  | openGate cs s g => exact .openGate cs s g
  | cancel cs s t => exact .cancel cs s t
  | start cs s h => exact .start cs s h
  | update cs s h => exact .update cs s h
  | ask cs s h r => exact .ask cs s h r
  | await cs s h r => exact .await cs s h r
  | hold cs s h r g => exact .hold cs s h r g
  | acquire cs s h free => exact .acquire cs s h free
  | wait cs s h taken => exact .wait cs s h taken
  | release cs s h => exact .release cs s h
  | finish cs s h => exact .finish cs s h

theorem Run.reached (h : Run program Outside start (m :: past)) :
    Reached program Outside start m := by
  generalize hrun : m :: past = run at h
  induction h generalizing m past with
  | start =>
    cases hrun
    exact .refl
  | step h step ih =>
    cases hrun
    exact .tail (ih rfl) step

end Moment

/-! ## What events do to tasks -/

/-- Where a task that has stopped, or that was awakened, stands when it is cancelled. -/
def Standing.withdrawn? : Standing σ I γ α → Option (Standing σ I γ α)
  | .held _ _ q | .waiting _ _ q => some (.ready q)
  | .awake l _ q => some (.ready (System.yielding l q))
  | .ready _ | .ended _ => none

namespace System

theorem cancel_tasks {s : System σ I γ α} {t : TaskId} {x y : Standing σ I γ α}
    (hx : s.tasks[t]? = some x) (hy : x.withdrawn? = some y) :
    (s.cancel t).tasks = s.tasks.set t y := by
  unfold cancel
  cases x <;> cases hy <;> simp [hx, awaken]

theorem cancel_eq_self {s : System σ I γ α} {t : TaskId}
    (h : ∀ x, s.tasks[t]? = some x → x.withdrawn? = none) : s.cancel t = s := by
  unfold cancel
  cases hx : s.tasks[t]? with
  | none => rfl
  | some x =>
    have := h x hx
    cases x <;> simp_all [Standing.withdrawn?]

@[simp]
theorem cancel_state (s : System σ I γ α) (t : TaskId) : (s.cancel t).state = s.state := by
  unfold cancel
  split <;> rfl

@[simp]
theorem release_state (s : System σ I γ α) (l : LockId) : (s.release l).state = s.state := by
  unfold release
  split <;> rfl

@[simp]
theorem release_results (s : System σ I γ α) (l : LockId) : (s.release l).results = s.results := by
  unfold release
  split <;> rfl

/-- Some of the tasks that are held back at the gate have been awakened. -/
structure Opened (g : γ) (s s' : System σ I γ α) : Prop where
  state : s'.state = s.state
  locks : s'.locks = s.locks
  length : s'.tasks.length = s.tasks.length
  tasks : ∀ t : TaskId, s'.tasks[t]? = s.tasks[t]? ∨
    ∃ p q, s.tasks[t]? = some (.held g p q) ∧ s'.tasks[t]? = some (.awake none p q)

theorem Opened.awaken {g : γ} {s s' : System σ I γ α} (h : Opened g s s') {t : TaskId}
    {p q : Program σ I α} (ht : s.tasks[t]? = some (.held g p q)) :
    Opened g s (s'.awaken t (.awake none p q)) where
  state := h.state
  locks := h.locks
  length := by simpa [System.awaken] using h.length
  tasks u := by
    simp only [System.awaken]
    by_cases e : t = u
    · subst e
      have lt : t < s'.tasks.length := by
        rw [h.length]
        exact (List.getElem?_eq_some_iff.1 ht).1
      exact .inr ⟨p, q, ht, List.getElem?_set_self lt⟩
    · rw [List.getElem?_set_ne e]
      exact h.tasks u

section

variable [DecidableEq γ]

theorem heldAt?_eq_some {g : γ} {s : System σ I γ α} {t : TaskId} {x : Standing σ I γ α}
    (h : s.heldAt? g t = some x) :
    ∃ p q, s.tasks[t]? = some (.held g p q) ∧ x = .awake none p q := by
  unfold heldAt? at h
  split at h
  · rename_i p q ht
    split at h
    · rename_i e
      cases h
      exact ⟨p, q, e ▸ ht, rfl⟩
    · cases h
  · cases h

/-- What holds of a system and is kept when a task held back at the gate is awakened holds of the
system when the gate is open. -/
theorem openGate_induction {g : γ} {s : System σ I γ α} {P : System σ I γ α → Prop} (start : P s)
    (awakens : ∀ s' t p q, P s' → s.tasks[t]? = some (.held g p q) →
      P (s'.awaken t (.awake none p q))) : P (s.openGate g) := by
  unfold openGate
  refine List.foldlRecOn _ _ start fun s' h w hw => ?_
  obtain ⟨t, -, hw⟩ := List.mem_filterMap.1 hw
  obtain ⟨x, hx, rfl⟩ := Option.map_eq_some_iff.1 hw
  obtain ⟨p, q, hp, rfl⟩ := heldAt?_eq_some hx
  exact awakens s' t p q h hp

theorem opened_openGate (g : γ) (s : System σ I γ α) : Opened g s (s.openGate g) :=
  openGate_induction ⟨rfl, rfl, rfl, fun _ => .inl rfl⟩ fun _ _ _ _ h hp => h.awaken hp

end

/-- A lock that is given back may go to a task that waits for it; the other tasks stay. -/
theorem tasks_release (s : System σ I γ α) (l : LockId) (t : TaskId) :
    (s.release l).tasks[t]? = s.tasks[t]? ∨
      ∃ p q, s.tasks[t]? = some (.waiting l p q) ∧
        (s.release l).tasks[t]? = some (.awake (some l) p q) := by
  cases hn : s.next? l with
  | none =>
    rw [release_tasks_of_next?_none hn]
    exact .inl rfl
  | some w =>
    obtain ⟨u, x⟩ := w
    obtain ⟨p, q, hu, rfl⟩ := waiter?_of_next? hn
    rw [release_tasks_of_next?_some hn]
    by_cases e : u = t
    · subst e
      exact .inr ⟨p, q, hu, List.getElem?_set_self (List.getElem?_eq_some_iff.1 hu).1⟩
    · exact .inl (List.getElem?_set_ne e)

end System

/-! ## What a step leaves of a task -/

namespace Moment

variable [DecidableEq γ]

/-- The task `t` is cancelled between the moments. -/
structure Cancels (m m' : Moment κ σ I γ α) (t : TaskId) : Prop where
  between : m.turn = none
  stopped : ∃ x y, m.system.tasks[t]? = some x ∧ x.withdrawn? = some y
  after : m' = ⟨m.calls, m.system.cancel t, none⟩

/-- Where a step leaves a task that stood at `x` and has no turn. -/
inductive Goes (m m' : Moment κ σ I γ α) (t : TaskId) :
    Standing σ I γ α → Standing σ I γ α → Prop where
  | stays (x : Standing σ I γ α) : Goes m m' t x x
  | opened (g : γ) (p q : Program σ I α) : Goes m m' t (.held g p q) (.awake none p q)
  | granted (l : LockId) (p q : Program σ I α) :
    Goes m m' t (.waiting l p q) (.awake (some l) p q)
  | cancelled {x y : Standing σ I γ α} (h : x.withdrawn? = some y) (cancels : m.Cancels m' t) :
    Goes m m' t x y

variable {program : κ → Program σ I α} {Outside : σ → σ → Prop} {m m' : Moment κ σ I γ α}
  {t : TaskId} {x y : Standing σ I γ α}

/-- A step leaves each task that has no turn where it was, awakens or cancels it. -/
theorem Step.others (h : Step program Outside m m') (before : m.turn ≠ some t)
    (after : m'.turn ≠ some t) (hx : m.system.tasks[t]? = some x) :
    ∃ y, m'.system.tasks[t]? = some y ∧ Goes m m' t x y := by
  have apart {u : TaskId} (hu : some u ≠ some t) (z : Standing σ I γ α) :
      (m.system.tasks.set u z)[t]? = some x := by
    rwa [List.getElem?_set_ne (by simpa using hu)]
  cases h with
  | spawn cs s k =>
    refine ⟨x, ?_, .stays x⟩
    simp only [System.spawn]
    rwa [List.getElem?_append_left (List.getElem?_eq_some_iff.1 hx).1]
  | outside cs s turn h => exact ⟨x, hx, .stays x⟩
  | reorder cs s queue => exact ⟨x, hx, .stays x⟩
  | openGate cs s g =>
    rcases (System.opened_openGate g s).tasks t with same | ⟨p, q, held, awake⟩
    · exact ⟨x, same.trans hx, .stays x⟩
    · obtain rfl := Option.some.inj (held.symm.trans hx)
      exact ⟨_, awake, .opened g p q⟩
  | cancel cs s u =>
    by_cases stopped : ∃ z y, s.tasks[u]? = some z ∧ z.withdrawn? = some y
    · obtain ⟨z, y, hz, hy⟩ := stopped
      have tasks := System.cancel_tasks hz hy
      by_cases e : u = t
      · subst e
        obtain rfl := Option.some.inj (hz.symm.trans hx)
        refine ⟨y, ?_, .cancelled hy ⟨rfl, ⟨_, _, hz, hy⟩, rfl⟩⟩
        simp only [tasks]
        exact List.getElem?_set_self (List.getElem?_eq_some_iff.1 hx).1
      · refine ⟨x, ?_, .stays x⟩
        simp only [tasks]
        rwa [List.getElem?_set_ne e]
    · refine ⟨x, ?_, .stays x⟩
      rw [System.cancel_eq_self]
      · exact hx
      · intro z hz
        cases hy : z.withdrawn? with
        | none => rfl
        | some y => exact absurd ⟨z, y, hz, hy⟩ stopped
  | start cs s h => exact ⟨x, apart after _, .stays x⟩
  | update cs s h => exact ⟨x, apart before _, .stays x⟩
  | ask cs s h r => exact ⟨x, apart before _, .stays x⟩
  | await cs s h r => exact ⟨x, apart before _, .stays x⟩
  | hold cs s h r g => exact ⟨x, apart before _, .stays x⟩
  | acquire cs s h free => exact ⟨x, apart before _, .stays x⟩
  | wait cs s h taken => exact ⟨x, apart before _, .stays x⟩
  | release cs s h =>
    rename_i u l next
    have elsewhere : ((s.release l).goOn u (next ())).tasks[t]? = (s.release l).tasks[t]? :=
      List.getElem?_set_ne (by simpa using before)
    rcases s.tasks_release l t with same | ⟨p, q, waits, awake⟩
    · exact ⟨x, elsewhere.trans (same.trans hx), .stays x⟩
    · obtain rfl := Option.some.inj (waits.symm.trans hx)
      exact ⟨_, elsewhere.trans awake, .granted l p q⟩
  | finish cs s h => exact ⟨x, apart before _, .stays x⟩

/-- A task that was not there before is new. -/
theorem Step.new (h : Step program Outside m m') (hx : m.system.tasks[t]? = none)
    (hy : m'.system.tasks[t]? = some y) :
    m.turn = none ∧ t = m.system.tasks.length ∧
      ∃ k, m' = ⟨m.calls ++ [k], m.system.spawn (program k), none⟩ ∧ y = .ready (program k) := by
  have lt := (List.getElem?_eq_some_iff.1 hy).1
  have ge := List.getElem?_eq_none_iff.1 hx
  cases h with
  | spawn cs s k =>
    simp only [System.spawn, List.getElem?_append_right ge] at hy
    obtain ⟨e, rfl⟩ : t - s.tasks.length = 0 ∧ Standing.ready (program k) = y := by
      simpa [List.getElem?_singleton] using hy
    exact ⟨rfl, Nat.le_antisymm (Nat.sub_eq_zero_iff_le.1 e) ge, k, rfl, rfl⟩
  | outside cs s turn h => exact absurd lt (Nat.not_lt.2 ge)
  | reorder cs s queue => exact absurd lt (Nat.not_lt.2 ge)
  | openGate cs s g =>
    rw [(System.opened_openGate g s).length] at lt
    exact absurd lt (Nat.not_lt.2 ge)
  | cancel cs s u =>
    have same : (s.cancel u).tasks.length = s.tasks.length := by
      unfold System.cancel
      split <;> simp [System.awaken]
    rw [same] at lt
    exact absurd lt (Nat.not_lt.2 ge)
  | _ => simp [System.goOn, System.stop, System.finish] at lt; exact absurd lt (Nat.not_lt.2 ge)

/-- What has ended stays so. -/
theorem Step.ended (h : Step program Outside m m') {a : α}
    (ht : m.system.tasks[t]? = some (.ended a)) : m'.system.tasks[t]? = some (.ended a) := by
  have others := fun before after => h.others (t := t) before after ht
  have stay : (∃ y, m'.system.tasks[t]? = some y ∧ Goes m m' t (.ended a) y) →
      m'.system.tasks[t]? = some (.ended a) := by
    rintro ⟨y, hy, goes⟩
    cases goes with
    | stays => exact hy
    | cancelled h => cases h
  have apart {u : TaskId} {p : Program σ I α} (hu : m.system.tasks[u]? = some (.ready p)) :
      some u ≠ some t := by
    rintro ⟨⟩
    simp [ht] at hu
  cases h with
  | outside cs s turn h => exact ht
  | spawn cs s k => exact stay (others (by simp) (by simp))
  | reorder cs s queue => exact ht
  | openGate cs s g => exact stay (others (by simp) (by simp))
  | cancel cs s u => exact stay (others (by simp) (by simp))
  | start cs s h =>
    refine stay (others (by simp) ?_)
    rintro ⟨⟩
    simp [System.turn?, ht] at h
  | update cs s h => exact stay (others (apart h) (apart h))
  | ask cs s h r => exact stay (others (apart h) (apart h))
  | await cs s h r => exact stay (others (apart h) (apart h))
  | hold cs s h r g => exact stay (others (apart h) (by simp))
  | acquire cs s h free => exact stay (others (apart h) (apart h))
  | wait cs s h taken => exact stay (others (apart h) (by simp))
  | release cs s h => exact stay (others (apart h) (apart h))
  | finish cs s h => exact stay (others (apart h) (by simp))

/-- A task ends with its own last step. -/
theorem Step.of_ended (h : Step program Outside m m') {a : α}
    (ht : m'.system.tasks[t]? = some (.ended a)) :
    m.system.tasks[t]? = some (.ended a) ∨
      m.turn = some t ∧ m.system.tasks[t]? = some (.ready (.done a)) := by
  cases hx : m.system.tasks[t]? with
  | none =>
    obtain ⟨-, -, k, -, ready⟩ := h.new hx ht
    cases ready
  | some x =>
    have others : m.turn ≠ some t → m'.turn ≠ some t → x = .ended a := by
      intro before after
      obtain ⟨y, hy, goes⟩ := h.others before after hx
      obtain rfl := Option.some.inj (ht.symm.trans hy)
      cases goes with
      | stays => rfl
      | cancelled h => cases x <;> cases h
    by_cases mine : m.turn = some t ∨ m'.turn = some t
    · have lt := (List.getElem?_eq_some_iff.1 hx).1
      cases h with
      | outside cs s turn h => exact .inl (hx.symm.trans ht)
      | finish cs s h =>
        obtain rfl := Option.some.inj (mine.resolve_right (by simp))
        simp only [System.finish, List.getElem?_set_self lt, Option.some.injEq,
          Standing.ended.injEq] at ht
        exact .inr ⟨rfl, by rw [← hx, h, ht]⟩
      | release cs s h =>
        obtain rfl := Option.some.inj (mine.elim id id)
        simp [System.goOn, lt] at ht
      | spawn cs s k => simp at mine
      | reorder cs s queue => simp at mine
      | openGate cs s g => simp at mine
      | cancel cs s u => simp at mine
      | _ =>
        simp only [or_self, or_false, false_or, Option.some.injEq, reduceCtorEq] at mine
        subst mine
        simp [System.goOn, System.stop, lt] at ht
    · rw [not_or] at mine
      exact .inl (congrArg some (others mine.1 mine.2))

omit [DecidableEq γ] in
/-- Whoever is cancelled moves. -/
theorem Cancels.tasks_ne (h : m.Cancels m' t) : m'.system.tasks ≠ m.system.tasks := by
  obtain ⟨-, ⟨x, y, hx, hy⟩, rfl⟩ := h
  intro same
  have hy' : m.system.tasks[t]? = some y := by
    rw [← same, System.cancel_tasks hx hy]
    exact List.getElem?_set_self (List.getElem?_eq_some_iff.1 hx).1
  obtain rfl := Option.some.inj (hx.symm.trans hy')
  cases x <;> cases hy

omit [DecidableEq γ] in
/-- Whoever is cancelled goes on accordingly. -/
theorem Cancels.withdraws (h : m.Cancels m' t) (hx : m.system.tasks[t]? = some x) :
    ∃ y, x.withdrawn? = some y ∧ m'.system.tasks[t]? = some y := by
  obtain ⟨-, ⟨x', y, hx', hy⟩, rfl⟩ := h
  obtain rfl := Option.some.inj (hx'.symm.trans hx)
  refine ⟨y, hy, ?_⟩
  rw [System.cancel_tasks hx' hy]
  exact List.getElem?_set_self (List.getElem?_eq_some_iff.1 hx').1

/-- What has been called stays called. -/
theorem Step.calls (h : Step program Outside m m') {k : κ} (hk : m.calls[t]? = some k) :
    m'.calls[t]? = some k := by
  cases h with
  | spawn cs s k =>
    exact (List.getElem?_append_left (List.getElem?_eq_some_iff.1 hk).1).trans hk
  | _ => exact hk

theorem Step.length_calls (h : Step program Outside m m') : m.calls.length ≤ m'.calls.length := by
  cases h <;> simp

theorem Step.mem_calls (h : Step program Outside m m') {k : κ} (hk : k ∈ m.calls) :
    k ∈ m'.calls := by
  obtain ⟨t, ht⟩ := List.mem_iff_getElem?.1 hk
  exact List.mem_of_getElem? (h.calls ht)

end Moment

/-! ## What a step is -/

namespace Moment

/-- Where its next step leaves a task that is at a program and whose turn it is; the shared state
goes from `s` to `s'`. -/
inductive Took (s s' : σ) : Program σ I α → Standing σ I γ α → Prop where
  | update {f : σ → σ} {next : σ → Program σ I α} (h : s' = f s) :
    Took s s' (.update f next) (.ready (next s))
  | ask {c : I.Call} {next : I.Reply c → Program σ I α} (r : I.Reply c) (h : s' = s) :
    Took s s' (.ask c next) (.ready (next r))
  | await {c : I.Call} {next : Wake (I.Reply c) → Program σ I α} (r : I.Reply c) (h : s' = s) :
    Took s s' (.await c next) (.ready (next (.value r)))
  | hold {c : I.Call} {next : Wake (I.Reply c) → Program σ I α} (r : I.Reply c) (g : γ)
    (h : s' = s) : Took s s' (.await c next) (.held g (next (.value r)) (next .cancelled))
  | acquire {l : LockId} {next : Wake Unit → Program σ I α} (h : s' = s) :
    Took s s' (.acquire l next) (.ready (next (.value ())))
  | wait {l : LockId} {next : Wake Unit → Program σ I α} (h : s' = s) :
    Took s s' (.acquire l next) (.waiting l (next (.value ())) (next .cancelled))
  | release {l : LockId} {next : Unit → Program σ I α} (h : s' = s) :
    Took s s' (.release l next) (.ready (next ()))
  | done {a : α} (h : s' = s) : Took s s' (.done a) (.ended a)

/-- A step of a task leaves it further on in its program. -/
theorem Took.later {s s' : σ} {p : Program σ I α} {x : Standing σ I γ α} (h : Took s s' p x) :
    Standing.Later x (.ready p) := by
  cases h with
  | update => exact .runs (.update ..)
  | ask => exact .runs (.ask ..)
  | await => exact .runs (.await ..)
  | hold => exact .holds _ (.await ..) (.await ..)
  | acquire => exact .runs (.acquire ..)
  | wait => exact .waits _ (.acquire ..) (.acquire ..)
  | release => exact .runs (.release ..)
  | done => exact .ends _

/-- A task that takes a step does not stand where it stood. -/
theorem Took.moves {s s' : σ} {p : Program σ I α} {x : Standing σ I γ α} (h : Took s s' p x) :
    x ≠ .ready p := by
  rintro rfl
  have irreflexive : ∀ x : Standing σ I γ α, ¬ Standing.Later x x := by
    intro x
    induction Standing.acc x with
    | intro x _ ih => exact fun later => ih x later later
  exact irreflexive _ h.later

/-- What a step is: nobody has a turn before and after it, or others change the state, or a turn
begins, or the task whose turn it is goes on or stops. -/
inductive Kind (Outside : σ → σ → Prop) (m m' : Moment κ σ I γ α) : Prop where
  | between (turn : m.turn = none) (turn' : m'.turn = none)
    (state : m'.system.state = m.system.state)
  | outside (h : Outside m.system.state m'.system.state) (turn : m'.turn = m.turn)
    (calls : m'.calls = m.calls) (tasks : m'.system.tasks = m.system.tasks)
  | starts (t : TaskId) (p : Program σ I α) (turn : m.turn = none) (turn' : m'.turn = some t)
    (ready : m.system.turn? t = some p) (calls : m'.calls = m.calls)
    (task : m'.system.tasks[t]? = some (.ready p)) (state : m'.system.state = m.system.state)
  | goesOn (t : TaskId) (p q : Program σ I α) (turn : m.turn = some t) (turn' : m'.turn = some t)
    (ready : m.system.tasks[t]? = some (.ready p)) (calls : m'.calls = m.calls)
    (task : m'.system.tasks[t]? = some (.ready q))
    (took : Took (γ := γ) m.system.state m'.system.state p (.ready q))
  | stops (t : TaskId) (p : Program σ I α) (x : Standing σ I γ α) (turn : m.turn = some t)
    (turn' : m'.turn = none) (ready : m.system.tasks[t]? = some (.ready p))
    (calls : m'.calls = m.calls) (task : m'.system.tasks[t]? = some x)
    (stopped : ∀ q, x ≠ .ready q) (took : Took m.system.state m'.system.state p x)

variable [DecidableEq γ] {program : κ → Program σ I α} {Outside : σ → σ → Prop}
  {m m' : Moment κ σ I γ α}

theorem Step.kind (h : Step program Outside m m') : Kind Outside m m' := by
  have here {s : System σ I γ α} {t : TaskId} {x : Standing σ I γ α}
      (hx : s.tasks[t]? = some x) (y : Standing σ I γ α) : (s.tasks.set t y)[t]? = some y :=
    List.getElem?_set_self (List.getElem?_eq_some_iff.1 hx).1
  cases h with
  | spawn cs s k => exact .between rfl rfl rfl
  | outside cs s turn h => exact .outside h rfl rfl rfl
  | reorder cs s queue => exact .between rfl rfl rfl
  | openGate cs s g => exact .between rfl rfl (System.opened_openGate g s).state
  | cancel cs s t => exact .between rfl rfl (System.cancel_state s t)
  | start cs s h =>
    rename_i t p
    have lt := (System.free_of_turn? h).1
    exact .starts t p rfl rfl h rfl (List.getElem?_set_self lt) rfl
  | update cs s h => exact .goesOn _ _ _ rfl rfl h rfl (here h _) (.update rfl)
  | ask cs s h r => exact .goesOn _ _ _ rfl rfl h rfl (here h _) (.ask r rfl)
  | await cs s h r => exact .goesOn _ _ _ rfl rfl h rfl (here h _) (.await r rfl)
  | hold cs s h r g => exact .stops _ _ _ rfl rfl h rfl (here h _) nofun (.hold r g rfl)
  | acquire cs s h free => exact .goesOn _ _ _ rfl rfl h rfl (here h _) (.acquire rfl)
  | wait cs s h taken => exact .stops _ _ _ rfl rfl h rfl (here h _) nofun (.wait rfl)
  | release cs s h =>
    rename_i t l next
    have lt : t < (s.release l).tasks.length := by
      simpa using (List.getElem?_eq_some_iff.1 h).1
    exact .goesOn _ _ _ rfl rfl h rfl (List.getElem?_set_self lt)
      (.release (System.release_state s l))
  | finish cs s h => exact .stops _ _ _ rfl rfl h rfl (here h _) nofun (.done rfl)

/-- The task whose turn it is is at a program. -/
theorem Reached.ready_of_turn {start : σ} (h : Reached program Outside start m) {t : TaskId}
    (turn : m.turn = some t) : ∃ p, m.system.tasks[t]? = some (.ready p) := by
  induction h with
  | refl => cases turn
  | tail _ step ih =>
    cases step.kind with
    | between _ turn' => simp [turn'] at turn
    | outside _ turn' _ tasks =>
      rw [tasks]
      exact ih (turn'.symm.trans turn)
    | starts u p _ turn' _ _ task =>
      obtain rfl := Option.some.inj (turn'.symm.trans turn)
      exact ⟨p, task⟩
    | goesOn u p q _ turn' _ _ task =>
      obtain rfl := Option.some.inj (turn'.symm.trans turn)
      exact ⟨q, task⟩
    | stops u p x _ turn' => simp [turn'] at turn

end Moment

/-! ## Cancelled tasks -/

namespace Moment

/-- The task `t` has been cancelled. -/
def Cancelled (run : List (Moment κ σ I γ α)) (t : TaskId) : Prop :=
  ∃ m m' past, m' :: m :: past <:+ run ∧ m.Cancels m' t

theorem Cancelled.cons {run : List (Moment κ σ I γ α)} {t : TaskId} (h : Cancelled run t)
    (m : Moment κ σ I γ α) : Cancelled (m :: run) t :=
  let ⟨m₁, m₂, past, suffix, cancels⟩ := h
  ⟨m₁, m₂, past, suffix.trans (List.suffix_cons ..), cancels⟩

variable [DecidableEq γ] {program : κ → Program σ I α} {Outside : σ → σ → Prop} {start : σ}

theorem Reached.run {m : Moment κ σ I γ α} (h : Reached program Outside start m) :
    ∃ past, Run program Outside start (m :: past) := by
  induction h with
  | refl => exact ⟨[], .start⟩
  | tail _ step ih =>
    obtain ⟨past, run⟩ := ih
    exact ⟨_, run.step step⟩

/-- A run goes on with any steps. -/
theorem Run.along {m m' : Moment κ σ I γ α} {past : List (Moment κ σ I γ α)}
    (h : Run program Outside start (m :: past)) (steps : Steps program Outside m m') :
    ∃ later, Run program Outside start (m' :: later) ∧ m :: past <:+ m' :: later := by
  induction steps with
  | refl => exact ⟨past, h, List.suffix_refl _⟩
  | @tail m₁ m₂ _ step ih =>
    obtain ⟨later, run, suffix⟩ := ih
    exact ⟨m₁ :: later, run.step step, suffix.trans (List.suffix_cons ..)⟩

/-- A run goes on until the turn of the task ends that has it. -/
theorem Run.endTurn {cs : List κ} {s : System σ I γ α} {t : TaskId}
    {past : List (Moment κ σ I γ α)} {p : Program σ I α}
    (h : Run program Outside start (⟨cs, s, some t⟩ :: past))
    (hp : s.tasks[t]? = some (.ready p)) (env : Environment I ε γ) (e : ε) :
    ∃ later, Run program Outside start (⟨cs, (s.turn env t p e).1, none⟩ :: later) ∧
      ⟨cs, s, some t⟩ :: past <:+ ⟨cs, (s.turn env t p e).1, none⟩ :: later := by
  obtain ⟨lt, here⟩ := List.getElem?_eq_some_iff.1 hp
  have free : s.Free t := fun l q q' waits => by simp [hp] at waits
  have same : s.goOn t p = s := by simp [System.goOn, ← here]
  have path : Relation.ReflTransGen (Step program Outside) ⟨cs, s.goOn t p, some t⟩
      ⟨cs, (s.turn env t p e).1, none⟩ :=
    System.turn_path_goOn env cs p s e lt free fun _ _ _ step => step
  rw [same] at path
  exact h.along path

/-- Every run goes on until no task is ready, and nobody is cancelled on the way. -/
theorem Run.settle {cs : List κ} {s : System σ I γ α} {past : List (Moment κ σ I γ α)}
    (h : Run program Outside start (⟨cs, s, none⟩ :: past)) (env : Environment I ε γ) (e : ε) :
    ∃ later, Run program Outside start (⟨cs, (s.settle env e).1, none⟩ :: later) ∧
      ⟨cs, s, none⟩ :: past <:+ ⟨cs, (s.settle env e).1, none⟩ :: later ∧
      ∀ t, Cancelled (⟨cs, (s.settle env e).1, none⟩ :: later) t →
        Cancelled (⟨cs, s, none⟩ :: past) t := by
  have keeps (m m' : Moment κ σ I γ α) (step : Step program Outside m m')
      (same : m.turn = none → m'.turn = none → m'.system.tasks = m.system.tasks) :
      Step program Outside m m' ∧ ∀ t, ¬ m.Cancels m' t :=
    ⟨step, fun t cancels =>
      cancels.tasks_ne (same cancels.between (congrArg turn cancels.after))⟩
  have path := System.settle_path env cs s e keeps
  generalize (⟨cs, (s.settle env e).1, none⟩ : Moment κ σ I γ α) = m' at path ⊢
  induction path with
  | refl => exact ⟨past, h, List.suffix_refl _, fun _ => id⟩
  | @tail m₁ m₂ _ step ih =>
    obtain ⟨later, run, suffix, same⟩ := ih
    refine ⟨m₁ :: later, .step run step.1, suffix.trans (List.suffix_cons ..), fun t => ?_⟩
    rintro ⟨m₃, m₄, past', suffix', cancels⟩
    obtain e | suffix' := List.suffix_cons_iff.1 suffix'
    · obtain ⟨rfl, rfl, -⟩ := by simpa using e
      exact absurd cancels (step.2 t)
    · exact same t ⟨m₃, m₄, past', suffix', cancels⟩

end Moment

/-! ## Waiting in line -/

namespace System

/-- Whoever waits for a lock stands in the line, and the lock is taken. -/
def Orderly (s : System σ I γ α) : Prop :=
  ∀ (t : TaskId) l p q, s.tasks[t]? = some (.waiting l p q) →
    t ∈ s.line ∧ Assoc.get? l s.locks ≠ none

variable {s s' : System σ I γ α} {t : TaskId} {x : Standing σ I γ α}

/-- One task moves; the others stay in line, and what is taken stays taken. -/
theorem Orderly.move (h : s.Orderly) (tasks : s'.tasks = s.tasks.set t x)
    (line : ∀ u, u ≠ t → u ∈ s.line → u ∈ s'.line)
    (locks : ∀ l, Assoc.get? l s.locks ≠ none → Assoc.get? l s'.locks ≠ none)
    (mine : ∀ l p q, x = .waiting l p q → t ∈ s'.line ∧ Assoc.get? l s'.locks ≠ none) :
    s'.Orderly := by
  intro u l p q hu
  rw [tasks] at hu
  by_cases e : t = u
  · subst e
    have lt : t < s.tasks.length := by simpa using (List.getElem?_eq_some_iff.1 hu).1
    rw [List.getElem?_set_self lt] at hu
    exact mine l p q (Option.some.inj hu)
  · rw [List.getElem?_set_ne e] at hu
    obtain ⟨inLine, taken⟩ := h u l p q hu
    exact ⟨line u (Ne.symm e) inLine, locks l taken⟩

theorem Orderly.goOn (h : s.Orderly) (t : TaskId) (p : Program σ I α) : (s.goOn t p).Orderly :=
  h.move rfl (fun _ _ => id) (fun _ => id) nofun

theorem Orderly.awaken (h : s.Orderly) (t : TaskId) (hx : ∀ l p q, x ≠ .waiting l p q) :
    (s.awaken t x).Orderly :=
  h.move rfl (fun _ ne hu => (List.mem_erase_of_ne ne).2 hu) (fun _ => id)
    fun l p q e => absurd e (hx l p q)

theorem Orderly.locks (h : s.Orderly) {locks : Assoc LockId TaskId}
    (more : ∀ l, Assoc.get? l s.locks ≠ none → Assoc.get? l locks ≠ none) :
    Orderly { s with locks := locks } :=
  fun t l p q ht => ⟨(h t l p q ht).1, more l (h t l p q ht).2⟩

theorem get?_put_ne_none {l l' : LockId} (t : TaskId) {locks : Assoc LockId TaskId}
    (h : Assoc.get? l' locks ≠ none) : Assoc.get? l' (Assoc.put l t locks) ≠ none := by
  by_cases e : l' = l
  · subst e
    simp
  · rwa [Assoc.get?_put_of_ne e]

theorem waiter?_waiting {l : LockId} {p q : Program σ I α}
    (h : s.tasks[t]? = some (.waiting l p q)) :
    s.waiter? l t = some (.awake (some l) p q) := by
  simp [waiter?, h]

/-- A lock for which somebody waits is handed over. -/
theorem Orderly.release (h : s.Orderly) (l : LockId) : (s.release l).Orderly := by
  unfold System.release
  cases hn : s.next? l with
  | none =>
    intro u l' p q hu
    change s.tasks[u]? = _ at hu
    obtain ⟨inLine, taken⟩ := h u l' p q hu
    refine ⟨inLine, ?_⟩
    have ne : l' ≠ l := by
      rintro rfl
      have := List.findSome?_eq_none_iff.1 hn u inLine
      simp [waiter?_waiting hu] at this
    dsimp only
    rwa [Assoc.get?_erase_of_ne ne]
  | some w =>
    obtain ⟨u, x⟩ := w
    obtain ⟨p, q, hu, rfl⟩ := waiter?_of_next? hn
    exact (h.awaken u (by simp)).locks fun _ => get?_put_ne_none u

end System

/-- At every moment that is reached whoever waits for a lock stands in line for a taken lock. -/
theorem Moment.Reached.orderly [DecidableEq γ] {program : κ → Program σ I α}
    {Outside : σ → σ → Prop} {start : σ} {m : Moment κ σ I γ α}
    (h : Reached program Outside start m) : m.system.Orderly := by
  induction h with
  | refl => exact fun _ _ _ _ ht => by simp [System.initial] at ht
  | tail _ step ih =>
    cases step with
    | spawn cs s k =>
      intro t l p q ht
      simp only [System.spawn, List.getElem?_append] at ht
      split at ht
      · exact ih t l p q ht
      · simp [List.getElem?_eq_some_iff] at ht
    | outside cs s turn h => exact ih
    | reorder cs s queue => exact ih
    | openGate cs s g =>
      exact System.openGate_induction (P := System.Orderly) ih fun s' t p q h _ =>
        h.awaken t (by simp)
    | cancel cs s t =>
      show (s.cancel t).Orderly
      unfold System.cancel
      split
      · exact ih.awaken t (by simp)
      · exact ih.awaken t (by simp)
      · exact ih.goOn t _
      · exact ih
    | start cs s h => exact ih.goOn _ _
    | update cs s h => exact ih.goOn _ _
    | ask cs s h r => exact ih.goOn _ _
    | await cs s h r => exact ih.goOn _ _
    | hold cs s h r g =>
      exact ih.move rfl (fun _ _ => List.mem_append_left _) (fun _ => id) (by simp)
    | acquire cs s h free => exact (ih.locks fun _ => System.get?_put_ne_none _).goOn _ _
    | wait cs s h taken =>
      refine ih.move rfl (fun _ _ => List.mem_append_left _) (fun _ => id) ?_
      rintro l p q ⟨⟩
      exact ⟨by simp [System.stop], taken⟩
    | release cs s h => exact (ih.release _).goOn _ _
    | finish cs s h => exact ih.move rfl (fun _ _ => id) (fun _ => id) (by simp)

/-! ## When every task has had its turn -/

namespace System

/-- Every task that is ready is in the queue. -/
def Attended (s : System σ I γ α) : Prop := ∀ (t : TaskId) p, s.turn? t = some p → t ∈ s.queue

/-- So is every other task. -/
def AttendedBut (s : System σ I γ α) (t : TaskId) : Prop :=
  ∀ (u : TaskId) p, u ≠ t → s.turn? u = some p → u ∈ s.queue

theorem AttendedBut.set {s : System σ I γ α} {t : TaskId} (h : s.AttendedBut t)
    {x : Standing σ I γ α} (hx : (∀ p, x ≠ .ready p) ∧ ∀ l p q, x ≠ .awake l p q)
    {s' : System σ I γ α} (tasks : s'.tasks = s.tasks.set t x) (queue : s'.queue = s.queue) :
    s'.Attended := by
  intro u p hu
  unfold turn? at hu
  rw [tasks] at hu
  by_cases e : t = u
  · subst e
    by_cases lt : t < s.tasks.length
    · rw [List.getElem?_set_self lt] at hu
      cases x <;> simp_all
    · simp [lt] at hu
  · rw [List.getElem?_set_ne e] at hu
    rw [queue]
    exact h u p (Ne.symm e) hu

theorem AttendedBut.release {s : System σ I γ α} {t : TaskId} (h : s.AttendedBut t) (l : LockId) :
    (s.release l).AttendedBut t := by
  unfold System.release
  split
  · exact h
  · rename_i v x _
    intro u p ne hu
    simp only [System.awaken, List.mem_append, List.mem_singleton]
    by_cases e : v = u
    · exact .inr e.symm
    · refine .inl (h u p ne ?_)
      unfold turn? at hu ⊢
      simpa only [System.awaken, List.getElem?_set_ne e] using hu

theorem attended_turn (env : Environment I ε γ) {t : TaskId} (p : Program σ I α)
    {s : System σ I γ α} (h : s.AttendedBut t) (e : ε) : (turn env t p s e).1.Attended := by
  induction p generalizing s e with
  | done a => exact h.set (by simp) rfl rfl
  | update f next ih => exact ih _ (s := { s with state := f s.state }) h e
  | ask c next ih => exact ih _ h _
  | await c next ih =>
    unfold turn
    split
    · exact ih _ h _
    · exact h.set (by simp) rfl rfl
  | acquire l next ih =>
    unfold turn
    split
    · exact ih _ (s := { s with locks := Assoc.put l t s.locks }) h e
    · exact h.set (by simp) rfl rfl
  | release l next ih => exact ih _ (h.release l) e

/-- When a system has settled no task is ready. -/
theorem turn?_settle (env : Environment I ε γ) {s : System σ I γ α} (h : s.Attended) (e : ε)
    (t : TaskId) : (s.settle env e).1.turn? t = none := by
  fun_induction settle env s e with
  | case1 s e hq =>
    cases ht : s.turn? t with
    | none => rfl
    | some p =>
      have := h t p ht
      simp [hq] at this
  | case2 s e u rest hq p hp r ih =>
    refine ih (attended_turn env p ?_ e)
    intro v q ne hv
    have := h v q hv
    simp only [hq, List.mem_cons] at this
    exact this.resolve_left ne
  | case3 s e u rest hq hp ih =>
    refine ih fun v q hv => ?_
    have := h v q hv
    simp only [hq, List.mem_cons] at this
    refine this.resolve_left ?_
    rintro rfl
    cases hp.symm.trans hv

end System

end Registrar
