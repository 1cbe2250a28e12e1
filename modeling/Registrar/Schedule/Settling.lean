import Registrar.Schedule.Basic

/-!
# Settling

A system settles when every ready task has had its turn, those that became ready meanwhile too.
It always does: `Standing.Later` relates what may become of a task to the task, and since a program
is finite along every path, no task has infinitely many futures one after another.
-/

namespace Registrar

variable {σ : Type} {I : Interface} {γ ε α : Type}

/-! ## What becomes of a task -/

/-- `Program.Part q p`: one step of `p` may leave `q`. -/
inductive Program.Part : Program σ I α → Program σ I α → Prop where
  | update (f : σ → σ) (next : σ → Program σ I α) (s : σ) : Part (next s) (.update f next)
  | ask (c : I.Call) (next : I.Reply c → Program σ I α) (r : I.Reply c) :
    Part (next r) (.ask c next)
  | await (c : I.Call) (next : Wake (I.Reply c) → Program σ I α) (w : Wake (I.Reply c)) :
    Part (next w) (.await c next)
  | acquire (l : LockId) (next : Wake Unit → Program σ I α) (w : Wake Unit) :
    Part (next w) (.acquire l next)
  | release (l : LockId) (next : Unit → Program σ I α) (u : Unit) : Part (next u) (.release l next)

namespace Standing

/-- `Later y x`: a task that stands at `x` may come to stand at `y`. -/
inductive Later : Standing σ I γ α → Standing σ I γ α → Prop where
  | runs {p q : Program σ I α} (h : Program.Part q p) : Later (.ready q) (.ready p)
  | ends (a : α) : Later (.ended a) (.ready (.done a))
  | holds {p q r : Program σ I α} (g : γ) (hq : Program.Part q p) (hr : Program.Part r p) :
    Later (.held g q r) (.ready p)
  | waits {p q r : Program σ I α} (l : LockId) (hq : Program.Part q p) (hr : Program.Part r p) :
    Later (.waiting l q r) (.ready p)
  | opened (g : γ) (q r : Program σ I α) : Later (.awake none q r) (.held g q r)
  | locked (l : LockId) (q r : Program σ I α) : Later (.awake (some l) q r) (.waiting l q r)
  | resumes (l : Option LockId) (q r : Program σ I α) : Later (.ready q) (.awake l q r)

theorem acc_ended (a : α) : Acc Later (.ended a : Standing σ I γ α) := ⟨_, fun _ h => nomatch h⟩

theorem acc_awake {q : Program σ I α} (h : Acc Later (.ready q : Standing σ I γ α))
    (l : Option LockId) (r : Program σ I α) :
    Acc Later (.awake l q r : Standing σ I γ α) :=
  ⟨_, fun _ l => by cases l; exact h⟩

theorem acc_held {q : Program σ I α} (h : Acc Later (.ready q : Standing σ I γ α)) (g : γ)
    (r : Program σ I α) : Acc Later (.held g q r : Standing σ I γ α) :=
  ⟨_, fun _ l => by cases l; exact acc_awake h none r⟩

theorem acc_waiting {q : Program σ I α} (h : Acc Later (.ready q : Standing σ I γ α)) (l : LockId)
    (r : Program σ I α) : Acc Later (.waiting l q r : Standing σ I γ α) :=
  ⟨_, fun _ h' => by cases h'; exact acc_awake h (some l) r⟩

theorem acc_ready_of_parts {p : Program σ I α}
    (h : ∀ q, Program.Part q p → Acc Later (.ready q : Standing σ I γ α)) :
    Acc Later (.ready p : Standing σ I γ α) := by
  refine ⟨_, fun x l => ?_⟩
  cases l with
  | runs hq => exact h _ hq
  | ends a => exact acc_ended a
  | holds g hq _ => exact acc_held (h _ hq) g _
  | waits l hq _ => exact acc_waiting (h _ hq) l _

theorem acc_ready (p : Program σ I α) : Acc Later (.ready p : Standing σ I γ α) := by
  induction p with
  | done a => exact acc_ready_of_parts fun _ h => nomatch h
  | update f next ih => exact acc_ready_of_parts fun _ h => by cases h; exact ih _
  | ask c next ih => exact acc_ready_of_parts fun _ h => by cases h; exact ih _
  | await c next ih => exact acc_ready_of_parts fun _ h => by cases h; exact ih _
  | acquire l next ih => exact acc_ready_of_parts fun _ h => by cases h; exact ih _
  | release l next ih => exact acc_ready_of_parts fun _ h => by cases h; exact ih _

/-- No task has infinitely many futures one after another. -/
theorem acc (x : Standing σ I γ α) : Acc Later x := by
  cases x with
  | ready p => exact acc_ready p
  | awake l q r => exact acc_awake (acc_ready q) l r
  | held g q r => exact acc_held (acc_ready q) g r
  | waiting l q r => exact acc_waiting (acc_ready q) l r
  | ended a => exact acc_ended a

end Standing

/-! ## What becomes of all tasks -/

/-- `Moved ys xs`: one of the tasks `xs` has moved on. -/
inductive Standing.Moved : List (Standing σ I γ α) → List (Standing σ I γ α) → Prop where
  | head {y x : Standing σ I γ α} (h : Later y x) (xs : List (Standing σ I γ α)) :
    Moved (y :: xs) (x :: xs)
  | tail (x : Standing σ I γ α) {ys xs : List (Standing σ I γ α)} (h : Moved ys xs) :
    Moved (x :: ys) (x :: xs)

namespace Standing

theorem acc_cons {x : Standing σ I γ α} (hx : Acc Later x) {xs : List (Standing σ I γ α)}
    (hxs : Acc Moved xs) : Acc Moved (x :: xs) := by
  induction hx generalizing xs with
  | intro x _ ihx =>
    induction hxs with
    | intro xs hxs ihxs =>
      refine ⟨_, fun _ h => ?_⟩
      cases h with
      | head h => exact ihx _ h ⟨_, hxs⟩
      | tail _ h => exact ihxs _ h

theorem moved_wf : WellFounded (Moved : List (Standing σ I γ α) → _ → Prop) := by
  refine ⟨fun xs => ?_⟩
  induction xs with
  | nil => exact ⟨_, fun _ h => nomatch h⟩
  | cons x xs ih => exact acc_cons x.acc ih

theorem moved_set (xs : List (Standing σ I γ α)) (t : Nat) {x y : Standing σ I γ α}
    (hx : xs[t]? = some x) (h : Later y x) : Moved (xs.set t y) xs := by
  induction xs generalizing t with
  | nil => simp at hx
  | cons z xs ih =>
    cases t with
    | zero =>
      simp only [List.getElem?_cons_zero, Option.some.injEq] at hx
      subst hx
      exact .head h xs
    | succ t => exact .tail z (ih t (by simpa using hx))

/-- Many tasks have moved on, or one has several times. -/
abbrev MovedMany : List (Standing σ I γ α) → List (Standing σ I γ α) → Prop :=
  Relation.TransGen Moved

/-- One task has moved on where it stands at `x`. -/
theorem movedMany_set {xs : List (Standing σ I γ α)} {t : Nat} (ht : t < xs.length)
    {x y : Standing σ I γ α} (h : Later y x) : MovedMany (xs.set t y) (xs.set t x) := by
  have := moved_set (xs.set t x) t (by simp [ht]) h
  rw [List.set_set] at this
  exact .single this

end Standing

namespace System

open Standing

theorem release_tasks_of_next?_none {s : System σ I γ α} {l : LockId} (h : s.next? l = none) :
    (s.release l).tasks = s.tasks := by
  simp [release, h]

theorem waiter?_of_next? {s : System σ I γ α} {l : LockId} {t : TaskId} {x : Standing σ I γ α}
    (h : s.next? l = some (t, x)) :
    ∃ q r, s.tasks[t]? = some (.waiting l q r) ∧ x = .awake (some l) q r := by
  obtain ⟨t', -, h⟩ := List.exists_of_findSome?_eq_some h
  simp only [Option.map_eq_some_iff, Prod.mk.injEq] at h
  obtain ⟨x', hx, rfl, rfl⟩ := h
  unfold waiter? at hx
  split at hx
  · rename_i m resumed cancelled ht
    split at hx
    · rename_i hm
      subst hm
      exact ⟨resumed, cancelled, ht, (Option.some.inj hx).symm⟩
    · cases hx
  · cases hx

theorem release_tasks_of_next?_some {s : System σ I γ α} {l : LockId} {t : TaskId}
    {x : Standing σ I γ α} (h : s.next? l = some (t, x)) :
    (s.release l).tasks = s.tasks.set t x := by
  simp [release, h, awaken]

@[simp]
theorem release_tasks_length (s : System σ I γ α) (l : LockId) :
    (s.release l).tasks.length = s.tasks.length := by
  unfold release
  split <;> simp [awaken]

/-- A release leaves the task whose turn it is where it is put, and may move another one on. -/
theorem release_moved (s : System σ I γ α) (l : LockId) {t : TaskId} (ht : t < s.tasks.length)
    {y x : Standing σ I γ α} (h : Later y x) :
    MovedMany ((s.release l).tasks.set t y) (s.tasks.set t x) := by
  cases hn : s.next? l with
  | none =>
    rw [release_tasks_of_next?_none hn]
    exact movedMany_set ht h
  | some w =>
    obtain ⟨u, x⟩ := w
    rw [release_tasks_of_next?_some hn]
    by_cases hu : u = t
    · subst hu
      rw [List.set_set]
      exact movedMany_set ht h
    · obtain ⟨q, r, hr, rfl⟩ := waiter?_of_next? hn
      rw [List.set_comm _ _ hu]
      refine .trans (.single (moved_set _ u ?_ (.locked l q r)))
        (movedMany_set ht h)
      rw [List.getElem?_set_ne (Ne.symm hu)]
      exact hr

/-- The turn of a task moves the tasks on. -/
theorem turn_moved (env : Environment I ε γ) {t : TaskId} (p : Program σ I α)
    (s : System σ I γ α) (e : ε) (ht : t < s.tasks.length) :
    MovedMany (turn env t p s e).1.tasks (s.tasks.set t (.ready p)) := by
  induction p generalizing s e with
  | done a => exact movedMany_set ht (.ends a)
  | update f next ih =>
    exact (ih s.state { s with state := f s.state } e ht).trans
      (movedMany_set ht (.runs (.update ..)))
  | ask c next ih => exact (ih _ s _ ht).trans (movedMany_set ht (.runs (.ask ..)))
  | await c next ih =>
    unfold turn
    split
    · exact (ih _ s _ ht).trans (movedMany_set ht (.runs (.await ..)))
    · exact movedMany_set ht (.holds _ (.await ..) (.await ..))
  | acquire l next ih =>
    unfold turn
    split
    · exact (ih _ { s with locks := Assoc.put l t s.locks } e ht).trans
        (movedMany_set ht (.runs (.acquire ..)))
    · exact movedMany_set ht (.waits l (.acquire ..) (.acquire ..))
  | release l next ih =>
    exact (ih () (s.release l) e (by simpa using ht)).trans
      (release_moved s l ht (.runs (.release ..)))

/-! ## Settling -/

/-- Systems are ordered by what becomes of their tasks, then by the number of turns to come. -/
instance : WellFoundedRelation (System σ I γ α) :=
  invImage (fun s => (s.tasks, s.queue.length))
    (Prod.lex ⟨MovedMany, moved_wf.transGen⟩ Nat.lt_wfRel)

/-- A task that has its turn moves the tasks on. -/
theorem turn?_moved (env : Environment I ε γ) {t : TaskId} {p : Program σ I α}
    {s : System σ I γ α} (h : s.turn? t = some p) (queue : List TaskId) (e : ε) :
    MovedMany (turn env t p { s with queue := queue } e).1.tasks s.tasks := by
  unfold turn? at h
  split at h
  · rename_i q hq
    cases h
    have ht : t < s.tasks.length := (List.getElem?_eq_some_iff.1 hq).1
    have same : s.tasks.set t (.ready p) = s.tasks := by
      rw [← (List.getElem?_eq_some_iff.1 hq).2, List.set_getElem_self]
    simpa [same] using turn_moved env p { s with queue := queue } e ht
  · rename_i l q r hq
    cases h
    have ht : t < s.tasks.length := (List.getElem?_eq_some_iff.1 hq).1
    exact (turn_moved env p { s with queue := queue } e ht).trans
      (.single (moved_set _ t hq (.resumes l p r)))
  · cases h

/-- Gives every task that is ready its turn, until none is. -/
def settle (env : Environment I ε γ) (s : System σ I γ α) (e : ε) : System σ I γ α × ε :=
  match _hq : s.queue with
  | [] => (s, e)
  | t :: rest =>
    match _ht : s.turn? t with
    | some p =>
      let r := turn env t p { s with queue := rest } e
      settle env r.1 r.2
    | none => settle env { s with queue := rest } e
termination_by s
decreasing_by
  · exact Prod.Lex.left _ _ (turn?_moved env _ht rest e)
  · simp only [_hq]
    exact Prod.Lex.right _ (Nat.lt_succ_self _)

end System

end Registrar
