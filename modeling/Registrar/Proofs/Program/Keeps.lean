import Mathlib.Logic.Relation
import Registrar.Proofs.Program.Equations
import Registrar.Schedule.Settling

/-!
# Programs that keep a relation

A program keeps a relation when each of its state changes relates the state to the one before, and
when it neither takes nor gives back a lock. What is known of a state that others leave alone then
holds throughout such a program, whether it runs alone or takes turns with other tasks.
-/

namespace Registrar

variable {σ : Type} {I : Interface} {α β ε : Type}

namespace Program

/-- Every state change of the program relates the states before and after it, and the program takes
and gives back no lock. -/
def Keeps (R : σ → σ → Prop) : Program σ I α → Prop
  | .done _ => True
  | .update f next => (∀ s, R s (f s)) ∧ ∀ s, (next s).Keeps R
  | .ask _ next => ∀ r, (next r).Keeps R
  | .await _ next => ∀ w, (next w).Keeps R
  | .acquire _ _ => False
  | .release _ _ => False

variable {R Q : σ → σ → Prop}

theorem Keeps.mono {p : Program σ I α} (h : p.Keeps R) (hR : ∀ s t, R s t → Q s t) :
    p.Keeps Q := by
  induction p with
  | done a => trivial
  | update f next ih => exact ⟨fun s => hR _ _ (h.1 s), fun s => ih s (h.2 s)⟩
  | ask c next ih => exact fun r => ih r (h r)
  | await c next ih => exact fun w => ih w (h w)
  | acquire l next ih => exact h.elim
  | release l next ih => exact h.elim

theorem Keeps.bind {p : Program σ I α} {f : α → Program σ I β} (h : p.Keeps R)
    (hf : ∀ a, (f a).Keeps R) : (p.bind f).Keeps R := by
  induction p with
  | done a => exact hf a
  | update g next ih => exact ⟨h.1, fun s => ih s (h.2 s)⟩
  | ask c next ih => exact fun r => ih r (h r)
  | await c next ih => exact fun w => ih w (h w)
  | acquire l next ih => exact h.elim
  | release l next ih => exact h.elim

/-- So does whatever is left of the program. -/
theorem Keeps.of_parts {p q : Program σ I α} (h : p.Keeps R)
    (parts : Relation.ReflTransGen Part q p) : q.Keeps R := by
  induction parts using Relation.ReflTransGen.head_induction_on with
  | refl => exact h
  | head part _ ih =>
    cases part with
    | update f next s => exact ih.2 s
    | ask c next r => exact ih r
    | await c next w => exact ih w
    | acquire => exact ih.elim
    | release => exact ih.elim

/-- A program that runs alone relates the last state to the first one. -/
theorem Keeps.run {p : Program σ I α} (h : p.Keeps R) (refl : ∀ s, R s s)
    (trans : ∀ s t u, R s t → R t u → R s u) (w : World I ε) (s : σ) (e : ε) :
    R s (p.run w s e).2.1 := by
  induction p generalizing s e with
  | done a => exact refl s
  | update f next ih => exact trans _ _ _ (h.1 s) (ih s (h.2 s) _ e)
  | ask c next ih => exact ih _ (h _) s _
  | await c next ih => exact ih _ (h _) s _
  | acquire l next ih => exact h.elim
  | release l next ih => exact h.elim

end Program

/-! ## Routines -/

namespace Routine

/-- The program of the routine keeps the relation. -/
def Keeps (R : State → State → Prop) (x : Routine I α) : Prop := Program.Keeps R x.run

variable {R Q : State → State → Prop}

theorem Keeps.mono {x : Routine I α} (h : Keeps R x) (hR : ∀ s t, R s t → Q s t) : Keeps Q x :=
  Program.Keeps.mono h hR

theorem keeps_pure (a : α) : Keeps R (pure a : Routine I α) := trivial

theorem keeps_throw (f : Failure) : Keeps R (throw f : Routine I α) := trivial

theorem Keeps.bind {x : Routine I α} {f : α → Routine I β} (h : Keeps R x)
    (hf : ∀ a, Keeps R (f a)) : Keeps R (x >>= f) := by
  refine Program.Keeps.bind h fun r => ?_
  cases r with
  | ok a => exact hf a
  | error e => trivial

theorem keeps_update {f : State → State} (h : ∀ s, R s (f s)) :
    Keeps R (update f : Routine I State) :=
  ⟨h, fun _ => trivial⟩

theorem keeps_current (refl : ∀ s, R s s) : Keeps R (current : Routine I State) :=
  keeps_update refl

theorem keeps_await (c : I.Call) : Keeps R (await c) := by
  intro w
  cases w <;> trivial

theorem keeps_ofExcept (x : Except Failure α) : Keeps R (ofExcept x : Routine I α) := by
  cases x <;> trivial

theorem keeps_resolving (x : Except ResolutionError α) : Keeps R (resolving x : Routine I α) := by
  cases x <;> trivial

theorem Keeps.attempt {x : Routine I α} (h : Keeps R x) : Keeps R (attempt x) :=
  Program.Keeps.bind h fun _ => trivial

theorem Keeps.rewording {x : Routine I α} (h : Keeps R x) (f : ResolutionError → ResolutionError) :
    Keeps R (rewording f x) := by
  refine h.attempt.bind fun r => ?_
  rcases r with (e | e | _) | a
  · exact keeps_throw _
  · exact keeps_throw _
  · exact keeps_throw _
  · exact keeps_pure a

theorem keeps_mapM {γ : Type} {f : γ → Routine I α} {l : List γ} (h : ∀ c ∈ l, Keeps R (f c)) :
    Keeps R (l.mapM f) := by
  induction l with
  | nil => exact keeps_pure []
  | cons c l ih =>
    rw [List.mapM_cons]
    refine (h c (.head _)).bind fun a => ?_
    exact (ih fun d hd => h d (.tail _ hd)).bind fun as => keeps_pure _

/-! ## What leaves the cache alone -/

/-- The cache is the same. -/
def SameCache (s t : State) : Prop := t.cache = s.cache

theorem keeps_note (logger : Text) (level : Level) (message : Text) (fields : Fields) :
    Keeps SameCache (note logger level message fields : Routine I Unit) :=
  (keeps_update (R := SameCache) fun _ => rfl).bind fun _ => keeps_pure ()

theorem keeps_mark (m : Mark) : Keeps SameCache (mark m : Routine I Unit) :=
  (keeps_update (R := SameCache) fun _ => rfl).bind fun _ => keeps_pure ()

theorem keeps_loggingNote (l : Logging) (event : String) :
    Keeps SameCache (l.note event : Routine I Unit) :=
  (keeps_ofExcept _).bind fun _ => keeps_note ..

theorem keeps_noticing (l : Logging) (f : Failure) :
    Keeps SameCache (noticing l f : Routine I α) := by
  rcases f with e | e | _
  · exact (keeps_note ..).bind fun _ => keeps_throw _
  · exact (keeps_note ..).bind fun _ => keeps_throw _
  · exact keeps_throw _

theorem Keeps.logged {x : Routine I α} (h : Keeps SameCache x) (l : Logging) :
    Keeps SameCache (logged l x) := by
  have completed : Keeps SameCache (do let a ← x; l.note "completed"; return a) :=
    h.bind fun a => (keeps_loggingNote l _).bind fun _ => keeps_pure a
  have ended : Keeps SameCache (Routine.attempt (do let a ← x; l.note "completed"; return a) >>=
      handling pure (noticing l)) := by
    refine completed.attempt.bind fun r => ?_
    rcases r with f | a
    · exact keeps_noticing l f
    · exact keeps_pure a
  rw [logged_eq]
  split
  · exact (keeps_loggingNote l _).bind fun _ => ended
  · exact ended

end Routine

end Registrar
