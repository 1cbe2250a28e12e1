import Registrar.Proofs.Program.Equations

/-!
# What programs end with

A program ends with what a predicate allows if all its ends do, whatever it is answered and whatever
others do to the state meanwhile. A routine gives such results if those of its ends do that are no
failures.
-/

namespace Registrar

variable {σ : Type} {I : Interface} {α β ε : Type}

namespace Program

/-- Every end of the program satisfies the predicate. -/
def Ends (Q : α → Prop) : Program σ I α → Prop
  | .done a => Q a
  | .update _ next => ∀ s, (next s).Ends Q
  | .ask _ next => ∀ r, (next r).Ends Q
  | .await _ next => ∀ w, (next w).Ends Q
  | .acquire _ next => ∀ w, (next w).Ends Q
  | .release _ next => ∀ u, (next u).Ends Q

variable {Q : α → Prop} {P : β → Prop}

theorem Ends.bind {p : Program σ I α} {f : α → Program σ I β} (h : p.Ends Q)
    (hf : ∀ a, Q a → (f a).Ends P) : (p.bind f).Ends P := by
  induction p with
  | done a => exact hf a h
  | update g next ih => exact fun s => ih s (h s)
  | ask c next ih => exact fun r => ih r (h r)
  | await c next ih => exact fun w => ih w (h w)
  | acquire l next ih => exact fun w => ih w (h w)
  | release l next ih => exact fun u => ih u (h u)

theorem ends_of_forall (h : ∀ a, Q a) (p : Program σ I α) : p.Ends Q := by
  induction p with
  | done a => exact h a
  | update g next ih => exact ih
  | ask c next ih => exact ih
  | await c next ih => exact ih
  | acquire l next ih => exact ih
  | release l next ih => exact ih

/-- So does the end of a run alone. -/
theorem Ends.run {p : Program σ I α} (h : p.Ends Q) (w : World I ε) (s : σ) (e : ε) :
    Q (p.run w s e).1 := by
  induction p generalizing s e with
  | done a => exact h
  | update f next ih => exact ih s (h s) _ e
  | ask c next ih => exact ih _ (h _) s _
  | await c next ih => exact ih _ (h _) s _
  | acquire l next ih => exact ih _ (h _) s e
  | release l next ih => exact ih _ (h _) s e

end Program

/-! ## Routines -/

namespace Routine

/-- Every result of the routine satisfies the predicate. -/
def Gives (Q : α → Prop) (x : Routine I α) : Prop :=
  Program.Ends (fun r => ∀ a, r = .ok a → Q a) x.run

variable {Q : α → Prop} {P : β → Prop}

theorem gives_pure {a : α} (h : Q a) : Gives Q (pure a : Routine I α) := by
  rintro _ ⟨⟩
  exact h

theorem gives_throw (f : Failure) : Gives Q (throw f : Routine I α) := by
  rintro _ ⟨⟩

theorem Gives.bind {x : Routine I α} {f : α → Routine I β} (h : Gives Q x)
    (hf : ∀ a, Q a → Gives P (f a)) : Gives P (x >>= f) := by
  refine Program.Ends.bind h fun r hr => ?_
  cases r with
  | ok a => exact hf a (hr a rfl)
  | error e => rintro _ ⟨⟩

/-- Nothing has to be known of a result. -/
theorem gives_anything (x : Routine I α) : Gives (fun _ => True) x :=
  Program.ends_of_forall (fun _ _ _ => trivial) x.run

theorem gives_resolving {x : Except ResolutionError α} (h : ∀ a, x = .ok a → Q a) :
    Gives Q (resolving x : Routine I α) := by
  cases x with
  | ok a => exact gives_pure (h a rfl)
  | error e => exact gives_throw _

theorem Gives.rewording {x : Routine I α} (h : Gives Q x) (f : ResolutionError → ResolutionError) :
    Gives Q (rewording f x) := by
  unfold Routine.rewording
  refine Program.Ends.bind (Q := fun r => ∀ r' a, r = .ok r' → r' = .ok a → Q a)
    (Program.Ends.bind h ?_) fun r hr => ?_
  · rintro r hr _ a ⟨⟩
    exact hr a
  · rcases r with f | (e | e | _) | a
    all_goals first | exact gives_throw _ | exact gives_pure (hr _ _ rfl rfl)

theorem gives_mapM {γ : Type} {f : γ → Routine I α} {l : List γ} (h : ∀ c ∈ l, Gives Q (f c)) :
    Gives (fun as => ∀ a ∈ as, Q a) (l.mapM f) := by
  induction l with
  | nil => exact gives_pure (by simp)
  | cons c l ih =>
    rw [List.mapM_cons]
    refine (h c (.head _)).bind fun a ha => ?_
    refine (ih fun d hd => h d (.tail _ hd)).bind fun as has => gives_pure ?_
    exact List.forall_mem_cons.2 ⟨ha, has⟩

/-- A result of a run alone satisfies the predicate. -/
theorem Gives.run {x : Routine I α} (h : Gives Q x) {w : Program.World I ε} {s s' : State}
    {e e' : ε} {a : α} (run : x.run.run w s e = (.ok a, s', e')) : Q a :=
  Program.Ends.run h w s e a (by rw [run])

end Routine

end Registrar
