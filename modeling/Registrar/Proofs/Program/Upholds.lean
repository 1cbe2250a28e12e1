import Registrar.Proofs.Program.Yields

/-!
# Routines that uphold an invariant

An invariant of the cache and of the world is upheld by a routine that leaves it true when it runs
alone from where it is true. Together with it goes what the routine may end with: failures of some
kind, the same for all parts of a routine, and results of some kind, which later parts rely on.
-/

namespace Registrar

variable {I : Interface} {ε α β : Type}

/-- A failure that `F` allows, or a result that `P` allows. -/
inductive Allowed (F : Failure → Prop) (P : α → Prop) : Except Failure α → Prop where
  | error {f : Failure} (h : F f) : Allowed F P (.error f)
  | ok {a : α} (h : P a) : Allowed F P (.ok a)

theorem Allowed.mono {F G : Failure → Prop} {P Q : α → Prop} {r : Except Failure α}
    (h : Allowed F P r) (hF : ∀ f, F f → G f) (hP : ∀ a, P a → Q a) : Allowed G Q r := by
  cases h with
  | error h => exact .error (hF _ h)
  | ok h => exact .ok (hP _ h)

theorem Allowed.any {r : Except Failure α} : Allowed (fun _ => True) (fun _ => True) r := by
  cases r with
  | error f => exact .error trivial
  | ok a => exact .ok trivial

/-- All errors of resolution are allowed. -/
def Plainly (F : Failure → Prop) : Prop := ∀ f, F (.resolution f)

namespace Routine

/-- Run alone where the invariant is true, the routine leaves it true and ends as it is allowed. -/
def Upholds (w : Program.World I ε) (Inv : Cache → ε → Prop) (F : Failure → Prop) (P : α → Prop)
    (x : Routine I α) : Prop :=
  ∀ st e, Inv st.cache e →
    Inv (x.run.run w st e).2.1.cache (x.run.run w st e).2.2 ∧ Allowed F P (x.run.run w st e).1

variable {w : Program.World I ε} {Inv : Cache → ε → Prop} {F : Failure → Prop} {P : α → Prop}
  {Q : β → Prop}

theorem upholds_ofExcept {r : Except Failure α} (h : Allowed F P r) :
    Upholds w Inv F P (ofExcept r) := by
  intro st e inv
  rw [run_ofExcept]
  exact ⟨inv, h⟩

theorem upholds_pure {a : α} (h : P a) : Upholds w Inv F P (pure a) :=
  upholds_ofExcept (.ok h)

theorem upholds_throw {f : Failure} (h : F f) : Upholds w Inv F P (throw f) :=
  upholds_ofExcept (.error h)

theorem Upholds.bind {x : Routine I α} {f : α → Routine I β} (h : Upholds w Inv F P x)
    (hf : ∀ a, P a → Upholds w Inv F Q (f a)) : Upholds w Inv F Q (x >>= f) := by
  intro st e inv
  obtain ⟨kept, allowed⟩ := h st e inv
  rw [run_bind, Program.run_bind]
  generalize x.run.run w st e = out at kept allowed ⊢
  obtain ⟨r, st', e'⟩ := out
  cases allowed with
  | error h => exact ⟨kept, .error h⟩
  | ok h => exact hf _ h st' e' kept

theorem Upholds.mono {P' : α → Prop} {x : Routine I α} (h : Upholds w Inv F P x)
    (hP : ∀ a, P a → P' a) : Upholds w Inv F P' x :=
  fun st e inv => ⟨(h st e inv).1, (h st e inv).2.mono (fun _ => id) hP⟩

theorem upholds_resolving (plain : Plainly F) {x : Except ResolutionError α}
    (h : ∀ a, x = .ok a → P a) : Upholds w Inv F P (resolving x) := by
  cases x with
  | ok a => exact upholds_pure (h a rfl)
  | error f => exact upholds_throw (plain f)

theorem Upholds.rewording (plain : Plainly F) {x : Routine I α} (h : Upholds w Inv F P x)
    (f : ResolutionError → ResolutionError) : Upholds w Inv F P (rewording f x) := by
  intro st e inv
  obtain ⟨kept, allowed⟩ := h st e inv
  unfold Routine.rewording
  rw [run_attempt_bind, Program.run_bind]
  generalize x.run.run w st e = out at kept allowed ⊢
  obtain ⟨(g | g | _) | a, st', e'⟩ := out
  · exact ⟨kept, .error (plain (f g))⟩
  · exact ⟨kept, allowed⟩
  · exact ⟨kept, allowed⟩
  · exact ⟨kept, allowed⟩

theorem upholds_note (logger : Text) (level : Level) (message : Text) (fields : Fields) :
    Upholds w Inv F (fun _ => True) (note logger level message fields) :=
  fun _ _ inv => ⟨inv, .ok trivial⟩

/-- Recording how a routine ends is of no consequence. -/
theorem Upholds.logged {x : Routine I α} (h : Upholds w Inv F P x) {l : Logging}
    (quiet : l.start = false) {level : Level} (hl : l.level.forRecord = .ok level) :
    Upholds w Inv F P (logged l x) := by
  intro st e inv
  obtain ⟨s', run, same⟩ := run_logged (w := w) x quiet hl st e
  rw [run, same]
  exact h st e inv

/-- A routine that is allowed no result and one failure fails in this way. -/
theorem Upholds.fails {x : Routine I α} {f : Failure}
    (h : Upholds w Inv (· = f) (fun _ => False) x) {st : State} {e : ε} (inv : Inv st.cache e) :
    (x.run.run w st e).1 = .error f := by
  obtain ⟨-, allowed⟩ := h st e inv
  generalize (x.run.run w st e).1 = r at allowed ⊢
  cases allowed with
  | error h => rw [h]
  | ok h => exact h.elim

end Routine

/-! ## Before a world alone -/

namespace Worldly

variable {F : Failure → Prop} {P : α → Prop} {Q : β → Prop}

/-- The computation ends as it is allowed, however the world stands. -/
def Comes (F : Failure → Prop) (P : α → Prop) (y : Worldly ε α) : Prop :=
  ∀ e, Allowed F P (y.run e).1

theorem comes_ofExcept {r : Except Failure α} (h : Allowed F P r) :
    Comes F P (MonadExcept.ofExcept r : Worldly ε α) := by
  intro e
  rw [run_ofExcept]
  exact h

theorem Comes.bind {y : Worldly ε α} {g : α → Worldly ε β} (h : Comes F P y)
    (hg : ∀ a, P a → Comes F Q (g a)) : Comes F Q (y >>= g) := by
  intro e
  rw [run_bind]
  have allowed := h e
  generalize y.run e = out at allowed ⊢
  obtain ⟨r, e'⟩ := out
  cases allowed with
  | error h => exact .error h
  | ok h => exact hg _ h e'

end Worldly

theorem Routine.Yields.upholds {w : Program.World I ε} {x : Routine I α} {y : Worldly ε α}
    (h : Yields w x y) {F : Failure → Prop} {P : α → Prop} (hy : y.Comes F P) :
    Upholds w (fun _ _ => True) F P x := by
  intro st e _
  have given : (x.run.run w st e).1 = (y.run e).1 := congrArg Prod.fst (h st e)
  rw [given]
  exact ⟨trivial, hy e⟩

end Registrar
