import Registrar.Routine

/-!
# The programs of routines

What a routine does is the program which it stands for. The equations here unfold sequencing,
attempts, clean-up and locks, so that a routine is read as what it does first and what is left then.
-/

namespace Registrar.Routine

variable {I : Interface} {α β : Type}

/-- What follows a part of a routine that ended with `r`. -/
def continuing (f : α → Routine I β) : Except Failure α → Program State I (Except Failure β)
  | .ok a => (f a).run
  | .error e => .done (.error e)

theorem run_bind (x : Routine I α) (f : α → Routine I β) :
    (x >>= f).run = x.run.bind (continuing f) := by
  show x.run.bind _ = _
  congr 1
  funext r
  cases r <;> rfl

theorem run_attempt_bind (x : Routine I α) (f : Except Failure α → Routine I β) :
    (attempt x >>= f).run = x.run.bind fun r => (f r).run := by
  show (x.run.bind (Program.done ∘ Except.ok)).bind _ = _
  rw [Program.bind_assoc]
  rfl

/-! ## Handling failures -/

/-- Goes on with `f` after a result and with `g` after a failure. -/
def handling (f : α → Routine I β) (g : Failure → Routine I β) : Except Failure α → Routine I β
  | .ok a => f a
  | .error e => g e

theorem attempt_pure_bind (a : α) (f : Except Failure α → Routine I β) :
    attempt (pure a) >>= f = f (.ok a) := rfl

theorem attempt_bind {γ : Type} (x : Routine I α) (k : α → Routine I β) (f : β → Routine I γ)
    (g : Failure → Routine I γ) :
    attempt (x >>= k) >>= handling f g =
      attempt x >>= handling (fun a => attempt (k a) >>= handling f g) g := by
  apply ExceptT.ext
  rw [run_attempt_bind, run_attempt_bind, run_bind, Program.bind_assoc]
  congr 1
  funext r
  cases r with
  | ok a => exact (run_attempt_bind (k a) _).symm
  | error e => rfl

/-- What a failure becomes when the errors of resolution are reworded. -/
def reworded (f : ResolutionError → ResolutionError) : Failure → Failure
  | .resolution e => .resolution (f e)
  | e => e

theorem rewording_bind (f : ResolutionError → ResolutionError) (x : Routine I α)
    (k : α → Routine I β) :
    rewording f x >>= k = attempt x >>= handling k fun e => throw (reworded f e) := by
  unfold rewording
  rw [bind_assoc]
  refine bind_congr fun r => ?_
  rcases r with (e | e | _) | a <;> rfl

/-- How a routine that is logged ends when it fails. -/
def noticing (l : Logging) : Failure → Routine I α
  | .cancelled => throw .cancelled
  | f => do
    note l.logger Level.warning (l.name ++ " failed") (f.describedFields [])
    throw f

theorem logged_eq (l : Logging) (x : Routine I α) :
    logged l x = (do
      if l.start then l.note "starting"
      attempt (do let a ← x; l.note "completed"; return a) >>= handling pure (noticing l)) := by
  unfold logged
  split
  · refine bind_congr fun _ => bind_congr fun r => ?_
    rcases r with (e | e | _) | a <;> rfl
  · refine bind_congr fun r => ?_
    rcases r with (e | e | _) | a <;> rfl

/-! ## Clean-up and locks -/

/-- What is left of a routine that ended with `r` when its clean-up is still to come. -/
def after (cleanup : Routine I Unit) (r : Except Failure α) : Program State I (Except Failure α) :=
  cleanup.run.bind (continuing fun _ => ofExcept r)

theorem run_ensuring (body : Routine I α) (cleanup : Routine I Unit) :
    (ensuring body cleanup).run = body.run.bind (after cleanup) := by
  unfold ensuring
  rw [run_attempt_bind]
  congr 1
  funext r
  exact run_bind cleanup _

theorem run_ofExcept (r : Except Failure α) : (ofExcept r : Routine I α).run = .done r := by
  cases r <;> rfl

theorem after_release (l : LockId) (r : Except Failure α) :
    after (release l : Routine I Unit) r = .release l fun _ => .done r := by
  show Program.release l _ = _
  congr 1
  funext u
  exact run_ofExcept r

theorem run_holding (l : LockId) (body : Routine I α) :
    (holding l body).run = .acquire l fun
      | .value () => body.run.bind fun r => .release l fun _ => .done r
      | .cancelled => .done (.error .cancelled) := by
  show Program.acquire l _ = _
  congr 1
  funext w
  cases w with
  | value u =>
    show (ensuring body (release l)).run = _
    rw [run_ensuring]
    congr 1
    funext r
    exact after_release l r
  | cancelled => rfl

/-! ## Running alone -/

/-- A routine that gives a result passes all its parts. -/
theorem of_run_bind {ε : Type} {w : Program.World I ε} {x : Routine I α} {f : α → Routine I β}
    {b : β} {s s' : State} {e e' : ε} (h : (x >>= f).run.run w s e = (.ok b, s', e')) :
    ∃ a s₁ e₁, x.run.run w s e = (.ok a, s₁, e₁) ∧ (f a).run.run w s₁ e₁ = (.ok b, s', e') := by
  rw [run_bind, Program.run_bind] at h
  generalize x.run.run w s e = out at h
  obtain ⟨r, s₁, e₁⟩ := out
  cases r with
  | error f => cases congrArg Prod.fst h
  | ok a => exact ⟨a, s₁, e₁, rfl, h⟩

theorem run_bind_ok {ε : Type} {w : Program.World I ε} {x : Routine I α} {f : α → Routine I β}
    {a : α} {s s' : State} {e e' : ε} (h : x.run.run w s e = (.ok a, s', e')) :
    (x >>= f).run.run w s e = (f a).run.run w s' e' := by
  rw [run_bind, Program.run_bind, h]
  rfl

theorem run_bind_error {ε : Type} {w : Program.World I ε} {x : Routine I α} {k : α → Routine I β}
    {f : Failure} {s s' : State} {e e' : ε} (h : x.run.run w s e = (.error f, s', e')) :
    (x >>= k).run.run w s e = (.error f, s', e') := by
  rw [run_bind, Program.run_bind, h]
  rfl

/-- A run ends somewhere. -/
theorem exists_run_eq {ε : Type} {w : Program.World I ε} {x : Routine I α} {r : Except Failure α}
    {s : State} {e : ε} (h : (x.run.run w s e).1 = r) :
    ∃ s' e', x.run.run w s e = (r, s', e') :=
  ⟨_, _, Prod.ext h rfl⟩

end Registrar.Routine
