import Registrar.Proofs.Program.Keeps

/-!
# Programs inside a lock

A program that runs inside a lock may take other locks. It is `Apart` from the lock if it never
takes that one, takes the others one at a time, gives each back and holds none when it ends. Which
locks it takes depends on the state, so the state has to be fit, and every change keeps it so.
-/

namespace Registrar

variable {σ : Type} {I : Interface} {α β : Type}

namespace Program

/-- The program, which holds the lock `held` if any, leaves the lock `l` alone. Nothing is said of
what it does when it is cancelled. -/
def Apart (l : LockId) (Fit : σ → Prop) : Program σ I α → Option LockId → Prop
  | .done _, held => held = none
  | .update f next, held => ∀ s, Fit s → Fit (f s) ∧ (next s).Apart l Fit held
  | .ask _ next, held => ∀ r, (next r).Apart l Fit held
  | .await _ next, held => ∀ r, (next (.value r)).Apart l Fit held
  | .acquire m next, held => held = none ∧ m ≠ l ∧ (next (.value ())).Apart l Fit (some m)
  | .release m next, held => held = some m ∧ m ≠ l ∧ (next ()).Apart l Fit none

variable {l : LockId} {Fit : σ → Prop} {held : Option LockId}

theorem Apart.bind {p : Program σ I α} {f : α → Program σ I β} (h : p.Apart l Fit held)
    (hf : ∀ a, (f a).Apart l Fit none) : (p.bind f).Apart l Fit held := by
  induction p generalizing held with
  | done a => exact h ▸ hf a
  | update g next ih => exact fun s fit => ⟨(h s fit).1, ih s (h s fit).2⟩
  | ask c next ih => exact fun r => ih r (h r)
  | await c next ih => exact fun r => ih _ (h r)
  | acquire m next ih => exact ⟨h.1, h.2.1, ih _ h.2.2⟩
  | release m next ih => exact ⟨h.1, h.2.1, ih _ h.2.2⟩

/-- What concerns no lock may come first, whatever is held. -/
theorem Keeps.apart_bind {R : σ → σ → Prop} {p : Program σ I α} {f : α → Program σ I β}
    (h : p.Keeps R) (fit : ∀ s t, R s t → Fit s → Fit t) (hf : ∀ a, (f a).Apart l Fit held) :
    (p.bind f).Apart l Fit held := by
  induction p with
  | done a => exact hf a
  | update g next ih => exact fun s ok => ⟨fit _ _ (h.1 s) ok, ih s (h.2 s)⟩
  | ask c next ih => exact fun r => ih r (h r)
  | await c next ih => exact fun r => ih _ (h _)
  | acquire m next ih => exact h.elim
  | release m next ih => exact h.elim

end Program

/-! ## Routines -/

namespace Routine

variable {l : LockId} {Fit : State → Prop}

/-- The routine leaves the lock alone. -/
structure Apart (l : LockId) (Fit : State → Prop) (x : Routine I α) : Prop where
  program : Program.Apart l Fit x.run none

theorem apart_pure (a : α) : Apart l Fit (pure a : Routine I α) := ⟨rfl⟩

theorem apart_throw (f : Failure) : Apart l Fit (throw f : Routine I α) := ⟨rfl⟩

theorem apart_ofExcept (r : Except Failure α) : Apart l Fit (ofExcept r : Routine I α) := by
  cases r with
  | ok a => exact apart_pure a
  | error f => exact apart_throw f

theorem Apart.bind {x : Routine I α} {f : α → Routine I β} (h : Apart l Fit x)
    (hf : ∀ a, Apart l Fit (f a)) : Apart l Fit (x >>= f) where
  program := by
    rw [run_bind]
    refine Program.Apart.bind h.program fun r => ?_
    cases r with
    | ok a => exact (hf a).program
    | error e => rfl

/-- So does one that takes and gives back no lock. -/
theorem Keeps.apart {R : State → State → Prop} {x : Routine I α} (h : Keeps R x)
    (fit : ∀ s t, R s t → Fit s → Fit t) : Apart l Fit x where
  program := by
    have whole : x.run.bind .done = x.run := Program.bind_done _
    rw [← whole]
    exact Program.Keeps.apart_bind h fit fun _ => rfl

theorem Apart.attempt_bind {x : Routine I α} {f : Except Failure α → Routine I β}
    (h : Apart l Fit x) (hf : ∀ r, Apart l Fit (f r)) : Apart l Fit (attempt x >>= f) where
  program := by
    rw [run_attempt_bind]
    exact Program.Apart.bind h.program fun r => (hf r).program

theorem Apart.logged {x : Routine I α} (h : Apart l Fit x)
    (fit : ∀ s t, SameCache s t → Fit s → Fit t) (logging : Logging) :
    Apart l Fit (logged logging x) := by
  have completed : Apart l Fit (do let a ← x; logging.note "completed"; return a) :=
    h.bind fun a => ((keeps_loggingNote logging _).apart fit).bind fun _ => apart_pure a
  have ended : Apart l Fit (Routine.attempt
      (do let a ← x; logging.note "completed"; return a) >>= handling pure (noticing logging)) := by
    refine completed.attempt_bind fun r => ?_
    rcases r with f | a
    · exact (keeps_noticing logging f).apart fit
    · exact apart_pure a
  rw [logged_eq]
  split
  · exact ((keeps_loggingNote logging _).apart fit).bind fun _ => ended
  · exact ended

end Routine

end Registrar
