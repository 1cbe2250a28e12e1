import Registrar.Proofs.Program.Equations

/-!
# Routines whose state does not matter

A routine often uses the state of the client for its journal and tally alone. When it runs alone
before a world, what it comes to is then a function of the world: `Routine.Yields` relates the
routine to this function, a computation over the state of the world that may fail.
-/

namespace Registrar

/-- A computation over the state of a world that may fail. -/
abbrev Worldly (ε : Type) := ExceptT Failure (StateM ε)

theorem Worldly.run_bind {ε α β : Type} (y : Worldly ε α) (g : α → Worldly ε β) (e : ε) :
    (y >>= g).run e = match y.run e with
      | (.ok a, e') => (g a).run e'
      | (.error f, e') => (.error f, e') := by
  show (ExceptT.bindCont g (y.run e).1) (y.run e).2 = _
  rcases y.run e with ⟨f | a, e'⟩ <;> rfl

theorem Worldly.run_ofExcept {ε α : Type} (x : Except Failure α) (e : ε) :
    (MonadExcept.ofExcept x : Worldly ε α).run e = (x, e) := by
  cases x <;> rfl

/-- A computation ends somewhere. -/
theorem Worldly.exists_run_eq {ε α : Type} {y : Worldly ε α} {r : Except Failure α} {e : ε}
    (h : (y.run e).1 = r) : ∃ e', y.run e = (r, e') :=
  ⟨_, Prod.ext h rfl⟩

/-- A computation that gives a result passes all its parts. -/
theorem Worldly.of_run_bind {ε α β : Type} {y : Worldly ε α} {g : α → Worldly ε β} {b : β}
    {e e'' : ε} (h : (y >>= g).run e = (.ok b, e'')) :
    ∃ a e', y.run e = (.ok a, e') ∧ (g a).run e' = (.ok b, e'') := by
  rw [run_bind] at h
  rcases hy : y.run e with ⟨f | a, e'⟩
  · rw [hy] at h
    cases congrArg Prod.fst h
  · rw [hy] at h
    exact ⟨a, e', rfl, h⟩

theorem Worldly.run_adapt {ε α : Type} (f : Failure → Failure) (y : Worldly ε α) (e : ε) :
    (ExceptT.adapt f y).run e = ((y.run e).1.mapError f, (y.run e).2) := rfl

theorem Worldly.of_run_adapt {ε α : Type} {f : Failure → Failure} {y : Worldly ε α} {a : α}
    {e e' : ε} (h : (ExceptT.adapt f y).run e = (.ok a, e')) : y.run e = (.ok a, e') := by
  rw [run_adapt] at h
  rcases hy : y.run e with ⟨g | b, e₁⟩
  · rw [hy] at h
    cases congrArg Prod.fst h
  · rw [hy] at h
    exact h

theorem Worldly.of_run_pure {ε α : Type} {a b : α} {e e' : ε}
    (h : (pure a : Worldly ε α).run e = (.ok b, e')) : a = b := by
  cases h
  rfl

namespace Routine

variable {I : Interface} {ε α β : Type} {w : Program.World I ε}

/-- From every state of the client the routine, run alone, ends as `y` does and leaves the world as
`y` does. -/
def Yields (w : Program.World I ε) (x : Routine I α) (y : Worldly ε α) : Prop :=
  ∀ s e, ((x.run.run w s e).1, (x.run.run w s e).2.2) = y.run e

theorem Yields.of_run {x : Routine I α} {y : Worldly ε α} (h : Yields w x y)
    {r : Except Failure α} {s s' : State} {e e' : ε} (run : x.run.run w s e = (r, s', e')) :
    y.run e = (r, e') := by
  rw [← h s e, run]

theorem Yields.exists_run {x : Routine I α} {y : Worldly ε α} (h : Yields w x y)
    {r : Except Failure α} {e e' : ε} (ends : y.run e = (r, e')) (s : State) :
    ∃ s', x.run.run w s e = (r, s', e') := by
  have same := (h s e).trans ends
  obtain ⟨rfl, rfl⟩ := Prod.mk.inj same
  exact ⟨_, rfl⟩

theorem yields_pure (a : α) : Yields w (pure a) (pure a) := fun _ _ => rfl

theorem yields_ofExcept (x : Except Failure α) :
    Yields w (ofExcept x) (MonadExcept.ofExcept x) := by
  cases x <;> exact fun _ _ => rfl

theorem yields_await (c : I.Call) : Yields w (await c) (modifyGet (w.reply c)) := fun _ _ => rfl

theorem Yields.bind {x : Routine I α} {y : Worldly ε α} {f : α → Routine I β} {g : α → Worldly ε β}
    (h : Yields w x y) (hf : ∀ a, Yields w (f a) (g a)) : Yields w (x >>= f) (y >>= g) := by
  intro s e
  rw [Routine.run_bind, Program.run_bind, Worldly.run_bind, ← h s e]
  rcases (x.run.run w s e).1 with e' | a
  · rfl
  · exact hf a _ _

/-- A routine that is attempted and whose end is the end after all. -/
theorem Yields.attempt_bind {x : Routine I α} {y : Worldly ε α} (h : Yields w x y)
    {k : Except Failure α → Routine I α} (hk : ∀ r, Yields w (k r) (MonadExcept.ofExcept r)) :
    Yields w (attempt x >>= k) y := by
  intro s e
  rw [run_attempt_bind, Program.run_bind, hk _ _ _, ← h s e]
  rcases (x.run.run w s e).1 with f | a <;> rfl

/-- A record in the journal does not matter. -/
theorem Yields.after_note {x : Routine I α} {y : Worldly ε α} (h : Yields w x y) {logger : Text}
    {level : Level} {message : Text} {fields : Fields} :
    Yields w (do note logger level message fields; x) y := fun _ e => h _ e

theorem Yields.rewording {x : Routine I α} {y : Worldly ε α} (h : Yields w x y)
    (f : ResolutionError → ResolutionError) :
    Yields w (rewording f x) (ExceptT.adapt (reworded f) y) := by
  intro s e
  have hx := h s e
  unfold Routine.rewording
  rw [run_attempt_bind, Program.run_bind]
  show _ = ((y.run e).1.mapError (reworded f), (y.run e).2)
  rw [← hx]
  rcases (x.run.run w s e).1 with (e' | e' | _) | a <;> rfl

/-- Recording how a routine ends does not change how it ends. -/
theorem Yields.logged {x : Routine I α} {y : Worldly ε α} (h : Yields w x y) (l : Logging)
    {level : Level} (hl : l.level.forRecord = .ok level) : Yields w (logged l x) y := by
  have noted : ∀ {γ : Type} {x : Routine I γ} {y : Worldly ε γ} event, Yields w x y →
      Yields w (do l.note event; x) y := by
    intro γ x y event h s e
    simp only [Logging.note, hl]
    exact h _ e
  have completed : Yields w (do let a ← x; l.note "completed"; return a) y := by
    simpa using h.bind fun a => noted "completed" (yields_pure a)
  have ended := completed.attempt_bind (k := handling pure (noticing l)) fun r => by
    rcases r with (e | e | _) | a <;> exact fun _ _ => rfl
  rw [logged_eq]
  split
  · exact noted "starting" ended
  · exact ended

/-- A routine that is logged ends in the same way and leaves the cache and the world as it does. -/
theorem run_logged (x : Routine I α) {l : Logging} (quiet : l.start = false) {level : Level}
    (hl : l.level.forRecord = .ok level) (s : State) (e : ε) :
    ∃ s', (logged l x).run.run w s e = ((x.run.run w s e).1, s', (x.run.run w s e).2.2) ∧
      s'.cache = (x.run.run w s e).2.1.cache := by
  rw [logged_eq, quiet, if_neg (by simp), run_attempt_bind, Program.run_bind, run_bind,
    Program.run_bind]
  generalize x.run.run w s e = out
  obtain ⟨r, s₁, e₁⟩ := out
  rcases r with (f | f | _) | a
  · exact ⟨_, rfl, rfl⟩
  · exact ⟨_, rfl, rfl⟩
  · exact ⟨_, rfl, rfl⟩
  · simp only [continuing, Logging.note, hl]
    exact ⟨_, rfl, rfl⟩

theorem of_run_logged {x : Routine I α} {l : Logging} (quiet : l.start = false) {level : Level}
    (hl : l.level.forRecord = .ok level) {s s' : State} {e e' : ε} {r : Except Failure α}
    (h : (logged l x).run.run w s e = (r, s', e')) :
    ∃ s₁, x.run.run w s e = (r, s₁, e') ∧ s'.cache = s₁.cache := by
  obtain ⟨s₂, run, same⟩ := run_logged (w := w) x quiet hl s e
  cases run.symm.trans h
  exact ⟨_, rfl, same⟩

end Routine

end Registrar
