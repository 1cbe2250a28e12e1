import Registrar.Proofs.Program.Equations

/-!
# What programs do

What a program has done so far is a list of acts: it has changed the state, or it has made a call
and got a reply or been cancelled while it waited. `Path` relates a program to what it may have done
and to what is left of it then, whatever the replies are and whatever others do to the state
meanwhile. A program `Proceeds` as promised if one thing holds of its acts whenever it makes a call
and another one when it ends. A routine honours a `Contract` if it proceeds so from all acts of which
the first holds.
-/

namespace Registrar

variable {σ : Type} {I : Interface} {α β : Type}

/-- What a program does. -/
inductive Act (σ : Type) (I : Interface) where
  | changed (s t : σ)
  | called (c : I.Call) (w : Wake (I.Reply c))

namespace Program

/-- `Path p es q`: the program `p` may have done `es` when `q` is left of it. -/
inductive Path : Program σ I α → List (Act σ I) → Program σ I α → Prop where
  | refl (p : Program σ I α) : Path p [] p
  | update {f : σ → σ} {next : σ → Program σ I α} {es : List (Act σ I)} {q : Program σ I α} (s : σ)
    (h : Path (next s) es q) : Path (.update f next) (.changed s (f s) :: es) q
  | ask {c : I.Call} {next : I.Reply c → Program σ I α} {es : List (Act σ I)}
    {q : Program σ I α} (r : I.Reply c) (h : Path (next r) es q) :
    Path (.ask c next) (.called c (.value r) :: es) q
  | await {c : I.Call} {next : Wake (I.Reply c) → Program σ I α} {es : List (Act σ I)}
    {q : Program σ I α} (w : Wake (I.Reply c)) (h : Path (next w) es q) :
    Path (.await c next) (.called c w :: es) q
  | acquire {l : LockId} {next : Wake Unit → Program σ I α} {es : List (Act σ I)}
    {q : Program σ I α} (w : Wake Unit) (h : Path (next w) es q) : Path (.acquire l next) es q
  | release {l : LockId} {next : Unit → Program σ I α} {es : List (Act σ I)} {q : Program σ I α}
    (u : Unit) (h : Path (next u) es q) : Path (.release l next) es q

/-- The program is about to make a call. -/
def Calls : Program σ I α → Prop
  | .ask _ _ | .await _ _ => True
  | _ => False

section

variable (At : List (Act σ I) → Prop) (End : List (Act σ I) → α → Prop)

/-- After the acts `es` the program goes on so that `At` holds whenever it makes a call and `End`
when it ends. -/
def Proceeds : Program σ I α → List (Act σ I) → Prop
  | .done a, es => End es a
  | .update f next, es => ∀ s, (next s).Proceeds (es ++ [.changed s (f s)])
  | .ask c next, es => At es ∧ ∀ r, (next r).Proceeds (es ++ [.called c (.value r)])
  | .await c next, es => At es ∧ ∀ w, (next w).Proceeds (es ++ [.called c w])
  | .acquire _ next, es => ∀ w, (next w).Proceeds es
  | .release _ next, es => ∀ u, (next u).Proceeds es

end

variable {At : List (Act σ I) → Prop} {End : List (Act σ I) → α → Prop}
  {End' : List (Act σ I) → β → Prop} {es done : List (Act σ I)} {p q : Program σ I α}

theorem Proceeds.bind {f : α → Program σ I β} (h : p.Proceeds At End es)
    (hf : ∀ a es', End es' a → (f a).Proceeds At End' es') : (p.bind f).Proceeds At End' es := by
  induction p generalizing es with
  | done a => exact hf a es h
  | update g next ih => exact fun s => ih s (h s)
  | ask c next ih => exact ⟨h.1, fun r => ih r (h.2 r)⟩
  | await c next ih => exact ⟨h.1, fun w => ih w (h.2 w)⟩
  | acquire l next ih => exact fun w => ih w (h w)
  | release l next ih => exact fun u => ih u (h u)

theorem Proceeds.imp {End' : List (Act σ I) → α → Prop} (h : p.Proceeds At End es)
    (weaker : ∀ a es', End es' a → End' es' a) : p.Proceeds At End' es := by
  have same := h.bind (f := .done) weaker
  rwa [bind_done] at same

/-- Along every path the program goes on as promised. -/
theorem Proceeds.path (h : p.Proceeds At End done) (path : Path p es q) :
    q.Proceeds At End (done ++ es) := by
  induction path generalizing done with
  | refl p => simpa using h
  | update s _ ih => simpa using ih (h s)
  | ask r _ ih => simpa using ih (h.2 r)
  | await w _ ih => simpa using ih (h.2 w)
  | acquire w _ ih => exact ih (h w)
  | release u _ ih => exact ih (h u)

/-- A program that is never about to make a call has made none. -/
theorem Proceeds.forall_changed (h : p.Proceeds (fun _ => False) End done) (path : Path p es q) :
    ∀ a ∈ es, ∃ s t, a = .changed s t := by
  induction path generalizing done with
  | refl p => simp
  | @update f next es q s _ ih =>
    exact List.forall_mem_cons.2 ⟨⟨s, f s, rfl⟩, ih (h s)⟩
  | ask r _ ih => exact h.1.elim
  | await w _ ih => exact h.1.elim
  | acquire w _ ih => exact ih (h w)
  | release u _ ih => exact ih (h u)

theorem Proceeds.of_calls (h : p.Proceeds At End es) (calls : p.Calls) : At es := by
  cases p with
  | ask c next => exact h.1
  | await c next => exact h.1
  | _ => exact calls.elim

/-! ## Runs alone -/

variable {ε : Type}

/-- What the program does when it runs alone. -/
def acts (w : World I ε) (p : Program σ I α) (s : σ) (e : ε) : List (Act σ I) :=
  match p with
  | .done _ => []
  | .update f next => .changed s (f s) :: (next s).acts w (f s) e
  | .ask c next =>
    .called c (.value (w.reply c e).1) :: (next (w.reply c e).1).acts w s (w.reply c e).2
  | .await c next =>
    .called c (.value (w.reply c e).1) :: (next (.value (w.reply c e).1)).acts w s (w.reply c e).2
  | .acquire _ next => (next (.value ())).acts w s e
  | .release _ next => (next ()).acts w s e

/-- A run alone is a path. -/
theorem path_acts (w : World I ε) (p : Program σ I α) (s : σ) (e : ε) :
    Path p (p.acts w s e) (.done (p.run w s e).1) := by
  induction p generalizing s e with
  | done a => exact .refl _
  | update f next ih => exact .update s (ih s (f s) e)
  | ask c next ih => exact .ask _ (ih _ s _)
  | await c next ih => exact .await _ (ih _ s _)
  | acquire l next ih => exact .acquire _ (ih _ s e)
  | release l next ih => exact .release _ (ih _ s e)

/-- The calls of a run alone get the replies of the world. -/
theorem reply_of_mem_acts {w : World I ε} {p : Program σ I α} {s : σ} {e : ε} {c : I.Call}
    {r : Wake (I.Reply c)} (h : .called c r ∈ p.acts w s e) :
    ∃ e', r = .value (w.reply c e').1 := by
  induction p generalizing s e with
  | done a => simp [acts] at h
  | update f next ih => exact ih s (by simpa [acts] using h)
  | ask c' next ih =>
    rcases List.mem_cons.1 h with same | mem
    · cases same
      exact ⟨e, rfl⟩
    · exact ih _ mem
  | await c' next ih =>
    rcases List.mem_cons.1 h with same | mem
    · cases same
      exact ⟨e, rfl⟩
    · exact ih _ mem
  | acquire l next ih => exact ih _ h
  | release l next ih => exact ih _ h

end Program

/-! ## Contracts -/

/-- What is to hold of the acts of a routine whenever it makes a call and when it ends with a
result, and what when it fails. Changes that leave the tally alone are of no consequence. -/
structure Contract (I : Interface) where
  kept : List (Act State I) → Prop
  failed : List (Act State I) → Failure → Prop
  kept_changed {es : List (Act State I)} {s t : State} (same : t.tally = s.tally) (h : kept es) :
    kept (es ++ [.changed s t])
  failed_changed {es : List (Act State I)} {s t : State} {f : Failure} (same : t.tally = s.tally)
    (h : failed es f) : failed (es ++ [.changed s t]) f

/-- What is to hold when a routine ends. -/
def Contract.Ended (C : Contract I) (es : List (Act State I)) : Except Failure α → Prop
  | .ok _ => C.kept es
  | .error f => C.failed es f

namespace Routine

/-- From all acts as the contract has them the routine goes on as it has them. -/
def Honours (C : Contract I) (x : Routine I α) : Prop :=
  ∀ es, C.kept es → Program.Proceeds C.kept C.Ended x.run es

variable {C : Contract I} {f : Failure}

theorem honours_pure (a : α) : Honours C (pure a : Routine I α) := fun _ h => h

theorem honours_throw (h : ∀ es, C.kept es → C.failed es f) : Honours C (throw f : Routine I α) := h

theorem Honours.bind {x : Routine I α} {k : α → Routine I β} (h : Honours C x)
    (hk : ∀ a, Honours C (k a)) : Honours C (x >>= k) := by
  intro es kept
  rw [run_bind]
  refine (h es kept).bind fun r es' ended => ?_
  cases r with
  | ok a => exact hk a es' ended
  | error f => exact ended

/-- Two parts of a routine that honour the contract together may come before a third one. -/
theorem Honours.pair_bind {γ : Type} {x : Routine I α} {k : α → Routine I β} {l : β → Routine I γ}
    (h : Honours C (x >>= k)) (hl : ∀ b, Honours C (l b)) :
    Honours C (x >>= fun a => k a >>= l) := by
  rw [← bind_assoc]
  exact h.bind hl

theorem honours_resolving {x : Except ResolutionError α}
    (h : ∀ e, x = .error e → ∀ es, C.kept es → C.failed es (.resolution e)) :
    Honours C (resolving x : Routine I α) := by
  cases x with
  | ok a => exact honours_pure a
  | error e => exact honours_throw (h e rfl)

theorem honours_note (logger : Text) (level : Level) (message : Text) (fields : Fields) :
    Honours C (note logger level message fields : Routine I Unit) :=
  fun _ kept _ => C.kept_changed rfl kept

theorem proceeds_rewording {x : Routine I α} {At : List (Act State I) → Prop}
    {End : List (Act State I) → Except Failure α → Prop} {es : List (Act State I)}
    (h : x.run.Proceeds At End es) (g : ResolutionError → ResolutionError) :
    (rewording g x).run.Proceeds At
      (fun es r => ∃ r', End es r' ∧ r = r'.mapError (reworded g)) es := by
  unfold Routine.rewording
  rw [run_attempt_bind]
  refine h.bind fun r es' ended => ?_
  rcases r with (e | e | _) | a
  · exact ⟨_, ended, rfl⟩
  · exact ⟨_, ended, rfl⟩
  · exact ⟨_, ended, rfl⟩
  · exact ⟨_, ended, rfl⟩

theorem Honours.rewording {x : Routine I α} (h : Honours C x)
    {g : ResolutionError → ResolutionError}
    (hg : ∀ es e, C.failed es (.resolution e) → C.failed es (.resolution (g e))) :
    Honours C (rewording g x) := by
  intro es kept
  refine (proceeds_rewording (h es kept) g).imp ?_
  rintro - es' ⟨(e | e | _) | a, ended, rfl⟩
  · exact hg es' e ended
  · exact ended
  · exact ended
  · exact ended

theorem honours_mapM {γ : Type} {k : γ → Routine I α} {l : List γ}
    (h : ∀ c ∈ l, Honours C (k c)) : Honours C (l.mapM k) := by
  induction l with
  | nil => exact honours_pure []
  | cons c l ih =>
    rw [List.mapM_cons]
    refine (h c (.head _)).bind fun a => ?_
    exact (ih fun d hd => h d (.tail _ hd)).bind fun as => honours_pure _

/-- Recording how a routine ends is of no consequence to what changes of the journal leave alone. -/
theorem proceeds_logged {x : Routine I α} {At : List (Act State I) → Prop}
    {End : List (Act State I) → Except Failure α → Prop} {es : List (Act State I)}
    (h : x.run.Proceeds At End es)
    (stable : ∀ es (s t : State) r, t.tally = s.tally → End es r → End (es ++ [.changed s t]) r)
    {l : Logging} (quiet : l.start = false) {level : Level}
    (hl : l.level.forRecord = .ok level) : (logged l x).run.Proceeds At End es := by
  have completed :
      (do let a ← x; l.note "completed"; return a : Routine I α).run.Proceeds At End es := by
    rw [run_bind]
    refine h.bind fun r es' ended => ?_
    cases r with
    | ok a =>
      simp only [continuing, Logging.note, hl]
      exact fun s => stable _ _ _ _ rfl ended
    | error f => exact ended
  rw [logged_eq, quiet, if_neg (by simp), run_attempt_bind]
  refine completed.bind fun r es' ended => ?_
  rcases r with (f | f | _) | a
  · exact fun s => stable _ _ _ _ rfl ended
  · exact fun s => stable _ _ _ _ rfl ended
  · exact ended
  · exact ended

theorem Honours.logged {x : Routine I α} (h : Honours C x) {l : Logging} (quiet : l.start = false)
    {level : Level} (hl : l.level.forRecord = .ok level) : Honours C (logged l x) := by
  intro es kept
  refine proceeds_logged (h es kept) (fun es s t r same ended => ?_) quiet hl
  cases r with
  | ok a => exact C.kept_changed same ended
  | error f => exact C.failed_changed same ended

/-- What a routine that honours a contract has done when it makes a call, and when it ends. -/
theorem Honours.path {x : Routine I α} (h : Honours C x) (start : C.kept []) {es : List (Act State I)}
    {q : Program State I (Except Failure α)} (path : Program.Path x.run es q) :
    (q.Calls → C.kept es) ∧ ∀ r, q = .done r → C.Ended es r := by
  have proceeds := (h [] start).path path
  refine ⟨proceeds.of_calls, ?_⟩
  rintro r rfl
  exact proceeds

end Routine

end Registrar
