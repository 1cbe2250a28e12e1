import Registrar.Proofs.Program.Equations
import Registrar.Schedule.Basic

/-!
# Programs among others

A program that is not alone meets a world which others have changed since its last call. A `Regime`
is a world together with what it may become in the meantime. A program `Behaves` if, whatever others
do, each of its calls is allowed at the time at which it is made, and its result is as promised when
it ends. What one program may assume of the world, that it only grows, is all that it has to
guarantee to the others, and every call does.
-/

namespace Registrar

/-- A world, and what it may become while others use it. -/
structure Regime (I : Interface) (ε : Type) extends Program.World I ε where
  Later : ε → ε → Prop
  refl : ∀ e, Later e e
  trans : ∀ {e e' e''}, Later e e' → Later e' e'' → Later e e''
  later_reply : ∀ c e, Later e (reply c e).2

variable {σ : Type} {I : Interface} {ε γ α β : Type}

/-- Whatever runs alone in it, the world becomes a later one. -/
theorem Regime.later_run (G : Regime I ε) (p : Program σ I α) (s : σ) (e : ε) :
    G.Later e (p.run G.toWorld s e).2.2 := by
  induction p generalizing s e with
  | done a => exact G.refl e
  | update f next ih => exact ih s (f s) e
  | ask c next ih => exact G.trans (G.later_reply c e) (ih _ s _)
  | await c next ih => exact G.trans (G.later_reply c e) (ih _ s _)
  | acquire l next ih => exact ih _ s e
  | release l next ih => exact ih _ s e

namespace Program

variable (G : Regime I ε) (Allowed : ε → I.Call → Prop) (Q : α → ε → Prop)

/-- From the state `e` of the world on every call is allowed and every result as promised. The
program takes and gives back no lock. -/
def Behaves : Program σ I α → ε → Prop
  | .done a, e => ∀ e', G.Later e e' → Q a e'
  | .update _ next, e => ∀ s, (next s).Behaves e
  | .ask c next, e => ∀ e', G.Later e e' →
    Allowed e' c ∧ (next (G.reply c e').1).Behaves (G.reply c e').2
  | .await c next, e => ∀ e', G.Later e e' →
    Allowed e' c ∧ (next (.value (G.reply c e').1)).Behaves (G.reply c e').2 ∧
      (next .cancelled).Behaves (G.reply c e').2
  | .acquire _ _, _ => False
  | .release _ _, _ => False

variable {G Allowed Q} {P : β → ε → Prop} {e e' : ε}

theorem Behaves.mono {p : Program σ I α} (h : p.Behaves G Allowed Q e) (later : G.Later e e') :
    p.Behaves G Allowed Q e' := by
  induction p with
  | done a => exact fun e'' later' => h e'' (G.trans later later')
  | update f next ih => exact fun s => ih s (h s)
  | ask c next ih => exact fun e'' later' => h e'' (G.trans later later')
  | await c next ih => exact fun e'' later' => h e'' (G.trans later later')
  | acquire l next ih => exact h
  | release l next ih => exact h

theorem Behaves.imp {Q' : α → ε → Prop} {p : Program σ I α} (h : p.Behaves G Allowed Q e)
    (weaker : ∀ a e', Q a e' → Q' a e') : p.Behaves G Allowed Q' e := by
  induction p generalizing e with
  | done a => exact fun e' later => weaker a e' (h e' later)
  | update f next ih => exact fun s => ih s (h s)
  | ask c next ih => exact fun e' later => ⟨(h e' later).1, ih _ (h e' later).2⟩
  | await c next ih =>
    intro e' later
    obtain ⟨allowed, replied, cancelled⟩ := h e' later
    exact ⟨allowed, ih _ replied, ih _ cancelled⟩
  | acquire l next ih => exact h
  | release l next ih => exact h

theorem Behaves.bind {p : Program σ I α} {f : α → Program σ I β} (h : p.Behaves G Allowed Q e)
    (hf : ∀ a e', Q a e' → (f a).Behaves G Allowed P e') : (p.bind f).Behaves G Allowed P e := by
  induction p generalizing e with
  | done a => exact hf a e (h e (G.refl e))
  | update f next ih => exact fun s => ih s (h s)
  | ask c next ih => exact fun e' later => ⟨(h e' later).1, ih _ (h e' later).2⟩
  | await c next ih =>
    intro e' later
    obtain ⟨allowed, replied, cancelled⟩ := h e' later
    exact ⟨allowed, ih _ replied, ih _ cancelled⟩
  | acquire l next ih => exact h
  | release l next ih => exact h

end Program

/-! ## Routines -/

namespace Routine

variable {G : Regime I ε} {Allowed : ε → I.Call → Prop} {Q : α → ε → Prop} {P : β → ε → Prop}
  {e e' : ε}

/-- The routine behaves; nothing is promised of a failure. -/
def Behaves (G : Regime I ε) (Allowed : ε → I.Call → Prop) (Q : α → ε → Prop) (x : Routine I α)
    (e : ε) : Prop :=
  Program.Behaves G Allowed (fun r e' => ∀ a, r = .ok a → Q a e') x.run e

theorem behaves_pure {a : α} (h : ∀ e', G.Later e e' → Q a e') :
    Behaves G Allowed Q (pure a : Routine I α) e := by
  rintro e' later _ ⟨⟩
  exact h e' later

theorem Behaves.imp {Q' : α → ε → Prop} {x : Routine I α} (h : Behaves G Allowed Q x e)
    (weaker : ∀ a e', Q a e' → Q' a e') : Behaves G Allowed Q' x e :=
  Program.Behaves.imp h fun _ e' hr a ha => weaker a e' (hr a ha)

theorem behaves_throw (f : Failure) : Behaves G Allowed Q (throw f : Routine I α) e := by
  rintro e' later _ ⟨⟩

theorem Behaves.bind {x : Routine I α} {f : α → Routine I β} (h : Behaves G Allowed Q x e)
    (hf : ∀ a e', Q a e' → Behaves G Allowed P (f a) e') : Behaves G Allowed P (x >>= f) e := by
  refine Program.Behaves.bind h fun r e' hr => ?_
  cases r with
  | ok a => exact hf a e' (hr a rfl)
  | error f => exact behaves_throw f

theorem behaves_ofExcept {x : Except Failure α} (h : ∀ a, x = .ok a → ∀ e', G.Later e e' → Q a e') :
    Behaves G Allowed Q (ofExcept x : Routine I α) e := by
  cases x with
  | ok a => exact behaves_pure (h a rfl)
  | error f => exact behaves_throw f

theorem behaves_resolving {x : Except ResolutionError α}
    (h : ∀ a, x = .ok a → ∀ e', G.Later e e' → Q a e') :
    Behaves G Allowed Q (resolving x : Routine I α) e := by
  cases x with
  | ok a => exact behaves_pure (h a rfl)
  | error f => exact behaves_throw _

/-- A call whose reply is as promised from then on. -/
theorem behaves_await {c : I.Call} {Q : I.Reply c → ε → Prop}
    (allowed : ∀ e', G.Later e e' → Allowed e' c)
    (replied : ∀ e₁ e', G.Later e e₁ → G.Later (G.reply c e₁).2 e' → Q (G.reply c e₁).1 e') :
    Behaves G Allowed Q (await c) e := by
  refine fun e₁ later => ⟨allowed e₁ later, ?_, ?_⟩
  · rintro e' later' _ ⟨⟩
    exact replied e₁ e' later later'
  · rintro e' later' _ ⟨⟩

/-- A routine that is attempted and whose end is looked at. -/
theorem Behaves.attempt_bind {x : Routine I α} {f : Except Failure α → Routine I β}
    (h : Behaves G Allowed Q x e)
    (hf : ∀ r e', (∀ a, r = .ok a → Q a e') → Behaves G Allowed P (f r) e') :
    Behaves G Allowed P (attempt x >>= f) e := by
  unfold Behaves
  rw [run_attempt_bind]
  exact Program.Behaves.bind h fun r e' hr => hf r e' hr

theorem Behaves.rewording {x : Routine I α} (h : Behaves G Allowed Q x e)
    (mono : ∀ {a e' e''}, G.Later e' e'' → Q a e' → Q a e'')
    (f : ResolutionError → ResolutionError) : Behaves G Allowed Q (rewording f x) e := by
  refine h.attempt_bind fun r e' hr => ?_
  rcases r with (g | g | _) | a
  · exact behaves_throw _
  · exact behaves_throw _
  · exact behaves_throw _
  · exact behaves_pure fun e'' later => mono later (hr a rfl)

/-! ### Journal and tally -/

theorem behaves_note (logger : Text) (level : Level) (message : Text) (fields : Fields) :
    Behaves G Allowed (fun _ e' => G.Later e e')
      (note logger level message fields : Routine I Unit) e :=
  fun _ _ later _ _ => later

theorem behaves_mark (m : Mark) :
    Behaves G Allowed (fun _ e' => G.Later e e') (mark m : Routine I Unit) e :=
  fun _ _ later _ _ => later

/-- Recording how a routine ends does not change how it behaves. -/
theorem Behaves.logged {x : Routine I α} (h : Behaves G Allowed Q x e)
    (mono : ∀ {a e' e''}, G.Later e' e'' → Q a e' → Q a e'') (l : Logging) :
    Behaves G Allowed Q (logged l x) e := by
  have noted (event : String) {e' : ε} : Behaves G Allowed (fun _ e'' => G.Later e' e'')
      (l.note event : Routine I Unit) e' := by
    refine (behaves_ofExcept (Q := fun _ e'' => G.Later e' e'') fun _ _ _ later => later).bind ?_
    intro level e'' later
    exact (behaves_note _ _ _ _).bind fun _ e₃ later' => behaves_pure fun e₄ later'' =>
      G.trans later (G.trans later' later'')
  have completed {e' : ε} (h : Behaves G Allowed Q x e') : Behaves G Allowed Q
      (do let a ← x; l.note "completed"; return a) e' := by
    refine h.bind fun a e₁ ha => (noted _).bind fun _ e₂ later => behaves_pure fun e₃ later' => ?_
    exact mono (G.trans later later') ha
  have ended {e' : ε} (h : Behaves G Allowed Q x e') : Behaves G Allowed Q
      (Routine.attempt (do let a ← x; l.note "completed"; return a) >>=
        handling pure (noticing l)) e' := by
    refine (completed h).attempt_bind fun r e₁ hr => ?_
    rcases r with (f | f | _) | a
    · exact (behaves_note _ _ _ _).bind fun _ _ _ => behaves_throw _
    · exact (behaves_note _ _ _ _).bind fun _ _ _ => behaves_throw _
    · exact behaves_throw _
    · exact behaves_pure fun e₂ later => mono later (hr a rfl)
  rw [logged_eq]
  split
  · exact (noted _).bind fun _ e' later => ended (Program.Behaves.mono h later)
  · exact ended h

end Routine

/-! ## Turns -/

namespace Standing

/-- A task that stands there behaves when it goes on; it neither has nor awaits a lock. -/
def Behaves (G : Regime I ε) (Allowed : ε → I.Call → Prop) (Q : α → ε → Prop) (e : ε) :
    Standing σ I γ α → Prop
  | .ready p => p.Behaves G Allowed Q e
  | .awake lock p q => lock = none ∧ p.Behaves G Allowed Q e ∧ q.Behaves G Allowed Q e
  | .held _ p q => p.Behaves G Allowed Q e ∧ q.Behaves G Allowed Q e
  | .waiting _ _ _ => False
  | .ended a => ∀ e', G.Later e e' → Q a e'

variable {G : Regime I ε} {Allowed : ε → I.Call → Prop} {Q : α → ε → Prop} {e e' : ε}

theorem Behaves.mono {x : Standing σ I γ α} (h : x.Behaves G Allowed Q e)
    (later : G.Later e e') : x.Behaves G Allowed Q e' := by
  cases x with
  | ready p => exact Program.Behaves.mono h later
  | awake lock p q => exact ⟨h.1, h.2.1.mono later, h.2.2.mono later⟩
  | held g p q => exact ⟨h.1.mono later, h.2.mono later⟩
  | waiting => exact h
  | ended a => exact fun e'' later' => h e'' (G.trans later later')

end Standing

/-- A turn of a program that behaves: only its task moves, what the calls keep is kept, and the task
goes on behaving. -/
theorem System.turn_behaves {G : Regime I ε} {Allowed : ε → I.Call → Prop} {Q : α → ε → Prop}
    (Kept : ε → Prop) (keeps : ∀ e c, Kept e → Allowed e c → Kept (G.reply c e).2)
    (gate : I.Call → ε → Option γ) (t : TaskId) (p : Program σ I α) (s : System σ I γ α) {e : ε}
    (h : p.Behaves G Allowed Q e) (kept : Kept e) :
    let r := turn ⟨G.toWorld, gate⟩ t p s e
    Kept r.2 ∧ G.Later e r.2 ∧
      ∃ x, r.1.tasks = s.tasks.set t x ∧ x.Behaves G Allowed Q r.2 := by
  induction p generalizing s e with
  | done a => exact ⟨kept, G.refl e, _, rfl, h⟩
  | update f next ih => exact ih _ _ (h s.state) kept
  | ask c next ih =>
    obtain ⟨allowed, behaves⟩ := h e (G.refl e)
    obtain ⟨kept', later, moved⟩ := ih _ s behaves (keeps e c kept allowed)
    exact ⟨kept', G.trans (G.later_reply c e) later, moved⟩
  | await c next ih =>
    obtain ⟨allowed, replied, cancelled⟩ := h e (G.refl e)
    unfold turn
    split
    · obtain ⟨kept', later, moved⟩ := ih _ s replied (keeps e c kept allowed)
      exact ⟨kept', G.trans (G.later_reply c e) later, moved⟩
    · exact ⟨keeps e c kept allowed, G.later_reply c e, _, rfl, replied, cancelled⟩
  | acquire l next ih => exact h.elim
  | release l next ih => exact h.elim

end Registrar
