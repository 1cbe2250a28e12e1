/-!
# Programs that share a state and talk to the world

Several operations of a client may be under way at once. Each is a `Program`: a tree whose nodes say
what it does next. It works on the shared state in one indivisible step, asks the world a question
that is answered at once, calls the world and waits for the reply, or takes and gives back a lock.
Between two points at which it may wait a program is not interrupted, and at such a point it may be
told that it is cancelled instead of getting what it waits for.

A program is finite along every path, so it always ends, whatever the answers are.
`Program.run` is the run of a program that is alone and never cancelled.
-/

namespace Registrar

/-- The questions to the world, and the type of the answer to each. -/
structure Interface where
  Call : Type
  Reply : Call → Type

/-- The name of a lock. -/
abbrev LockId := Nat

/-- How a program goes on after waiting. -/
inductive Wake (ρ : Type) where
  | value (r : ρ)
  | cancelled

/-- A program over the shared state `σ` that ends with an `α`. -/
inductive Program (σ : Type) (I : Interface) (α : Type) where
  | done (a : α)
  /-- Changes the state in one step and goes on with the state before the change. -/
  | update (f : σ → σ) (next : σ → Program σ I α)
  /-- Asks a question that is answered at once. -/
  | ask (c : I.Call) (next : I.Reply c → Program σ I α)
  /-- Calls the world and waits for the reply. -/
  | await (c : I.Call) (next : Wake (I.Reply c) → Program σ I α)
  /-- Waits until the lock is free and takes it. -/
  | acquire (l : LockId) (next : Wake Unit → Program σ I α)
  | release (l : LockId) (next : Unit → Program σ I α)

namespace Program

variable {σ : Type} {I : Interface} {α β γ : Type}

/-! ## Sequencing -/

/-- Goes on with `f` where `p` ends. -/
def bind (p : Program σ I α) (f : α → Program σ I β) : Program σ I β :=
  match p with
  | .done a => f a
  | .update g next => .update g fun s => (next s).bind f
  | .ask c next => .ask c fun r => (next r).bind f
  | .await c next => .await c fun w => (next w).bind f
  | .acquire l next => .acquire l fun w => (next w).bind f
  | .release l next => .release l fun u => (next u).bind f

instance : Monad (Program σ I) where
  pure := .done
  bind := bind

@[simp]
theorem pure_eq (a : α) : (pure a : Program σ I α) = .done a := rfl

@[simp]
theorem bind_eq (p : Program σ I α) (f : α → Program σ I β) : p >>= f = p.bind f := rfl

theorem bind_done (p : Program σ I α) : p.bind .done = p := by
  induction p <;> simp_all [bind]

theorem bind_assoc (p : Program σ I α) (f : α → Program σ I β) (g : β → Program σ I γ) :
    (p.bind f).bind g = p.bind fun a => (f a).bind g := by
  induction p <;> simp_all [bind]

instance : LawfulMonad (Program σ I) := LawfulMonad.mk' _
  (fun x => bind_done x)
  (fun _ _ => rfl)
  (fun x f g => bind_assoc x f g)

/-! ## Running alone -/

/-- A world that replies from a state `ε` of its own. -/
structure World (I : Interface) (ε : Type) where
  reply : (c : I.Call) → ε → I.Reply c × ε

variable {ε : Type}

/-- The result, the shared state and the state of the world after a program ran alone. -/
def run (w : World I ε) (p : Program σ I α) (s : σ) (e : ε) : α × σ × ε :=
  match p with
  | .done a => (a, s, e)
  | .update f next => (next s).run w (f s) e
  | .ask c next => (next (w.reply c e).1).run w s (w.reply c e).2
  | .await c next => (next (.value (w.reply c e).1)).run w s (w.reply c e).2
  | .acquire _ next => (next (.value ())).run w s e
  | .release _ next => (next ()).run w s e

@[simp]
theorem run_done (w : World I ε) (a : α) (s : σ) (e : ε) :
    (done a : Program σ I α).run w s e = (a, s, e) := rfl

theorem run_bind (w : World I ε) (p : Program σ I α) (f : α → Program σ I β) (s : σ) (e : ε) :
    (p.bind f).run w s e =
      (f (p.run w s e).1).run w (p.run w s e).2.1 (p.run w s e).2.2 := by
  induction p generalizing s e <;> simp_all [bind, run]

end Program

end Registrar
