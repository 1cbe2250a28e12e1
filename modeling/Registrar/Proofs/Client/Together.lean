import Registrar.Proofs.Client.Shelves
import Registrar.Proofs.Schedule.Scenes

/-!
# Registrations at the same time

Any number of clients register schemas with one registry, a ledger, each request in between any two
of the others. In every scene that they reach, a reference that a client has put into a document or
has given back stands for the schema that it was supplied for.
-/

namespace Registrar.Ledger

open Exchange (Call)
open Routine Client Posting

variable {ε : Type}

/-! ## Registrations -/

/-- What a client is asked to register, and the settings of the client. -/
inductive Registering where
  | schema (settings : Settings) (subject : Text) (x : SuppliedSchema)
  | reference (settings : Settings) (subject : Text) (type : SchemaType) (r : SuppliedReference)

/-- What a client gives back. -/
inductive Receipt where
  | schema (x : RegisteredSchema)
  | reference (r : RegisteredReference)
  deriving DecidableEq

namespace Registering

/-- The program of a registration with the registry at the base URL. -/
def program (base : Text) :
    Registering → Program State Exchange.interface (Except Failure Receipt)
  | .schema settings subject x => ExceptT.run do
    return .schema (← (direct { settings with url := base }).register subject x)
  | .reference settings subject type r => ExceptT.run do
    return .reference (← (direct { settings with url := base }).registerReference subject type r)

def type : Registering → SchemaType
  | .schema _ _ x => x.type
  | .reference _ _ type _ => type

/-- The text of the schema to register, and the references below it. -/
def root : Registering → Text × List SuppliedReference
  | .schema _ _ x => (x.text, x.references)
  | .reference _ _ _ r => (r.text, r.references)

/-- A node that was supplied: the root, or a reference below it. -/
inductive Node (k : Registering) : Text → List SuppliedReference → Prop where
  | root : Node k k.root.1 k.root.2
  | below {n : SuppliedReference} (h : Occurs n k.root.2) : Node k n.text n.references

/-- The call posts nothing but the document of a node, with references that stand for those below
the node. -/
def Posts (k : Registering) (stored : Contents) (c : Call) : Prop :=
  ∀ url body, c = .post url body → ∃ text below children, k.Node text below ∧
    StandsAll stored k.type below children ∧ body = posted k.type text children

/-- What is given back stands for what was supplied. -/
def Receives (stored : Contents) : Registering → Receipt → Prop
  | .schema _ _ x, .schema y => y.type = x.type ∧ y.text = x.text ∧
    StandsAll stored x.type x.references y.references
  | .reference _ subject type r, .reference y => y.name = Text.ofString r.name ∧
    y.subject = subject ∧ ∃ children, StandsAll stored type r.references children ∧
      stored y.subject y.version = some (posted type r.text children)
  | _, _ => False

variable {w : Program.World Exchange.interface ε} {base : Text}

theorem behaves (l : Ledger w base) (k : Registering) (e : ε) :
    (k.program base).Behaves l.regime (fun e => k.Posts (l.stored e))
      (fun r e => ∀ a, r = .ok a → k.Receives (l.stored e) a) e := by
  have allowed (url : Text) (e' : ε) (n : SuppliedReference) (children : List RegisteredReference)
      (h : Occurs n k.root.2) (stand : StandsAll (l.stored e') k.type n.references children) :
      k.Posts (l.stored e') (.post url (posted k.type n.text children)) := by
    rintro _ _ ⟨⟩
    exact ⟨_, _, children, .below h, stand, rfl⟩
  have allowed' (url : Text) (e' : ε) (children : List RegisteredReference)
      (stand : StandsAll (l.stored e') k.type k.root.2 children) :
      k.Posts (l.stored e') (.post url (posted k.type k.root.1 children)) := by
    rintro _ _ ⟨⟩
    exact ⟨_, _, children, .root, stand, rfl⟩
  cases k with
  | schema settings subject x =>
    have registered := behaves_register { settings with url := base } l subject x (e := e)
      (fun url e' n children => allowed url e' n children) allowed'
    exact registered.bind fun y e₁ h =>
      behaves_pure fun e' later => ⟨h.1, h.2.1, h.2.2.mono later _⟩
  | reference settings subject type r =>
    have registered := behaves_registerReference { settings with url := base } l subject type r
      (e := e) allowed allowed'
    refine registered.bind fun y e₁ ⟨hn, hs, children, stand, kept⟩ =>
      behaves_pure fun e' later => ?_
    exact ⟨hn, hs, children, stand.mono later _, later _ _ _ kept⟩

theorem Posts.mono {k : Registering} {stored stored' : Contents} {c : Call}
    (h : k.Posts stored c) (grows : stored.Grows stored') : k.Posts stored' c := by
  intro url body hc
  obtain ⟨text, below, children, node, stand, posted⟩ := h url body hc
  exact ⟨text, below, children, node, stand.mono grows below, posted⟩

end Registering

/-! ## Noting the calls -/

variable {w : Program.World Exchange.interface ε} {base : Text}

/-- A world that notes its calls answers as it does otherwise. -/
theorem post_noting {subject : Text} {tail : String} {body : Json} {d : Envelope}
    {e e' : ε × List Call} (h : (post w.noting base subject tail body).run e = (.ok d, e')) :
    (post w base subject tail body).run e.1 = (.ok d, e'.1) := by
  obtain ⟨url, response, address, replied, read⟩ := run_post_ok_iff.1 h
  obtain ⟨reply, rfl⟩ := Prod.mk.inj replied
  exact run_post_ok_iff.2 ⟨url, response, address, Prod.ext reply rfl, read⟩

/-- A ledger whose calls are noted is one. -/
def noting (l : Ledger w base) : Ledger w.noting base where
  stored e := l.stored e.1
  keeps c h := l.keeps c h
  answers h hv := l.answers (post_noting h) hv

/-! ## All registrations together -/

/-- However the requests of any number of registrations take turns, every document that is posted is
that of a supplied schema with references that stand for the supplied ones, and so is everything
that is given back. -/
theorem references_stand {γ : Type} [DecidableEq γ] (l : Ledger w base)
    {Cancellable : System State Exchange.interface γ (Except Failure Receipt) → TaskId → Prop}
    {start : State} {e : ε}
    {m : Scene Registering State Exchange.interface γ (ε × List Call) (Except Failure Receipt)}
    (reached : Scene.Reached (Registering.program base) w.noting Cancellable start (e, []) m) :
    (∀ url body, Call.post url body ∈ m.world.2 → ∃ k ∈ m.calls, ∃ text below children,
      k.Node text below ∧ StandsAll (l.stored m.world.1) k.type below children ∧
        body = posted k.type text children) ∧
    ∀ (t : TaskId) k a, m.calls[t]? = some k → m.system.tasks[t]? = some (.ended (.ok a)) →
      k.Receives (l.stored m.world.1) a := by
  let Kept (cs : List Registering) (e : ε × List Call) : Prop :=
    ∀ c ∈ e.2, ∃ k ∈ cs, k.Posts (l.stored e.1) c
  have keeps (cs : List Registering) (k) (hk : k ∈ cs) (e : ε × List Call) (c : Call)
      (kept : Kept cs e) (posts : k.Posts (l.stored e.1) c) : Kept cs (w.noting.reply c e).2 := by
    have grows : Contents.Grows (l.stored e.1) (l.stored (w.reply c e.1).2) :=
      fun _ _ _ => l.keeps c
    intro c' hc'
    rcases List.mem_append.1 hc' with old | new
    · obtain ⟨k', hk', posts'⟩ := kept c' old
      exact ⟨k', hk', posts'.mono grows⟩
    · obtain rfl := List.mem_singleton.1 new
      exact ⟨k, hk, posts.mono grows⟩
  have behave : m.Behaves l.noting.regime (fun k e => k.Posts (l.stored e.1))
      (fun k r e => ∀ a, r = .ok a → k.Receives (l.stored e.1) a) Kept := by
    refine reached.behaves (Registering.behaves l.noting) (by simp [Kept]) ?_ keeps
    intro cs k e kept c hc
    obtain ⟨k', hk', posts⟩ := kept c hc
    exact ⟨k', List.mem_append_left _ hk', posts⟩
  refine ⟨fun url body posted => ?_, fun t k a hk ended => ?_⟩
  · obtain ⟨k, hk, posts⟩ := behave.kept _ posted
    exact ⟨k, hk, posts url body rfl⟩
  · exact behave.tasks t k _ hk ended _ (l.noting.regime.refl _) a rfl

/-! ### Two clients of one subject -/

/-- A schema for the subject `a`. -/
def rival (name text : String) : Registering :=
  .reference bare "a" .avro (.mk name "a" text [])

/-- Two schemas are posted before a version is asked for, which the later one does first. -/
def raced : Scene Registering State Exchange.interface Unit (Shelves × List Call)
    (Except Failure Receipt) :=
  let w := (Shelves.registry []).noting
  let entered := ((Scene.initial (State.initial Level.info false) ([], [])).enter
    (Registering.program []) (rival "r" "x")).enter (Registering.program []) (rival "q" "y")
  let posted := (entered.advance w (fun _ _ => some ()) 0).advance w (fun _ _ => some ()) 1
  ((posted.openGate ()).advance w (fun _ _ => none) 1).advance w (fun _ _ => none) 0

theorem raced_reached :
    Scene.Reached (Registering.program []) (Shelves.registry []).noting (fun _ _ => False)
      (State.initial Level.info false) ([], []) raced := by
  have start : Scene.Reached (Registering.program []) (Shelves.registry []).noting
      (fun (_ : System State Exchange.interface Unit (Except Failure Receipt)) _ => False)
      (State.initial Level.info false) ([], []) (Scene.initial _ _) := .refl
  have posted := (((start.enter (rival "r" "x")).enter (rival "q" "y")).advance
    (fun _ _ => some ()) 0).advance (fun _ _ => some ()) 1
  exact ((posted.openGate ()).advance (fun _ _ => none) 1).advance (fun _ _ => none) 0

/-- Each client gets the version of its own schema. -/
theorem references_stand_of_rivals :
    Scene.Reached (Registering.program []) (Shelves.registry []).noting (fun _ _ => False)
        (State.initial Level.info false) ([], []) raced ∧
      ∀ (t : TaskId) k a, (t, k, a) ∈ [(0, rival "r" "x", Receipt.reference ⟨"r", "a", 1⟩),
          (1, rival "q" "y", Receipt.reference ⟨"q", "a", 2⟩)] →
        raced.system.tasks[t]? = some (.ended (.ok a)) ∧
          k.Receives (Shelves.stored raced.world.1) a := by
  have first : (raced.system.tasks[0]?.bind Standing.result?) =
      some (.ok (.reference ⟨"r", "a", 1⟩)) := by
    decide +kernel
  have second : (raced.system.tasks[1]?.bind Standing.result?) =
      some (.ok (.reference ⟨"q", "a", 2⟩)) := by
    decide +kernel
  have calls : raced.calls = [rival "r" "x", rival "q" "y"] := by
    simp [raced, Scene.initial]
  have stand := (references_stand (Shelves.ledger []) raced_reached).2
  refine ⟨raced_reached, fun t k a mem => ?_⟩
  rcases List.mem_cons.1 mem with here | mem
  · cases here
    exact ⟨Standing.ended_of_result? first,
      stand _ _ _ (by rw [calls]; rfl) (Standing.ended_of_result? first)⟩
  · cases List.mem_singleton.1 mem
    exact ⟨Standing.ended_of_result? second,
      stand _ _ _ (by rw [calls]; rfl) (Standing.ended_of_result? second)⟩

end Registrar.Ledger
