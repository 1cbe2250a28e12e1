import Registrar.Frame
import Registrar.Proofs.Client.Addresses
import Registrar.Proofs.Client.Registering
import Registrar.Proofs.Closure.Graph
import Registrar.Proofs.Program.Behaves

/-!
# A registry that keeps everything

An archive is a world in which an identifier stands for one schema, and so do a subject and a
version. What it knows it never forgets and always tells, and it only tells what it knows. It keeps
documents as they are posted: once it has answered with an identifier, the identifier stands for the
schema that the posted document tells.
-/

namespace Registrar

open Closure Client Routine

/-- A world, seen by clients with these settings, that is an archive. -/
structure Archive {ε : Type} (w : Program.World Exchange.interface ε) (settings : Settings) where
  /-- The schema for which an identifier stands. -/
  schema : ε → Nat → Option RegisteredSchema
  /-- The schema for which a subject and a version stand. -/
  version : ε → Target → Option RegisteredSchema
  bears_id : ∀ {e n x}, schema e n = some x → x.id = n ∧ n < Frame.idBound
  knows_version : ∀ {e t x}, version e t = some x → schema e x.id = some x
  keeps_schema : ∀ {e n x} c, schema e n = some x → schema (w.reply c e).2 n = some x
  keeps_version : ∀ {e t x} c, version e t = some x → version (w.reply c e).2 t = some x
  answers_id : ∀ {e n x}, schema e n = some x →
    ∃ d e', (answer w settings (.schemaById n) none).run e = (.ok d, e')
  tells_id : ∀ {e e' d} {n : Nat}, n < Frame.idBound →
    (answer w settings (.schemaById n) none).run e = (.ok d, e') →
    ∃ x, schema e' n = some x ∧ d.Tells x ∧ d.Bears n
  tells_latest : ∀ {e e' d s n}, (answer w settings (.latest s) none).run e = (.ok d, e') →
    d.member? "id" = some n → ∃ x, schema e' n = some x ∧ d.Tells x
  answers_version : ∀ {e x} {t : Target}, version e t = some x →
    ∃ d e', (answer w settings (.version t.1 t.2) none).run e = (.ok d, e') ∧
      d.member? "id" = some x.id
  tells_version : ∀ {e e' d n} {t : Target},
    (answer w settings (.version t.1 t.2) none).run e = (.ok d, e') →
    d.member? "id" = some n → ∃ x, version e' t = some x ∧ x.id = n ∧ d.Tells x
  stores : ∀ {e e' d s body n} {posted : Envelope},
    (answer w settings (.versions s) (some body)).run e = (.ok d, e') → d.id = .ok n →
    Envelope.document (Utf8.encode (Json.write Json.spaced body)) = .ok (.object posted) →
    ∃ x, schema e' n = some x ∧ posted.Tells x

namespace Archive

variable {ε : Type} {w : Program.World Exchange.interface ε} {settings : Settings}
  (a : Archive w settings)

/-! ## Time -/

/-- What is known in one state is known in the other. -/
structure Later (e e' : ε) : Prop where
  schema : ∀ {n x}, a.schema e n = some x → a.schema e' n = some x
  version : ∀ {t x}, a.version e t = some x → a.version e' t = some x

variable {a} {e e' e'' : ε} {s s' : State} {x : RegisteredSchema}

theorem Later.refl (e : ε) : a.Later e e := ⟨id, id⟩

theorem Later.trans (h : a.Later e e') (h' : a.Later e' e'') : a.Later e e'' :=
  ⟨fun hx => h'.schema (h.schema hx), fun hx => h'.version (h.version hx)⟩

theorem later_reply (c : Exchange.interface.Call) (e : ε) : a.Later e (w.reply c e).2 :=
  ⟨a.keeps_schema c, a.keeps_version c⟩

/-- Whatever runs, the archive forgets nothing. -/
theorem later_run {σ α : Type} (p : Program σ Exchange.interface α) (s : σ) (e : ε) :
    a.Later e (p.run w s e).2.2 :=
  Regime.later_run ⟨w, a.Later, .refl, .trans, later_reply⟩ p s e

theorem later_of_run {α : Type} {y : Routine Exchange.interface α} {r : Except Failure α}
    (h : y.run.run w s e = (r, s', e')) : a.Later e e' := by
  have grown := later_run (a := a) y.run s e
  rwa [h] at grown

theorem later_answer {r : Resource} {body : Option Json} {d : Except Failure Envelope}
    (h : (answer w settings r body).run e = (d, e')) : a.Later e e' := by
  have yields := yields_send (w := w) settings r body (State.initial Level.info false) e
  rw [h] at yields
  obtain rfl := congrArg Prod.snd yields
  exact later_run _ _ e

/-! ## Answers -/

/-- What is fetched by an identifier is what the identifier stands for. -/
theorem of_fetchById {n : Nat} (hn : n < Frame.idBound)
    (h : ((direct settings).fetchById n).run.run w s e = (.ok x, s', e')) :
    a.schema e' n = some x := by
  obtain ⟨d, answered, read⟩ := of_fetched ((yields_fetchById settings n).of_run h)
  obtain ⟨y, known, tells, bears⟩ := a.tells_id hn answered
  obtain ⟨rfl, -⟩ := a.bears_id known
  rw [tells.schema_requested bears] at read
  rwa [← Except.ok.inj read]

/-- What an identifier stands for can be fetched. -/
theorem fetchById_ok {n : Nat} (known : a.schema e n = some x) (s : State) :
    (((direct settings).fetchById n).run.run w s e).1 = .ok x := by
  obtain ⟨rfl, bound⟩ := a.bears_id known
  obtain ⟨d, e', answered⟩ := a.answers_id known
  obtain ⟨y, known', tells, bears⟩ := a.tells_id bound answered
  obtain rfl := Option.some.inj (((later_answer answered).schema known).symm.trans known')
  have fetched := run_fetched_ok answered (tells.schema_requested bears)
  exact congrArg Prod.fst ((yields_fetchById settings x.id s e).trans fetched)

/-- What is fetched for a reference is what its subject and version stand for. -/
theorem of_fetchReference {r : RegisteredReference}
    (h : ((direct settings).fetchReference r).run.run w s e = (.ok x, s', e')) :
    a.version e' (targetOf r) = some x := by
  obtain ⟨d, answered, read⟩ := of_fetched ((yields_fetchReference settings r).of_run h)
  obtain ⟨y, known, same, tells⟩ := a.tells_version (t := targetOf r) answered
    (Envelope.member?_of_schema read)
  have read' := tells.schema_eq (same ▸ Envelope.member?_of_schema read) none
  rwa [← Except.ok.inj (read'.symm.trans read)]

/-- What a subject and a version stand for can be fetched. -/
theorem fetchReference_ok {r : RegisteredReference} (known : a.version e (targetOf r) = some x)
    (s : State) : (((direct settings).fetchReference r).run.run w s e).1 = .ok x := by
  obtain ⟨d, e', answered, bears⟩ := a.answers_version known
  obtain ⟨y, known', -, tells⟩ := a.tells_version answered bears
  obtain rfl := Option.some.inj (((later_answer answered).version known).symm.trans known')
  have fetched := run_fetched_ok answered (tells.schema_eq bears none)
  exact congrArg Prod.fst ((yields_fetchReference settings r s e).trans fetched)

end Archive

/-! ## Namings -/

/-- The schema comes back from documents as it is: its type has a name in the registry, and this name
and its text are settled. -/
structure SuppliedSchema.Plain (x : SuppliedSchema) : Prop where
  type : ∃ name, SchemaType.ofRegistryName name = .ok x.type
  name : x.type.registryName.Settled
  text : x.text.Settled

namespace Archive

variable {ε : Type} {w : Program.World Exchange.interface ε} {settings : Settings}
  {a : Archive w settings} {e e' : ε} {s s' : State} {x : RegisteredSchema}

/-- A schema that is registered has the identifier under which the archive keeps it, as documents
give it back. -/
theorem of_register {subject : Text} {y : SuppliedSchema}
    (h : ((direct settings).register subject y).run.run w s e = (.ok x, s', e')) :
    a.schema e' x.id = some x.settle ∧ (y.Plain → x.settle = x) := by
  obtain ⟨type, text, references, e₁, d, answered, id⟩ := of_run_register h
  constructor
  · -- What was posted is the document of the settled schema too.
    have told : x.settle.Plain := RegisteredSchema.plain_settled x.id x.type x.text references
    have document := Envelope.document_registration told
    have bytes := Envelope.write_registration_settle Json.spaced x.type x.text x.references
    change Json.write _ (Envelope.registration x.settle.type x.settle.text x.settle.references) = _
      at bytes
    rw [bytes] at document
    obtain ⟨z, known, tells⟩ := a.stores answered id document
    have same := tells.unique (Envelope.tells_registered told.type) (a.bears_id known).1
    rwa [same] at known
  · intro plain
    obtain ⟨name, named⟩ := plain.type
    rw [← type] at named
    exact RegisteredSchema.settle_eq named (type ▸ plain.name) (text ▸ plain.text)

/-- The latest schema of a subject is what its identifier stands for. -/
theorem of_latest {subject : Text}
    (h : (fetched w settings (.latest subject) none).run e = (.ok x, e')) :
    a.schema e' x.id = some x ∧ x.settle = x := by
  obtain ⟨d, answered, read⟩ := of_fetched h
  obtain ⟨response, given⟩ := exists_response_of_answer answered
  have id := Envelope.member?_of_schema read
  obtain ⟨y, known, tells⟩ := a.tells_latest answered id
  have read' := tells.schema_eq ((a.bears_id known).1 ▸ id) none
  obtain rfl := Except.ok.inj (read'.symm.trans read)
  exact ⟨known, Envelope.settle_of_schema given read⟩

/-- The identifier of what is fetched for a naming stands for it, as documents give it back. If the
naming carries no schema or a plain one, this is what is fetched. -/
theorem of_fetchBySubject {n : Naming}
    (h : ((direct settings).fetchBySubject n).run.run w s e = (.ok x, s', e')) :
    a.schema e' x.id = some x.settle ∧ ((∀ y ∈ n.schema, y.Plain) → x.settle = x) := by
  obtain ⟨s₁, h⟩ := of_run_operation h
  obtain ⟨subject, s₂, e₂, -, h⟩ := of_run_bind h
  cases hn : n.schema with
  | some y =>
    rw [hn] at h
    obtain ⟨known, same⟩ := of_register (a := a) h
    exact ⟨known, fun plain => same (plain y rfl)⟩
  | none =>
    rw [hn] at h
    have yields : Yields w (do
        let envelope ← (direct settings).send (.latest subject) none
        Routine.resolving (envelope.schema none)) (fetched w settings (.latest subject) none) :=
      (yields_send settings _ _).bind fun _ => yields_resolving _
    obtain ⟨known, same⟩ := of_latest (a := a) (yields.of_run h)
    exact ⟨by rw [same, known], fun _ => same⟩

end Archive

end Registrar
