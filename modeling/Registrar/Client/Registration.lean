import Registrar.Client.Arena
import Registrar.Client.Basic

/-!
# Registration

A schema is registered under a subject, its references before it: from left to right, each after
those below it. A reference is posted twice, to the versions of its subject for an identifier and to
its subject for a version. When that fails nothing more is posted, and the error is reworded once.
-/

namespace Registrar.Client

variable {I : Interface}

/-! ## Single schemas -/

/-- Registers one reference whose own references are registered. -/
def postReference (c : Client I) (subject : Text) (name : String) (type : SchemaType)
    (text : Text) (references : List RegisteredReference) : Routine I RegisteredReference := do
  let body := Envelope.registration type text references
  let added ← c.send (.versions subject) (some body)
  let _ ← Routine.resolving added.id
  let stored ← c.send (.subject subject) (some body)
  let version ← Routine.resolving stored.version
  return ⟨.ofString name, subject, version⟩

/-- The error of a registration whose references cannot be registered. -/
def referenceError (e : ResolutionError) : ResolutionError :=
  .general "Error posting a reference" (some e.describe) e.retriable

/-! ## Forests -/

/-- The references registered so far by their positions in the arena. -/
abbrev Registered := Assoc Nat RegisteredReference

/-- What is registered at a position. -/
def Registered.at (done : Registered) (i : Nat) : Routine I RegisteredReference :=
  match Assoc.get? i done with
  | some r => pure r
  | none => Routine.failForeign ⟨.key, toString i⟩

/-- Registers the nodes of an arena along a walk. -/
def walk (c : Client I) (type : SchemaType) (a : Arena) (stops : List Arena.Stop)
    (done : Registered) : Routine I Registered :=
  match stops with
  | [] => pure done
  | .enter i :: rest =>
    if h : i < a.nodes.size then
      c.walk type a (a.nodes[i].children.map .enter ++ .leave i :: rest) done
    else Routine.failForeign ⟨.key, toString i⟩
  | .leave i :: rest =>
    if h : i < a.nodes.size then do
      let node := a.nodes[i]
      let below ← node.children.mapM done.at
      let r := node.reference
      let registered ← c.postReference (.ofString r.subject) r.name type r.text below
      c.walk type a rest (Assoc.put i registered done)
    else Routine.failForeign ⟨.key, toString i⟩
termination_by Arena.Stop.weightAll a stops
decreasing_by
  · exact Arena.Stop.weightAll_enter h rest
  · simp [Arena.Stop.weightAll, Arena.Stop.weight, Arena.total]

/-- Registers a forest, whose arena is complete before anything is posted. -/
def registerForest (c : Client I) (type : SchemaType) (roots : List SuppliedReference) :
    Routine I (List RegisteredReference) := do
  if roots.isEmpty then return []
  let indices := List.range roots.length
  let done ← Routine.rewording referenceError do
    let arena ← Routine.resolving (Arena.ofForest c.settings.maxDepth roots)
    c.walk type arena (indices.map .enter) []
  indices.mapM done.at

/-! ## Operations -/

/-- Registers a schema under a subject. -/
def register (c : Client I) (subject : Text) (schema : SuppliedSchema) :
    Routine I RegisteredSchema :=
  operation "register" do
    let references ← c.registerForest schema.type schema.references
    let envelope ← c.send (.versions subject)
      (some (Envelope.registration schema.type schema.text references))
    let id ← Routine.resolving envelope.id
    c.note Level.debug "Registered schema"
      [("subject", .string subject), ("schema_id", .int id),
       ("reference_count", .int references.length)]
    return ⟨id, schema.type, schema.text, references⟩

/-- Registers one reference, and those below it, under a subject. -/
def registerReference (c : Client I) (subject : Text) (type : SchemaType)
    (r : SuppliedReference) : Routine I RegisteredReference :=
  operation "register_reference" do
    let below ← c.registerForest type r.references
    Routine.rewording referenceError (c.postReference subject r.name type r.text below)

end Registrar.Client
