import Registrar.Client.Registration

/-!
# Looking schemas up

Schemas are looked up by identifier, by a naming and by a registered reference. A naming that
carries a schema has it registered.
-/

namespace Registrar.Client

variable {I : Interface}

/-- The schema with an identifier. -/
def fetchById (c : Client I) (id : Int) : Routine I RegisteredSchema :=
  operation "fetch_by_id" do
    let envelope ← c.send (.schemaById id) none
    Routine.resolving (envelope.schema (some id))

/-- The schema with an identifier, which has to be of the given type. -/
def fetchByIdAndType (c : Client I) (id : Int) (type : SchemaType) : Routine I RegisteredSchema :=
  operation "fetch_by_id_and_type" do
    let schema ← c.fetchById id
    if schema.type ≠ type then
      Routine.fail (.general ("type " ++ schema.type.registryName ++ ", is not correct") none false)
    return schema

/-- The schema for a naming: the one it carries, once registered, or the latest of its subject. -/
def fetchBySubject (c : Client I) (naming : Naming) : Routine I RegisteredSchema :=
  operation "fetch_by_subject" do
    let subject ← Routine.resolving naming.subject
    match naming.schema with
    | some schema => c.register subject schema
    | none =>
      let envelope ← c.send (.latest subject) none
      Routine.resolving (envelope.schema none)

/-- The schema to which a reference points. -/
def fetchReference (c : Client I) (r : RegisteredReference) : Routine I RegisteredSchema :=
  operation "fetch_reference" do
    let envelope ← c.send (.version r.subject r.version) none
    Routine.resolving (envelope.schema none)

end Registrar.Client
