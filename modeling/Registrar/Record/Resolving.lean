import Registrar.Cache.Loading
import Registrar.Client.Lookup
import Registrar.Closure

/-!
# Resolving through the cache

What a reader or a writer of records asks its client for goes through the resolution cache: schemas
by identifier, schemas for a naming, and the schemas to which references lead.
-/

namespace Registrar.Client

variable {I : Interface}

/-- The schema with an identifier. -/
def resolveId (c : Client I) (id : Int) : Routine I RegisteredSchema :=
  Cache.getOrLoad (.ofId id) (c.fetchById id)

/-- The schema for a naming. -/
def resolveNaming (c : Client I) (n : Naming) : Routine I RegisteredSchema :=
  Cache.getOrLoad (.ofNaming n) (c.fetchBySubject n)

/-- The schema to which a reference points. -/
def resolveReference (c : Client I) (r : RegisteredReference) : Routine I RegisteredSchema :=
  Cache.getOrLoad (.ofReference r) (c.fetchReference r)

/-- The schemas to which the references of a schema lead. -/
def resolveReferences (c : Client I) (s : RegisteredSchema) : Routine I (List RegisteredSchema) :=
  Closure.ofReferences c.settings.maxDepth c.resolveReference s.references

/-- The result of a codec; an error from outside becomes the cause of one with the given message. -/
def payload {α : Type} (message : String) : Except Failure α → Routine I α
  | .ok a => pure a
  | .error (.foreign e) => Routine.fail (.general message (some e.describe) false)
  | .error f => throw f

end Registrar.Client
