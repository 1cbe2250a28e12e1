import Registrar.Text.Basic

/-!
# Types of schemas

A schema is written in one of three formats that the registry knows, or in another one that has a
name. `SchemaType.registryName` and `SchemaType.ofRegistryName` go between types and the names in
the registry's documents, where an absent name means Avro.
-/

namespace Registrar

/-- The formats of schemas, with `other` for all that have a name of their own. -/
inductive SchemaKind where
  | avro
  | protobuf
  | json
  | other
  deriving DecidableEq, Repr

def SchemaKind.name : SchemaKind → String
  | .avro => "AVRO"
  | .protobuf => "PROTOBUF"
  | .json => "JSON"
  | .other => "OTHER"

/-- The kind that has the given name. -/
def SchemaKind.ofName? (t : Text) : Option SchemaKind :=
  [SchemaKind.avro, .protobuf, .json, .other].find? fun k => Text.ofString k.name = t

/-- The type tag of a schema. -/
inductive SchemaType where
  | avro
  | protobuf
  | json
  | other (name : { t : Text // t ≠ [] })
  deriving DecidableEq, Repr

namespace SchemaType

def kind : SchemaType → SchemaKind
  | .avro => .avro
  | .protobuf => .protobuf
  | .json => .json
  | .other _ => .other

/-- The name of a type of another format. -/
def name? : SchemaType → Option Text
  | .other n => some n.val
  | _ => none

/-! ## Making types -/

/-- Why a kind and a name make no type. -/
inductive Refusal where
  | nameMissing
  | nameNotTaken (kind : SchemaKind)
  deriving DecidableEq, Repr

def Refusal.message : Refusal → String
  | .nameMissing => "SchemaType.other requires a name"
  | .nameNotTaken kind => kind.name ++ " schema type does not take a name"

/-- The type of another format; its name is not empty. -/
def named (name : Text) : Except Refusal SchemaType :=
  if h : name ≠ [] then .ok (.other ⟨name, h⟩) else .error .nameMissing

/-- The type with the given kind and name. -/
def make (kind : SchemaKind) (name : Option Text) : Except Refusal SchemaType :=
  match kind, name with
  | .other, some n => named n
  | .other, none => .error .nameMissing
  | .avro, none => .ok .avro
  | .protobuf, none => .ok .protobuf
  | .json, none => .ok .json
  | k, some _ => .error (.nameNotTaken k)

/-! ## Names in the registry -/

def registryName : SchemaType → Text
  | .other n => n.val
  | t => t.kind.name

/-- The type with a non-empty name. -/
def ofName (t : Text) (h : t ≠ []) : SchemaType :=
  if t = Text.ofString "AVRO" then .avro
  else if t = Text.ofString "PROTOBUF" then .protobuf
  else if t = Text.ofString "JSON" then .json
  else .other ⟨t, h⟩

/-- The type that a document of the registry names; without a name it is Avro. -/
def ofRegistryName : Option Text → Except Refusal SchemaType
  | none => .ok .avro
  | some t => if h : t ≠ [] then .ok (ofName t h) else .error .nameMissing

end SchemaType

end Registrar
