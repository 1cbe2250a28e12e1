import Registrar.Error
import Registrar.Schema

/-!
# Naming subjects

The subject of a schema is derived from the name of a topic, from the name of a record, or from
both. A naming may carry a schema: then the schema is registered under the subject, and otherwise
the latest version of the subject is looked up.
-/

namespace Registrar

/-- What a subject is derived from. -/
inductive NamingKind where
  | recordName
  | topicName
  | topicRecordName
  deriving DecidableEq, Repr

def NamingKind.name : NamingKind → String
  | .recordName => "RecordNameStrategy"
  | .topicName => "TopicNameStrategy"
  | .topicRecordName => "TopicRecordNameStrategy"

/-- A way to derive the subject of a record's key or value. -/
structure Naming where
  kind : NamingKind
  topic : Option Text
  isKey : Bool
  recordName : Option Text
  schema : Option SuppliedSchema
  deriving DecidableEq, Repr

namespace Naming

/-! ## Making namings -/

def byRecord (recordName : Text) : Naming := ⟨.recordName, none, false, some recordName, none⟩

def byTopic (topic : Text) (isKey : Bool) : Naming := ⟨.topicName, some topic, isKey, none, none⟩

def byTopicAndRecord (topic recordName : Text) : Naming :=
  ⟨.topicRecordName, some topic, false, some recordName, none⟩

def byRecordWith (schema : SuppliedSchema) : Naming := ⟨.recordName, none, false, none, some schema⟩

def byTopicWith (topic : Text) (isKey : Bool) (schema : SuppliedSchema) : Naming :=
  ⟨.topicName, some topic, isKey, none, some schema⟩

def byTopicAndRecordWith (topic : Text) (schema : SuppliedSchema) : Naming :=
  ⟨.topicRecordName, some topic, false, none, some schema⟩

/-- Whether the naming carries a schema. -/
def registers (n : Naming) : Bool := n.schema.isSome

/-! ## Subjects -/

def missingNameMessage : String :=
  "name is mandatory in SuppliedSchema when used in TopicRecordNameStrategyWithSchema"

/-- The record name: that of the schema if the naming carries one, else its own. -/
def record (n : Naming) : Except ResolutionError Text :=
  match n.schema with
  | none =>
    match n.recordName with
    | some name => .ok name
    | none => .error (.subject ("record name is mandatory for " ++ n.kind.name) none)
  | some schema =>
    match schema.name with
    | some name => .ok name
    | none => .error (.subject missingNameMessage none)

/-- The topic as it appears in a subject. -/
def topicText (n : Naming) : Text := n.topic.getD "None"

/-- The subject. -/
def subject (n : Naming) : Except ResolutionError Text :=
  match n.kind with
  | .recordName => n.record
  | .topicName => .ok (n.topicText ++ "-" ++ if n.isKey then "key" else "value")
  | .topicRecordName => n.record.map fun name => n.topicText ++ "-" ++ name

/-- The parts of a naming that are shown. -/
def parts (n : Naming) : List String :=
  match n.kind with
  | .recordName => if n.registers then [] else [Text.quotedOption n.recordName]
  | .topicName => [Text.quotedOption n.topic, Text.truth n.isKey]
  | .topicRecordName =>
    Text.quotedOption n.topic :: if n.registers then [] else [Text.quotedOption n.recordName]

/-- The naming as it is shown. -/
def display (n : Naming) : Text :=
  let carried : List Text := match n.schema with
    | none => []
    | some schema => ["<schema " ++ schema.type.registryName ++ ">"]
  n.kind.name ++ (if n.registers then "WithSchema" else "") ++ "(" ++
    List.intercalate (Text.ofString ", ") (n.parts.map Text.ofString ++ carried) ++ ")"

end Naming

end Registrar
