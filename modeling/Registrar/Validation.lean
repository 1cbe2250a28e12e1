import Registrar.Error
import Registrar.Number.Loose
import Registrar.Schema

/-!
# Validating documents

Schemas and references are read from JSON values. A value that does not fit gives a list of issues,
each with the path to the place at fault: fields in their order, items by their index. Strings are
never made from other values. Integers are made from whole numbers of any form: from truth values,
from floating-point numbers without a fraction inside the range of 64-bit integers, and from text.
-/

namespace Registrar

/-- One step into a value. -/
inductive PathStep where
  | field (name : String)
  | index (n : Nat)
  deriving DecidableEq, Repr

def PathStep.text : PathStep → String
  | .field name => name
  | .index n => toString n

/-- What is wrong with a value. -/
inductive Problem where
  | missing
  | stringType
  | stringUnicode
  | stringTooShort
  | modelType
  | dataclassType
  | tupleType
  | enum
  | valueError
  | intType
  | intParsing
  | intParsingSize
  | intFromFloat
  | finiteNumber
  | greaterThanEqual
  | recursionLoop
  | frozenInstance
  deriving DecidableEq, Repr

def Problem.name : Problem → String
  | .missing => "missing"
  | .stringType => "string_type"
  | .stringUnicode => "string_unicode"
  | .stringTooShort => "string_too_short"
  | .modelType => "model_type"
  | .dataclassType => "dataclass_type"
  | .tupleType => "tuple_type"
  | .enum => "enum"
  | .valueError => "value_error"
  | .intType => "int_type"
  | .intParsing => "int_parsing"
  | .intParsingSize => "int_parsing_size"
  | .intFromFloat => "int_from_float"
  | .finiteNumber => "finite_number"
  | .greaterThanEqual => "greater_than_equal"
  | .recursionLoop => "recursion_loop"
  | .frozenInstance => "frozen_instance"

/-- A problem and the path to it. -/
structure Issue where
  path : List PathStep
  problem : Problem
  deriving DecidableEq, Repr

def Issue.text (i : Issue) : String :=
  String.intercalate "." (i.path.map PathStep.text) ++ ":" ++ i.problem.name

/-- All issues of a value as one text. -/
def Issue.textAll (is : List Issue) : String := String.intercalate ";" (is.map Issue.text)

def ForeignError.ofIssues (is : List Issue) : ForeignError := ⟨.validation, Issue.textAll is⟩

/-- A validated value, or what is wrong. -/
abbrev Checked (α : Type) := Except (List Issue) α

namespace Checked

def fail {α : Type} (p : Problem) : Checked α := .error [⟨[], p⟩]

/-- Both values, or the issues of both. -/
def both {α β : Type} (a : Checked α) (b : Checked β) : Checked (α × β) :=
  match a, b with
  | .ok a, .ok b => .ok (a, b)
  | .error is, .ok _ => .error is
  | .ok _, .error is => .error is
  | .error is, .error js => .error (is ++ js)

/-- The values of a list, or the issues of all. -/
def all {α : Type} : List (Checked α) → Checked (List α)
  | [] => .ok []
  | a :: as => (both a (all as)).map fun p => p.1 :: p.2

/-- Puts a step in front of the paths of the issues. -/
def under {α : Type} (s : PathStep) (a : Checked α) : Checked α :=
  a.mapError fun is => is.map fun i => { i with path := s :: i.path }

end Checked

/-! ## Simple values -/

namespace Check

/-- Any string. -/
def string : Json → Checked Text
  | .string t => .ok t
  | _ => .fail .stringType

/-- Ordinary text that is not empty. -/
def nonemptyText : Json → Checked String
  | .string t =>
    match t.asString with
    | .ok s => if s = "" then .fail .stringTooShort else .ok s
    | .error _ => .fail .stringUnicode
  | _ => .fail .stringType

def optionalString : Json → Checked (Option Text)
  | .null => .ok none
  | j => (string j).map some

/-- The integer that a text denotes. -/
def integerText (t : Text) : Checked Int :=
  match t.toChars, Loose.read t with
  | .error _, _ => .fail .stringUnicode
  | .ok _, .ok n => .ok n
  | .ok _, .error .malformed => .fail .intParsing
  | .ok _, .error .tooLong => .fail .intParsingSize

/-- The integer that a floating-point number equals, inside the range of 64-bit integers. -/
def integerFloat (x : Binary64) : Checked Int :=
  if !x.isFinite then .fail .finiteNumber
  else
    match x.toInt? with
    | none => .fail .intFromFloat
    | some n =>
      if -0x8000000000000000 < n ∧ n < 0x8000000000000000 then .ok n else .fail .intParsingSize

def integer : Json → Checked Int
  | .int n => .ok n
  | .bool b => .ok (if b then 1 else 0)
  | .float x => integerFloat x
  | .string t => integerText t
  | _ => .fail .intType

/-- An integer that is not negative. -/
def natural (j : Json) : Checked Nat :=
  match integer j with
  | .ok n => if n < 0 then .fail .greaterThanEqual else .ok n.toNat
  | .error is => .error is

/-! ## Fields -/

/-- A field that must be there. -/
def required {α : Type} (members : List (Text × Json)) (name : String)
    (check : Json → Checked α) : Checked α :=
  match Json.member? members name with
  | none => .error [⟨[.field name], .missing⟩]
  | some v => (check v).under (.field name)

/-- A field with a default. -/
def optional {α : Type} (members : List (Text × Json)) (name : String) (default : α)
    (check : Json → Checked α) : Checked α :=
  match Json.member? members name with
  | none => .ok default
  | some v => (check v).under (.field name)

/-- The items of an array, each with its index in the paths. -/
def itemsFrom {α : Type} (check : Json → Checked α) (n : Nat) : List Json → List (Checked α)
  | [] => []
  | v :: vs => (check v).under (.index n) :: itemsFrom check (n + 1) vs

def array {α : Type} (check : Json → Checked α) : Json → Checked (List α)
  | .array items => .all (itemsFrom check 0 items)
  | _ => .fail .tupleType

/-! ## Types -/

/-- The name of a kind, which is ordinary text. -/
def kind : Json → Checked SchemaKind
  | .string t =>
    match t.toChars, SchemaKind.ofName? t with
    | .error _, _ => .fail .stringUnicode
    | .ok _, some k => .ok k
    | .ok _, none => .fail .enum
  | _ => .fail .enum

/-- Whether all keys are ordinary text, those of members that are ignored too. -/
def hasPlainKeys (members : List (Text × Json)) : Bool := members.all fun m => m.1.toChars.isOk

def type : Json → Checked SchemaType
  | .object members =>
    if !hasPlainKeys members then .fail .stringUnicode
    else
      match Checked.both (required members "kind" kind)
        (optional members "name" none optionalString) with
      | .error is => .error is
      | .ok (k, name) =>
        match SchemaType.make k name with
        | .ok t => .ok t
        | .error _ => .fail .valueError
  | _ => .fail .dataclassType

end Check

/-! ## References and schemas -/

/-- The most levels of a forest of supplied references in a document. -/
def SuppliedReference.maxLevels : Nat := 255

/-- Validates a reference and those below it, on at most `levels` levels. -/
def SuppliedReference.check : (levels : Nat) → Json → Checked SuppliedReference
  | 0, _ => .fail .recursionLoop
  | levels + 1, .object members =>
    (Checked.both (Check.required members "name" Check.nonemptyText)
      (Checked.both (Check.required members "subject" Check.nonemptyText)
        (Checked.both (Check.required members "schema_text" Check.string)
          (Check.optional members "references" [] (Check.array (check levels)))))).map
      fun (name, subject, text, references) => .mk name subject text references
  | _ + 1, _ => .fail .modelType

def SuppliedSchema.check : Json → Checked SuppliedSchema
  | .object members =>
    (Checked.both (Check.optional members "name" none Check.optionalString)
      (Checked.both (Check.optional members "schema_type" .avro Check.type)
        (Checked.both (Check.required members "schema_text" Check.string)
          (Check.optional members "references" [] 
            (Check.array (SuppliedReference.check SuppliedReference.maxLevels)))))).map
      fun (name, type, text, references) => ⟨name, type, text, references⟩
  | _ => .fail .modelType

def RegisteredReference.check : Json → Checked RegisteredReference
  | .object members =>
    (Checked.both (Check.required members "name" Check.string)
      (Checked.both (Check.required members "subject" Check.string)
        (Check.required members "version" Check.natural))).map
      fun (name, subject, version) => ⟨name, subject, version⟩
  | _ => .fail .modelType

def RegisteredSchema.check : Json → Checked RegisteredSchema
  | .object members =>
    (Checked.both (Check.required members "id" Check.natural)
      (Checked.both (Check.required members "schema_type" Check.type)
        (Checked.both (Check.required members "schema_text" Check.string)
          (Check.optional members "references" [] (Check.array RegisteredReference.check))))).map
      fun (id, type, text, references) => ⟨id, type, text, references⟩
  | _ => .fail .modelType

/-- A reference as a member of the registry's documents. -/
def RegisteredReference.toJson (r : RegisteredReference) : Json :=
  .record [("name", .string r.name), ("subject", .string r.subject), ("version", .int r.version)]

/-- No field of a schema or a reference can be changed. -/
def Issue.frozen (field : String) : Issue := ⟨[.field field], .frozenInstance⟩

end Registrar
