import Registrar.Exchange
import Registrar.Validation

/-!
# Envelopes

The registry answers with JSON objects. `Envelope.ofResponse` takes the object out of a response,
`Envelope.schema` reads a schema from it, and `Envelope.registration` is the document with which a
schema is registered. Identifiers and versions that the registry assigns are integers below
`2 ^ 32`.
-/

namespace Registrar

/-- The members of the object with which the registry answers. -/
abbrev Envelope := List (Text × Json)

namespace Envelope

/-! ## Responses -/

/-- How reading a body fails; a body beyond the nesting limit is no matter of resolution. -/
def unreadable (e : Json.ReadError) : Failure :=
  match e with
  | .tooDeep _ => .foreign (.ofReadError e)
  | _ => .resolution (.parse "Invalid json string" (some e.message))

/-- The document in the body of a response. -/
def document (body : Bytes) : Except Failure Json :=
  match Utf8.decode body with
  | .error f => .error (.resolution (.parse "Invalid UTF-8 sequence" (some f.message)))
  | .ok cs => (Json.read Json.maxNesting (.ofChars cs)).mapError unreadable

/-- The object in a response of status 200. -/
def ofResponse (r : Response) : Except Failure Envelope :=
  if r.status ≠ 200 then .error (.resolution (.status r.status))
  else
    match document r.body with
    | .error f => .error f
    | .ok (.object members) => .ok members
    | .ok _ =>
      .error (.resolution (.parse "Invalid json string" (some "expected a JSON object")))

/-! ## Numbers -/

/-- The first number that no identifier and no version reaches. -/
def numberBound : Int := 0x100000000

/-- The number that the registry assigned. -/
def number? : Json → Option Nat
  | .int n => if 0 ≤ n ∧ n < numberBound then some n.toNat else none
  | _ => none

/-- The number in a member. -/
def member? (e : Envelope) (name : String) : Option Nat := (Json.member? e name).bind number?

/-- The identifier in an answer to a registration. -/
def id (e : Envelope) : Except ResolutionError Nat :=
  match e.member? "id" with
  | some n => .ok n
  | none => .error (.parse "Could not get id from response" none)

/-- The version in an answer to a registration. -/
def version (e : Envelope) : Except ResolutionError Nat :=
  match e.member? "version" with
  | some n => .ok n
  | none => .error (.parse "Could not get version from response" none)

/-! ## Schemas -/

/-- The identifier of the schema in an envelope: its own one, else the one that was asked for. -/
def schemaId (e : Envelope) (requested : Option Int) : Except ResolutionError Int :=
  let id? := match Json.member? e "id" with
    | some v => (number? v).map Int.ofNat
    | none => requested
  match id? with
  | some n => .ok n
  | none => .error (.parse "Could not get id from response" none)

/-- The type of the schema; an empty name, or one that is no string, counts as absent. -/
def schemaType (e : Envelope) : SchemaType :=
  match Json.member? e "schemaType" with
  | some (.string t) => if h : t ≠ [] then .ofName t h else .avro
  | _ => .avro

/-- The text of the schema. -/
def schemaText (e : Envelope) : Except ResolutionError Text :=
  match Json.member? e "schema" with
  | some (.string t) => .ok t
  | _ => .error (.parse "Could not get raw schema from response" none)

/-- The references of the schema; what is no list counts as none. -/
def references (e : Envelope) : Except ResolutionError (List RegisteredReference) :=
  match Json.member? e "references" with
  | some (.array items) =>
    (items.mapM RegisteredReference.check).mapError fun is =>
      .parse "Error parsing reference" (some (Issue.textAll is))
  | _ => .ok []

/-- The schema in an envelope, which was asked for by the identifier `requested`, if by any. -/
def schema (e : Envelope) (requested : Option Int) : Except ResolutionError RegisteredSchema := do
  let id ← e.schemaId requested
  let text ← e.schemaText
  let references ← e.references
  match (Check.natural (.int id)).under (.field "id") with
  | .ok id => return ⟨id, e.schemaType, text, references⟩
  | .error is => throw (.parse "Could not parse schema from response" (some (Issue.textAll is)))

/-! ## Registration -/

/-- The document that registers a schema; without references it does not mention them. -/
def registration (type : SchemaType) (text : Text) (references : List RegisteredReference) :
    Json :=
  .record <|
    [("schema", .string text), ("schemaType", .string type.registryName)] ++
      if references.isEmpty then [] else [("references", .array (references.map (·.toJson)))]

end Envelope

end Registrar
