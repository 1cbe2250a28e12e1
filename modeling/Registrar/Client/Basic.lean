import Registrar.Envelope
import Registrar.Json.Writer
import Registrar.Settings
import Registrar.Text.Percent

/-!
# The client

A client sends requests to one registry through a transport. Every request leaves marks in the
tally, and a response of another status than 200 leaves a record. The addresses of the registry
hold subjects percent-encoded.
-/

namespace Registrar

/-- A client of the registry at the base URL in the settings. -/
structure Client (I : Interface) where
  settings : Settings
  transport : Transport I

/-! ## Addresses -/

/-- What a request is about. -/
inductive Resource where
  | schemaById (id : Int)
  | latest (subject : Text)
  | version (subject : Text) (version : Nat)
  /-- The versions of a subject, to which a schema is added. -/
  | versions (subject : Text)
  /-- A subject, which is asked for the version of a schema. -/
  | subject (subject : Text)
  deriving DecidableEq, Repr

namespace Resource

/-- The address of a subject below the base URL; only ordinary text can be written into it. -/
def subjectPath (s : Text) : Except Text.Unencodable String :=
  (Percent.encode s).map ("/subjects/" ++ ·)

/-- The address below the base URL. -/
def path : Resource → Except Text.Unencodable String
  | .schemaById id => .ok ("/schemas/ids/" ++ toString id)
  | .latest s => (subjectPath s).map (· ++ "/versions/latest")
  | .version s v => (subjectPath s).map (· ++ "/versions/" ++ toString v)
  | .versions s => (subjectPath s).map (· ++ "/versions")
  | .subject s => subjectPath s

end Resource

namespace Client

variable {I : Interface} {α : Type}

/-- The address of a resource. -/
def url (c : Client I) (r : Resource) : Except Failure Text :=
  match r.path with
  | .ok path => .ok (c.settings.url ++ path)
  | .error u => .error (.foreign (.ofUnencodable u))

/-! ## Journal -/

def logger : Text := "kafka_schema_registry.registry.registry"

/-- Leaves a record with the base URL among its fields. -/
def note (c : Client I) (level : Level) (message : Text) (fields : Fields) : Routine I Unit :=
  Routine.note logger level message
    (Fields.update [("base_url", .string c.settings.url)] fields)

/-- An operation of the client that is recorded under its name. -/
def operation (name : String) (body : Routine I α) : Routine I α :=
  Routine.logged ⟨logger, "SchemaRegistryClient." ++ name, Level.debug, false⟩ body

/-! ## Requests -/

/-- Sends a request; a `post` has a body. -/
def exchange (c : Client I) (url : Text) : Option Json → Routine I Response
  | none => c.transport.get url
  | some body => c.transport.post url (Utf8.encode (Json.write Json.spaced body))

def verbOf : Option Json → Verb
  | none => .get
  | some _ => .post

/-- Sends a request and marks how it ended, if it ended with a response or because the registry
could not be reached. -/
def measured (c : Client I) (url : Text) (body : Option Json) : Routine I Response := do
  let verb := verbOf body
  let result ← Routine.attempt (c.exchange url body)
  if let .error (.resolution e) := result then
    if e.origin = .transport then Routine.mark (.request verb .transportError)
  Routine.mark (.duration verb)
  let response ← Routine.ofExcept result
  Routine.mark (.request verb (.status response.status))
  return response

/-- Sends a request and takes the envelope out of the response. -/
def send (c : Client I) (r : Resource) (body : Option Json) : Routine I Envelope := do
  let url ← Routine.ofExcept (c.url r)
  let response ← c.measured url body
  if response.status ≠ 200 then
    c.note Level.warning "Schema registry request failed"
      [("http_method", .string (verbOf body).name), ("url", .string url),
       ("http_status", .int response.status)]
  Routine.ofExcept (Envelope.ofResponse response)

def close (c : Client I) : Routine I Unit := c.transport.close

end Client

end Registrar
