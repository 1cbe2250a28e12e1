import Registrar.Text.Quoted
import Registrar.Text.Utf8
import Registrar.Json.Reader

/-!
# Errors

Every failure of an operation on the registry is a `ResolutionError`. It says whether issuing the
same call again may help, and whether it was replayed from the resolution cache. What comes from
outside, from a codec, a transport or a loader, or from a mistaken argument, is a `ForeignError`.
A running operation ends with one of the two, or because it was cancelled.
-/

namespace Registrar

/-! ## Errors of resolution -/

/-- Where an error arose. -/
inductive Origin where
  | general
  /-- The registry could not be reached. -/
  | transport
  /-- The registry answered with another status than 200. -/
  | status (code : Int)
  /-- The body of an answer could not be understood. -/
  | parse
  /-- A naming strategy or a supplied schema is not usable as given. -/
  | subject
  deriving DecidableEq, Repr

/-- The name under which an error is shown. -/
def Origin.name : Origin → String
  | .general => "SRCError"
  | .transport => "TransportError"
  | .status _ => "HttpStatusError"
  | .parse => "ParseError"
  | .subject => "SubjectValidationError"

/-- Whether a retry may help. -/
inductive Category where
  | transient
  | permanent
  deriving DecidableEq, Repr

def Category.name : Category → String
  | .transient => "transient"
  | .permanent => "permanent"

/-- The failure of an operation on the registry. -/
structure ResolutionError where
  origin : Origin
  message : Text
  cause : Option Text
  retriable : Bool
  cached : Bool
  deriving DecidableEq, Repr

namespace ResolutionError

def transport (message : Text) (cause : Option Text) : ResolutionError :=
  ⟨.transport, message, cause, true, false⟩

def status (code : Int) : ResolutionError :=
  ⟨.status code, "Did not get a 200 response code but " ++ toString code ++ " instead", none, false,
    false⟩

def parse (message : Text) (cause : Option Text) : ResolutionError :=
  ⟨.parse, message, cause, false, false⟩

def subject (message : Text) (cause : Option Text) : ResolutionError :=
  ⟨.subject, message, cause, false, false⟩

/-- An error without a more special origin. -/
def general (message : Text) (cause : Option Text) (retriable : Bool) : ResolutionError :=
  ⟨.general, message, cause, retriable, false⟩

/-- References that are nested too deeply. -/
def tooDeep (limit : Nat) (subject : Text) : ResolutionError :=
  .subject ("references nested deeper than " ++ toString limit ++ " levels")
    (some ("at subject " ++ subject))

def category (e : ResolutionError) : Category := if e.retriable then .transient else .permanent

/-- The error as the resolution cache keeps it. -/
def intoCache (e : ResolutionError) : ResolutionError := { e with cached := true }

/-- Two errors agree when all but their origins are equal. -/
def agrees (e f : ResolutionError) : Bool :=
  e.message = f.message && e.cause = f.cause && e.retriable = f.retriable && e.cached = f.cached

/-- The error as one sentence. -/
def describe (e : ResolutionError) : Text :=
  let cause : Text := match e.cause with
    | some c => ", was cause by " ++ c ++ ", it's retriable: "
    | none => " had no other cause, it's retriable: "
  "Error: " ++ e.message ++ cause ++ Text.truth e.retriable ++ ", it's cached: " ++
    Text.truth e.cached

/-- The error with all its fields. -/
def detailed (e : ResolutionError) : String :=
  e.origin.name ++ "(message=" ++ Text.quoted e.message ++ ", cause=" ++
    Text.quotedOption e.cause ++ ", retriable=" ++ Text.truth e.retriable ++ ", cached=" ++
    Text.truth e.cached ++ ")"

end ResolutionError

/-! ## Errors from outside -/

/-- The kinds of errors that do not arise in resolution. -/
inductive ForeignKind where
  /-- An argument has an unusable value. -/
  | value
  /-- An argument has an unusable type. -/
  | type
  | key
  | attribute
  | runtime
  | timeout
  /-- A connection failed. -/
  | connection
  /-- A text is no JSON document. -/
  | document
  /-- Bytes are no text. -/
  | undecodable
  /-- A text cannot be written as bytes. -/
  | unencodable
  /-- Values are nested too deeply. -/
  | nesting
  | validation
  /-- Any other kind, with a category of its own. -/
  | categorized (category : String)
  deriving DecidableEq, Repr

/-- The name under which errors of a kind are shown. -/
def ForeignKind.name : ForeignKind → String
  | .value => "ValueError"
  | .type => "TypeError"
  | .key => "KeyError"
  | .attribute => "AttributeError"
  | .runtime => "RuntimeError"
  | .timeout => "TimeoutError"
  | .connection => "ConnectionError"
  | .document => "JSONDecodeError"
  | .undecodable => "UnicodeDecodeError"
  | .unencodable => "UnicodeEncodeError"
  | .nesting => "RecursionError"
  | .validation => "ValidationError"
  | .categorized _ => "Categorized"

/-- An error that does not arise in resolution. -/
structure ForeignError where
  kind : ForeignKind
  message : Text
  deriving DecidableEq, Repr

namespace ForeignError

/-- The text of the error; a missing key is shown quoted. -/
def describe (e : ForeignError) : Text :=
  match e.kind with
  | .key => Text.quoted e.message
  | _ => e.message

def category? (e : ForeignError) : Option String :=
  match e.kind with
  | .categorized c => some c
  | _ => none

/-- An object without the attribute that is asked of it. -/
def lacking (type : Text) (name : String) : ForeignError :=
  ⟨.attribute, "'" ++ type ++ "' object has no attribute '" ++ name ++ "'"⟩

/-- Something absent where bytes are needed. -/
def noBytes : ForeignError := ⟨.type, "cannot convert 'NoneType' object to bytes"⟩

/-- An integer with more digits than are written. -/
def longInteger : ForeignError :=
  ⟨.value, "Exceeds the limit (4300 digits) for integer string conversion; use " ++
    "sys.set_int_max_str_digits() to increase the limit"⟩

/-- A document that could not be read. -/
def ofReadError (e : Json.ReadError) : ForeignError :=
  match e with
  | .malformed .. => ⟨.document, e.message⟩
  | .longInteger _ => ⟨.value, e.message⟩
  | .tooDeep _ => ⟨.nesting, e.message⟩

def ofUtf8Fault (f : Utf8.Fault) : ForeignError := ⟨.undecodable, f.message⟩

def ofUnencodable (u : Text.Unencodable) : ForeignError := ⟨.unencodable, u.message⟩

end ForeignError

/-! ## How an operation fails -/

/-- The end of an operation that gives no result. -/
inductive Failure where
  | resolution (e : ResolutionError)
  | foreign (e : ForeignError)
  | cancelled
  deriving DecidableEq, Repr

namespace Failure

/-- The text of a failure. -/
def describe : Failure → Text
  | .resolution e => e.describe
  | .foreign e => e.describe
  | .cancelled => []

/-- Errors of resolution may agree; no other failures do. -/
def agrees : Failure → Failure → Bool
  | .resolution e, .resolution f => e.agrees f
  | _, _ => false

end Failure

/-! ## Steps that may fail -/

/-- A step that is gone on after has given a result. -/
theorem of_bind_ok {ε α β : Type} {x : Except ε α} {f : α → Except ε β} {b : β}
    (h : x >>= f = .ok b) : ∃ a, x = .ok a ∧ f a = .ok b := by
  cases x with
  | error e => cases h
  | ok a => exact ⟨a, rfl, h⟩

/-- A result is the same whatever becomes of errors. -/
theorem of_mapError_ok {α φ ψ : Type} {f : φ → ψ} {x : Except φ α} {a : α}
    (h : x.mapError f = .ok a) : x = .ok a := by
  cases x with
  | error g => cases h
  | ok b =>
    cases h
    rfl

end Registrar
