import Registrar.Journal
import Registrar.Text.Digit
import Registrar.Text.Word

/-!
# The console

`Console.setUp` sets the level of the package's logger, attaches a console to it unless it has one,
and quietens the loggers of the libraries underneath. A console shows records by a format, which
has to name at least one attribute as `%(name)s` does.
-/

namespace Registrar

/-- A console attached to the package's logger. -/
structure Console where
  format : Text
  level : Level
  deriving DecidableEq, Repr

/-- The levels and consoles of the loggers. -/
structure Loggers where
  level : Level
  consoles : List Console
  noisy : List (String × Level)
  deriving DecidableEq, Repr

namespace Console

def packageName : String := "kafka_schema_registry"

def defaultFormat : String := "%(asctime)s %(levelname)s %(name)s: %(message)s"

/-- The loggers that are quietened. -/
def noisyNames : List String := ["aiohttp", "aiokafka", "urllib3"]

/-! ## Formats -/

/-- The letters that end a field of a format, in either case; the last three are counted as forms of
`i` and `s`. -/
def conversions : List Char := "diouxefgcrsa%\u0130\u0131\u017f".toList

/-- Whether the symbol is a decimal digit of any script. -/
def isDigit (s : Symbol) : Bool := s.satisfies fun c => (Text.digitValue? c).isSome

/-- A width or a precision: a star, or any number of digits. -/
def skipCount : Text → Text
  | .char '*' :: rest => rest
  | t => t.dropWhile isDigit

/-- A point and a precision: a star, or at least one digit. -/
def skipPrecision : Text → Text
  | .char '.' :: .char '*' :: rest => rest
  | .char '.' :: s :: rest => if isDigit s then rest.dropWhile isDigit else .char '.' :: s :: rest
  | t => t

/-- Whether the text, which follows `%(name)`, completes a field. -/
def completesField (t : Text) : Bool :=
  let flags := t.dropWhile (·.satisfies "#0+ -".toList.contains)
  match skipPrecision (skipCount flags) with
  | s :: _ => s.satisfies fun c => conversions.contains c.toLower
  | [] => false

/-- Whether a field starts here. -/
def startsField : Text → Bool
  | .char '%' :: .char '(' :: rest =>
    match rest.takeWhile (·.satisfies Text.isWord), rest.dropWhile (·.satisfies Text.isWord) with
    | _ :: _, .char ')' :: rest => completesField rest
    | _, _ => false
  | _ => false

/-- Whether a field starts anywhere in the text. -/
def hasField : Text → Bool
  | [] => false
  | s :: rest => startsField (s :: rest) || hasField rest

/-- How a caller gives a format. -/
inductive FormatChoice where
  | text (t : Text)
  /-- Something empty, which leaves the choice open. -/
  | unspecified
  /-- A value of a type that is no text. -/
  | other (type : String)
  deriving DecidableEq, Repr

namespace FormatChoice

/-- The format that a value gives. -/
def ofJson (v : Json) : FormatChoice :=
  if !v.isTrue then .unspecified
  else match v with
    | .string t => .text t
    | v => .other v.typeName

/-- The format, which is the message alone if none is specified. -/
def format : FormatChoice → Except ForeignError Text
  | .unspecified => .ok "%(message)s"
  | .text f =>
    if hasField f then .ok f else .error ⟨.value, "Invalid format '" ++ f ++ "' for '%' style"⟩
  | .other type => .error ⟨.type, "expected string or bytes-like object, got '" ++ type ++ "'"⟩

end FormatChoice

/-! ## Setting up -/

/-- Sets up the loggers. An unknown level changes nothing; an invalid format is noticed after the
level of the package was set. -/
def setUp (l : Loggers) (level : LevelChoice) (format : FormatChoice) (quieten : Bool) :
    Loggers × Except ForeignError Unit :=
  match level.forLogger with
  | .error e => (l, .error e)
  | .ok chosen =>
    let l := { l with level := chosen }
    let attached : Except ForeignError Loggers :=
      if l.consoles.isEmpty then
        format.format.map fun f => { l with consoles := [⟨f, chosen⟩] }
      else .ok l
    match attached with
    | .error e => (l, .error e)
    | .ok l =>
      let l := if quieten then { l with noisy := l.noisy.map fun p => (p.1, Level.warning) } else l
      (l, .ok ())

/-- The loggers before any set-up. -/
def initial : Loggers := ⟨Level.debug, [], noisyNames.map (·, Level.unset)⟩

end Console

end Registrar
