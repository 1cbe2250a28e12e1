import Registrar.Json.Basic
import Registrar.Text.Digit
import Registrar.Text.Hex

/-!
# Reading JSON documents

`Json.read` turns a text into a value or into the first error. Beyond the standard grammar the
words `NaN`, `Infinity` and `-Infinity` are values. An error names what was expected and the text
that is left at that point, from which its position, line and column follow.

A number ends where its grammar ends, so `01` is `0` followed by more text. It is an integer
unless it has a fraction or an exponent, and an integer has at most 4300 digits. A `\u` escape is
refused when its four digits end the text. A high surrogate and a low one, both escaped, are one
character. Arrays and objects are nested up to a limit, and what follows the bracket that exceeds it
is not looked at.
-/

namespace Registrar.Json

/-! ## Errors -/

/-- What is wrong at a place of a document. -/
inductive Cause where
  | expectingValue
  | expectingName
  | expectingColon
  | expectingComma
  | unterminatedString
  | controlCharacter
  | invalidEscape
  | invalidUnicodeEscape
  | extraData
  | byteOrderMark
  deriving DecidableEq, Repr

def Cause.message : Cause → String
  | .expectingValue => "Expecting value"
  | .expectingName => "Expecting property name enclosed in double quotes"
  | .expectingColon => "Expecting ':' delimiter"
  | .expectingComma => "Expecting ',' delimiter"
  | .unterminatedString => "Unterminated string starting at"
  | .controlCharacter => "Invalid control character at"
  | .invalidEscape => "Invalid \\escape"
  | .invalidUnicodeEscape => "Invalid \\uXXXX escape"
  | .extraData => "Extra data"
  | .byteOrderMark => "Unexpected UTF-8 BOM (decode using utf-8-sig)"

/-- What holds other values. -/
inductive Container where
  | array
  | object
  deriving DecidableEq, Repr

def Container.name : Container → String
  | .array => "array"
  | .object => "object"

/-- Why reading stopped, with the text left at the place of the error. -/
inductive Stop where
  | fault (cause : Cause) (rest : Text)
  | longInteger (digits : Nat)
  /-- A container begins on a level beyond the limit. -/
  | tooDeep (c : Container)
  deriving DecidableEq, Repr

/-- Why a text is no document; positions count symbols from zero. -/
inductive ReadError where
  | malformed (cause : Cause) (line column position : Nat)
  | longInteger (digits : Nat)
  | tooDeep (c : Container)
  deriving DecidableEq, Repr

/-- The most digits of an integer. -/
def maxDigits : Nat := 4300

/-- The most levels of arrays and objects in a document from outside. -/
def maxNesting : Nat := 990

def longIntegerMessage (digits : Nat) : String :=
  "Exceeds the limit (4300 digits) for integer string conversion: value has " ++
    toString digits ++ " digits; use sys.set_int_max_str_digits() to increase the limit"

def ReadError.message : ReadError → String
  | .malformed cause line column position =>
    cause.message ++ ": line " ++ toString line ++ " column " ++ toString column ++
      " (char " ++ toString position ++ ")"
  | .longInteger digits => longIntegerMessage digits
  | .tooDeep c =>
    "maximum recursion depth exceeded while decoding a JSON " ++ c.name ++ " from a unicode string"

/-- Places an error in the text: lines are counted from one, and so are the columns in a line. -/
def Stop.locate (whole : Text) : Stop → ReadError
  | .longInteger digits => .longInteger digits
  | .tooDeep c => .tooDeep c
  | .fault cause rest =>
    let position := whole.length - rest.length
    let before := whole.take position
    let line := before.count (.char '\n') + 1
    let column := (before.reverse.takeWhile (· ≠ .char '\n')).length + 1
    .malformed cause line column position

namespace Reader

/-! ## Tokens -/

/-- The four characters between tokens. -/
def isSpace (c : Char) : Bool := c = ' ' || c = '\t' || c = '\n' || c = '\r'

def skip (t : Text) : Text := t.dropWhile (·.satisfies isSpace)

/-- The code unit that four hexadecimal digits stand for. -/
def unit? (a b c d : Symbol) : Option Nat := do
  let a ← Hex.digit? a
  let b ← Hex.digit? b
  let c ← Hex.digit? c
  let d ← Hex.digit? d
  return ((a * 16 + b) * 16 + c) * 16 + d

/-- The character of a one-letter escape. -/
def shortEscape? : Symbol → Option Char
  | .char '"' => some '"'
  | .char '\\' => some '\\'
  | .char '/' => some '/'
  | .char 'b' => some '\x08'
  | .char 'f' => some '\x0c'
  | .char 'n' => some '\n'
  | .char 'r' => some '\r'
  | .char 't' => some '\t'
  | _ => none

/-- Whether an escaped code unit starts here. -/
def startsUnit : Text → Bool
  | .char '\\' :: .char 'u' :: _ => true
  | _ => false

/-- Puts the symbol of an escape in front of a text; it completes a pair with the first symbol of
the text if that one was escaped too. -/
def attach (escaped : Bool) (s : Symbol) (t : Text) : Text :=
  match s, t with
  | .surrogate h, .surrogate l :: rest =>
    if escaped && h.val < 1024 && 1024 ≤ l.val then
      .char (Char.ofNat (0x10000 + h.val * 1024 + (l.val - 1024))) :: rest
    else s :: t
  | _, _ => s :: t

/-- Reads the symbols of a string up to its closing quote; `opening` is the text from the opening
quote on. -/
def symbols (opening : Text) : Text → Except Stop (Text × Text)
  | [] => .error (.fault .unterminatedString opening)
  | .char '"' :: rest => .ok ([], rest)
  | [.char '\\'] => .error (.fault .unterminatedString opening)
  | .char '\\' :: .char 'u' :: a :: b :: c :: d :: e :: rest =>
    match unit? a b c d with
    | some n => do
      let (ss, after) ← symbols opening (e :: rest)
      return (attach (startsUnit (e :: rest)) (.ofUnit n) ss, after)
    | none => .error (.fault .invalidUnicodeEscape (.char 'u' :: a :: b :: c :: d :: e :: rest))
  | .char '\\' :: .char 'u' :: rest => .error (.fault .invalidUnicodeEscape (.char 'u' :: rest))
  | .char '\\' :: s :: rest =>
    match shortEscape? s with
    | some c => do
      let (ss, rest) ← symbols opening rest
      return (.char c :: ss, rest)
    | none => .error (.fault .invalidEscape (.char '\\' :: s :: rest))
  | s :: rest =>
    if s.toNat < 0x20 then .error (.fault .controlCharacter (s :: rest))
    else do
      let (ss, rest) ← symbols opening rest
      return (s :: ss, rest)

/-- Reads a string whose opening quote has been passed. -/
def string (rest : Text) : Except Stop (Text × Text) := symbols (.char '"' :: rest) rest

/-! ## Numbers -/

/-- The parts of a number as it is written, digits by their values. -/
structure Numeral where
  negative : Bool
  whole : List Nat
  fraction : List Nat
  exponent : Option (Bool × List Nat)
  deriving Repr

/-- The whole part: a single zero, or digits that start with no zero. -/
def whole? (t : Text) : Option (List Nat × Text) :=
  match t with
  | .char '0' :: rest => some ([0], rest)
  | _ =>
    match Text.spanDigits t with
    | ([], _) => none
    | r => some r

/-- The fraction, if a digit follows the point. -/
def fraction (t : Text) : List Nat × Text :=
  match t with
  | .char '.' :: rest =>
    match Text.spanDigits rest with
    | ([], _) => ([], t)
    | r => r
  | _ => ([], t)

/-- An optional sign. -/
def sign : Text → Bool × Text
  | .char '-' :: rest => (true, rest)
  | .char '+' :: rest => (false, rest)
  | t => (false, t)

/-- The exponent, if a digit follows its letter and sign. -/
def exponent (t : Text) : Option (Bool × List Nat) × Text :=
  match t with
  | e :: rest =>
    if e = .char 'e' || e = .char 'E' then
      let (negative, ds) := sign rest
      match Text.spanDigits ds with
      | ([], _) => (none, t)
      | (digits, rest) => (some (negative, digits), rest)
    else (none, t)
  | [] => (none, [])

/-- The longest number at the start of the text. -/
def numeral? (t : Text) : Option (Numeral × Text) := do
  let (negative, t) := match t with
    | .char '-' :: rest => (true, rest)
    | _ => (false, t)
  let (whole, t) ← whole? t
  let (fraction, t) := fraction t
  let (exponent, t) := exponent t
  return (⟨negative, whole, fraction, exponent⟩, t)

/-- The integer with a sign and a magnitude. -/
def signed (negative : Bool) (n : Nat) : Int := if negative then -(n : Int) else n

/-- The value of an exponent. -/
def exponentValue : Option (Bool × List Nat) → Int
  | none => 0
  | some (negative, ds) => signed negative (Text.ofDigits ds)

/-- The number that a fractional numeral denotes. -/
def real (negative : Bool) (whole fraction : List Nat) (exponent : Option (Bool × List Nat)) :
    Binary64 :=
  .ofDecimal negative (Text.ofDigits (whole ++ fraction))
    (exponentValue exponent - fraction.length)

/-- The value of a number: an integer if it has neither fraction nor exponent. -/
def Numeral.value (n : Numeral) : Except Stop Json :=
  match n.fraction, n.exponent with
  | [], none =>
    if maxDigits < n.whole.length then .error (.longInteger n.whole.length)
    else .ok (.int (signed n.negative (Text.ofDigits n.whole)))
  | fraction, exponent => .ok (.float (real n.negative n.whole fraction exponent))

/-! ## Values -/

/-- The words that are values. -/
def words : List (Text × Json) :=
  [("null", .null), ("true", .bool true), ("false", .bool false), ("NaN", .float .nan),
   ("Infinity", .float (.infinity false)), ("-Infinity", .float (.infinity true))]

/-- A word or a number. -/
def scalar (t : Text) : Except Stop (Json × Text) :=
  match words.find? fun w => w.1.isPrefixOf t with
  | some (w, v) => .ok (v, t.drop w.length)
  | none =>
    match numeral? t with
    | some (n, rest) => do
      let v ← n.value
      return (v, rest)
    | none => .error (.fault .expectingValue t)

mutual

/-- Reads one value with at most `levels` levels. The fuel bounds the nesting and the length of
arrays and objects. -/
def value : (fuel levels : Nat) → Text → Except Stop (Json × Text)
  | 0, _, t => .error (.fault .expectingValue t)
  | fuel + 1, levels, t =>
    match t, levels with
    | .char '"' :: rest, _ => do
      let (s, rest) ← string rest
      return (.string s, rest)
    | .char '[' :: _, 0 => .error (.tooDeep .array)
    | .char '[' :: rest, levels + 1 =>
      match skip rest with
      | .char ']' :: rest => .ok (.array [], rest)
      | rest => do
        let (items, rest) ← items fuel levels rest
        return (.array items, rest)
    | .char '\x7b' :: _, 0 => .error (.tooDeep .object)
    | .char '\x7b' :: rest, levels + 1 =>
      match skip rest with
      | .char '\x7d' :: rest => .ok (.object [], rest)
      | rest => do
        let (members, rest) ← members fuel levels rest
        return (ofMembers members, rest)
    | t, _ => scalar t

/-- Reads the items of an array from the first one up to the closing bracket. -/
def items : (fuel levels : Nat) → Text → Except Stop (List Json × Text)
  | 0, _, t => .error (.fault .expectingValue t)
  | fuel + 1, levels, t => do
    let (v, rest) ← value fuel levels t
    match skip rest with
    | .char ']' :: rest => return ([v], rest)
    | .char ',' :: rest => do
      let (vs, rest) ← items fuel levels (skip rest)
      return (v :: vs, rest)
    | rest => .error (.fault .expectingComma rest)

/-- Reads the members of an object from the first one up to the closing brace. -/
def members : (fuel levels : Nat) → Text → Except Stop (List (Text × Json) × Text)
  | 0, _, t => .error (.fault .expectingValue t)
  | fuel + 1, levels, t =>
    match t with
    | .char '"' :: rest => do
      let (key, rest) ← string rest
      match skip rest with
      | .char ':' :: rest => do
        let (v, rest) ← value fuel levels (skip rest)
        match skip rest with
        | .char '\x7d' :: rest => return ([(key, v)], rest)
        | .char ',' :: rest => do
          let (ms, rest) ← members fuel levels (skip rest)
          return ((key, v) :: ms, rest)
        | rest => .error (.fault .expectingComma rest)
      | rest => .error (.fault .expectingColon rest)
    | t => .error (.fault .expectingName t)

end

/-- Reads a whole document. -/
def document (levels : Nat) (t : Text) : Except Stop Json :=
  match t with
  | .char '\ufeff' :: _ => .error (.fault .byteOrderMark t)
  | _ => do
    let (v, rest) ← value (2 * t.length + 2) levels (skip t)
    match skip rest with
    | [] => return v
    | rest => .error (.fault .extraData rest)

end Reader

/-- The value of a text with at most `levels` levels, or its first error. -/
def read (levels : Nat) (t : Text) : Except ReadError Json :=
  (Reader.document levels t).mapError (Stop.locate t)

end Registrar.Json
