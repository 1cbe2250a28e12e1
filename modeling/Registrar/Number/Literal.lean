import Registrar.Json.Reader
import Registrar.Number.Shortest
import Registrar.Text.Quoted

/-!
# Numbers in settings

A number in a setting may be surrounded by blanks, carry a sign, use the decimal digits of any
script and group its digits by single underscores. An integer may start with zeros; a real number
may lack the digits on one side of its point, and `inf`, `infinity` and `nan` are accepted in any
case.
-/

namespace Registrar

/-- A number that is an integer or a real. -/
inductive Number where
  | int (n : Int)
  | float (x : Binary64)
  deriving DecidableEq, Repr

def Number.text : Number → String
  | .int n => toString n
  | .float x => x.text Binary64.plainSpelling

namespace Literal

open Json.Reader (sign signed exponent real)

def isDigit (s : Symbol) : Bool := (Text.plainDigit? s).isSome

/-- Removes the underscores, each of which stands between two digits. -/
def ungroup (before : Symbol) : Text → Option Text
  | [] => some []
  | .char '_' :: s :: rest =>
    if isDigit before && isDigit s then (ungroup s rest).map (s :: ·) else none
  | .char '_' :: [] => none
  | s :: rest => (ungroup s rest).map (s :: ·)

/-- The text with plain digits, without the blanks around it. -/
def tidy (t : Text) : Text := Text.trimBy (·.satisfies Text.isBlank) (Text.plain t)

/-! ## Reals -/

/-- The value of an unsigned decimal with an optional point and exponent. -/
def decimal? (negative : Bool) (t : Text) : Option Binary64 :=
  let (whole, t) := Text.spanDigits t
  let (fraction, t) := match t with
    | .char '.' :: rest => Text.spanDigits rest
    | t => ([], t)
  match whole ++ fraction, exponent t with
  | _ :: _, (e, []) => some (real negative whole fraction e)
  | _, _ => none

/-- The real number that a text denotes. -/
def real? (t : Text) : Option Binary64 := do
  let t ← ungroup (.char ' ') (tidy t)
  let (negative, t) := sign t
  let word := t.map (·.map Char.toLower)
  if word = Text.ofString "inf" || word = Text.ofString "infinity" then some (.infinity negative)
  else if word = Text.ofString "nan" then some .nan
  else decimal? negative t

def realMessage (t : Text) : String := "could not convert string to float: " ++ Text.quoted t

/-! ## Integers -/

/-- Why a text denotes no integer. -/
inductive IntRefusal where
  | malformed
  | tooLong (digits : Nat)
  deriving DecidableEq, Repr

/-- The most characters of the quoted text that the message of a malformed integer shows. -/
def shownLength : Nat := 200

def IntRefusal.message (t : Text) : IntRefusal → String
  | .malformed =>
    "invalid literal for int() with base 10: " ++
      String.ofList ((Text.quoted t).toList.take shownLength)
  | .tooLong digits => Json.longIntegerMessage digits

/-- The integer that a text denotes. The digits at the start are counted before what follows them
is looked at. -/
def int (t : Text) : Except IntRefusal Int :=
  let (negative, t) := sign (tidy t)
  let grouped := t.takeWhile fun s => isDigit s || s = .char '_'
  match (ungroup (.char ' ') grouped).map fun ds => (Text.spanDigits ds).1 with
  | none | some [] => .error .malformed
  | some ds =>
    if Json.maxDigits < ds.length then .error (.tooLong ds.length)
    else if grouped.length ≠ t.length then .error .malformed
    else .ok (signed negative (Text.ofDigits ds))

end Literal

end Registrar
