import Registrar.Json.Reader
import Registrar.Text.Blank

/-!
# Integers in loose text

An integer in a document may be given as text. `Loose.plain` reads the plain form: an optional minus
sign and digits, the first of which is a zero only if it is the only one. `Loose.tidy` makes a
looser form plain: it drops the blanks around the text, a plus sign, zeros in front, a fraction of
zeros, and underscores each of which stands alone inside the text. The zeros in front go with the
underscores among them and end at another digit, at a minus sign or at a point; what is left there
has to be plain again.
-/

namespace Registrar.Loose

/-- Why a text denotes no integer. -/
inductive Refusal where
  | malformed
  /-- The plain form has too many digits. -/
  | tooLong
  deriving DecidableEq, Repr

/-- The integer of which the text is the plain form. The digits at its start are
counted before what follows them is looked at. -/
def plain (t : Text) : Except Refusal Int :=
  let (negative, unsigned) := match t with
    | .char '-' :: rest => (true, rest)
    | _ => (false, t)
  match Text.spanDigits unsigned with
  | ([0], []) => .ok 0
  | ([], _) | (0 :: _, _) => .error .malformed
  | (ds, rest) =>
    if Json.maxDigits < ds.length then .error .tooLong
    else if rest.isEmpty then .ok (Json.Reader.signed negative (Text.ofDigits ds))
    else .error .malformed

/-! ## Tidying -/

/-- What follows zeros and underscores, the last of which is `last`: it is kept in front of a point,
and when nothing follows. -/
def afterZeros (last : Symbol) : Text → Option Text
  | [] => some [last]
  | s :: rest =>
    if s = .char '0' || s = .char '_' then afterZeros s rest
    else if s = .char '-' || (Text.plainDigit? s).isSome then some (s :: rest)
    else if s = .char '.' then some (last :: s :: rest)
    else none

/-- Drops the zeros in front; the text starts with a digit or a minus sign. -/
def dropZeros : Text → Option Text
  | [] => none
  | s :: rest =>
    if s = .char '0' then afterZeros s rest
    else if s = .char '-' || (Text.plainDigit? s).isSome then some (s :: rest)
    else none

/-- Drops a point and the zeros after it. -/
def dropFraction (t : Text) : Text :=
  match t.dropWhile (· ≠ .char '.') with
  | _ :: s :: zeros =>
    if (s :: zeros).all (· = .char '0') then t.takeWhile (· ≠ .char '.') else t
  | _ => t

/-- Drops the underscores if none is at an end and no two are side by side. -/
def dropGroups (t : Text) : Text :=
  let bar : Symbol := .char '_'
  if t.head? = some bar || t.getLast? = some bar ||
      (t.zip (t.drop 1)).any (fun p => p.1 = bar && p.2 = bar) then t
  else t.filter (· ≠ bar)

/-- The plain form of an unsigned number. -/
def tidyUnsigned (t : Text) : Option Text := (dropZeros t).map (dropGroups <| dropFraction ·)

/-- The plain form of a number. -/
def tidy (t : Text) : Option Text :=
  match Text.trimBy (·.satisfies Text.isBlank) t with
  | .char '+' :: .char '-' :: _ => none
  | .char '+' :: rest => tidyUnsigned rest
  | .char '-' :: rest => (tidyUnsigned rest).map (.char '-' :: ·)
  | t => tidyUnsigned t

/-- The integer that a text denotes. -/
def read (t : Text) : Except Refusal Int :=
  match plain t with
  | .error .malformed =>
    match (tidy t).map plain with
    | some (.ok n) => .ok n
    | _ => .error .malformed
  | r => r

end Registrar.Loose
