import Registrar.Text.Basic
import Registrar.Text.Printable

/-!
# Quoted text

A text is shown between single quotes, or between double quotes when it holds a single quote and no
double one. Inside, the quote in use and the backslash are escaped, line feed, carriage return and
tab have short escapes, and any other character that is not printable is given by its code point in
the shortest of the forms `\xHH`, `\uHHHH` and `\UHHHHHHHH`. So are the surrogates.
-/

namespace Registrar.Text.Quoted

/-- The hexadecimal digits of `n`, filled with zeros up to `width`. -/
def hex (width n : Nat) : List Char :=
  let digits := Nat.toDigits 16 n
  List.replicate (width - digits.length) '0' ++ digits

/-- The quote to use. -/
def quoteFor (t : Text) : Char :=
  if t.contains (.char '\'') && !t.contains (.char '"') then '"' else '\''

/-- The code point of a symbol that is not shown itself. -/
def escapeCode (n : Nat) : List Char :=
  if n < 0x100 then '\\' :: 'x' :: hex 2 n
  else if n < 0x10000 then '\\' :: 'u' :: hex 4 n
  else '\\' :: 'U' :: hex 8 n

def escape (quote : Char) : Symbol → List Char
  | .surrogate u => escapeCode (0xd800 + u.val)
  | .char c =>
    if c = quote || c = '\\' then ['\\', c]
    else if c = '\n' then ['\\', 'n']
    else if c = '\r' then ['\\', 'r']
    else if c = '\t' then ['\\', 't']
    else if isPrintable c then [c]
    else escapeCode c.toNat

end Quoted

/-- The quoted form of a text, which is ordinary text. -/
def quoted (t : Text) : String :=
  let q := Quoted.quoteFor t
  String.ofList (q :: t.flatMap (Quoted.escape q) ++ [q])

/-- The quoted form of a text that may be absent. -/
def quotedOption : Option Text → String
  | none => "None"
  | some t => quoted t

/-- The two truth values as they appear in messages. -/
def truth : Bool → String
  | true => "True"
  | false => "False"

end Registrar.Text
