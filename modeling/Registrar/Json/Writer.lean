import Registrar.Json.Basic
import Registrar.Number.Shortest

/-!
# Writing JSON documents

A document consists of ASCII characters: every character from `7f` up is written as `\uXXXX` with
lower-case digits, those beyond `ffff` as a pair of surrogates. The separators between items and
between a key and its value are the only choice of layout.
-/

namespace Registrar.Json

/-- The separators of a document. -/
structure Layout where
  comma : List Char
  colon : List Char

/-- A space after each separator. -/
def spaced : Layout := ⟨", ".toList, ": ".toList⟩

/-- No spaces. -/
def compact : Layout := ⟨",".toList, ":".toList⟩

/-! ## Strings -/

/-- A lower-case hexadecimal digit. -/
def hexDigit (n : Nat) : Char :=
  if n < 10 then Char.ofNat (0x30 + n) else Char.ofNat (0x61 + (n - 10))

/-- The escape of a sixteen-bit code unit. -/
def unitEscape (n : Nat) : List Char :=
  ['\\', 'u', hexDigit (n / 4096 % 16), hexDigit (n / 256 % 16), hexDigit (n / 16 % 16),
    hexDigit (n % 16)]

def escapeChar (c : Char) : List Char :=
  if c = '"' then ['\\', '"']
  else if c = '\\' then ['\\', '\\']
  else if c = '\n' then ['\\', 'n']
  else if c = '\r' then ['\\', 'r']
  else if c = '\t' then ['\\', 't']
  else if c = '\x08' then ['\\', 'b']
  else if c = '\x0c' then ['\\', 'f']
  else if 0x20 ≤ c.toNat && c.toNat < 0x7f then [c]
  else if c.toNat < 0x10000 then unitEscape c.toNat
  else
    let n := c.toNat - 0x10000
    unitEscape (0xd800 + n / 1024) ++ unitEscape (0xdc00 + n % 1024)

def escape : Symbol → List Char
  | .char c => escapeChar c
  | .surrogate u => unitEscape (0xd800 + u.val)

/-- A string between its quotes. -/
def writeText (t : Text) : List Char := '"' :: t.flatMap escape ++ ['"']

/-! ## Values -/

mutual

/-- The characters of a value. -/
def write (l : Layout) : Json → List Char
  | .null => "null".toList
  | .bool true => "true".toList
  | .bool false => "false".toList
  | .int n => (toString n).toList
  | .float x => (x.text Binary64.documentSpelling).toList
  | .string s => writeText s
  | .array [] => ['[', ']']
  | .array (v :: vs) => '[' :: write l v ++ writeItems l vs
  | .object [] => ['\x7b', '\x7d']
  | .object ((k, v) :: ms) => '\x7b' :: writeText k ++ l.colon ++ write l v ++ writeMembers l ms

/-- The further items of an array and its closing bracket. -/
def writeItems (l : Layout) : List Json → List Char
  | [] => [']']
  | v :: vs => l.comma ++ write l v ++ writeItems l vs

/-- The further members of an object and its closing brace. -/
def writeMembers (l : Layout) : List (Text × Json) → List Char
  | [] => ['\x7d']
  | (k, v) :: ms => l.comma ++ writeText k ++ l.colon ++ write l v ++ writeMembers l ms

end

/-- The text of a value. -/
def render (l : Layout) (v : Json) : String := String.ofList (write l v)

end Registrar.Json
