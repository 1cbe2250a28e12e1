import Registrar.Json.Basic
import Registrar.Number.Shortest
import Registrar.Text.Quoted

/-!
# JSON values in messages

A message shows a value on one line, with its strings quoted and a space after every separator.
Where a value becomes part of a sentence a string is taken as it is.
-/

namespace Registrar.Json

mutual

/-- The value as messages show it. -/
def shown : Json → String
  | .null => "None"
  | .bool b => Text.truth b
  | .int n => toString n
  | .float x => x.text Binary64.plainSpelling
  | .string t => Text.quoted t
  | .array items => "[" ++ String.intercalate ", " (shownItems items) ++ "]"
  | .object members => "\x7b" ++ String.intercalate ", " (shownMembers members) ++ "\x7d"

def shownItems : List Json → List String
  | [] => []
  | v :: vs => shown v :: shownItems vs

def shownMembers : List (Text × Json) → List String
  | [] => []
  | (k, v) :: ms => (Text.quoted k ++ ": " ++ shown v) :: shownMembers ms

end

/-- The value as part of a sentence. -/
def spoken : Json → Text
  | .string t => t
  | v => v.shown

/-- The name of a value's type in messages. -/
def typeName : Json → String
  | .null => "NoneType"
  | .bool _ => "bool"
  | .int _ => "int"
  | .float _ => "float"
  | .string _ => "str"
  | .array _ => "list"
  | .object _ => "dict"

end Registrar.Json
