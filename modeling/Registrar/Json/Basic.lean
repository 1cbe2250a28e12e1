import Registrar.Assoc
import Registrar.Number.Binary64
import Registrar.Text.Basic

/-!
# JSON values

Integers and floating-point numbers are kept apart. An object lists its members in order and has
each key once: `Json.ofMembers` keeps the first position and the last value of a repeated key.
-/

namespace Registrar

/-! ## Values -/

/-- A JSON value. -/
inductive Json where
  | null
  | bool (b : Bool)
  | int (n : Int)
  | float (x : Binary64)
  | string (s : Text)
  | array (items : List Json)
  | object (members : List (Text × Json))
  deriving Repr

instance : Inhabited Json := ⟨.null⟩

namespace Json

/-- An object from members in writing order. -/
def ofMembers (members : Assoc Text Json) : Json :=
  .object (members.foldl (fun acc m => Assoc.put m.1 m.2 acc) [])

/-- An object with the given ordinary keys. -/
def record (members : List (String × Json)) : Json :=
  .object (members.map fun m => (Text.ofString m.1, m.2))

/-- Whether a value counts as true: null, zero and what is empty do not. -/
def isTrue : Json → Bool
  | .null => false
  | .bool b => b
  | .int n => n ≠ 0
  | .float x => !x.agrees (Binary64.zero false)
  | .string t => !t.isEmpty
  | .array items => !items.isEmpty
  | .object members => !members.isEmpty

/-- The value of the member with the key. -/
def member? (members : Assoc Text Json) (key : String) : Option Json :=
  Assoc.get? (Text.ofString key) members

end Json

end Registrar
