import Registrar.Error
import Registrar.Json.Writer

/-!
# Payload values

What a codec gives and takes is a `Value`: JSON data, bytes, tuples, sets, and maps with keys of any
kind. `Value.ofJson` embeds JSON data; `Value.toJson` goes back, where tuples become arrays and keys
become strings, and refuses what JSON cannot hold and integers that are too long. Numbers and truth
values that are equal are the same key of a map.
-/

namespace Registrar

/-- A value outside its encoded form. -/
inductive Value where
  | null
  | bool (b : Bool)
  | int (n : Int)
  | float (x : Binary64)
  | string (s : Text)
  | bytes (bs : Bytes)
  | list (items : List Value)
  | tuple (items : List Value)
  | set (items : List Value)
  | map (entries : List (Value × Value))
  deriving Repr

namespace Value

/-- A map with the given ordinary keys. -/
def record (members : List (String × Value)) : Value := 
  .map (members.map fun m => (.string m.1, m.2))

/-- A list of natural numbers. -/
def numbers (ns : List Nat) : Value := .list (ns.map fun n : Nat => .int n)

/-- The name of a value's type in messages. -/
def typeName : Value → String
  | .null => "NoneType"
  | .bool _ => "bool"
  | .int _ => "int"
  | .float _ => "float"
  | .string _ => "str"
  | .bytes _ => "bytes"
  | .list _ => "list"
  | .tuple _ => "tuple"
  | .set _ => "set"
  | .map _ => "dict"

/-! ## JSON data -/

mutual

/-- JSON data as a value. -/
def ofJson : Json → Value
  | .null => .null
  | .bool b => .bool b
  | .int n => .int n
  | .float x => .float x
  | .string s => .string s
  | .array items => .list (ofItems items)
  | .object members => .map (ofMembers members)

def ofItems : List Json → List Value
  | [] => []
  | v :: vs => ofJson v :: ofItems vs

def ofMembers : List (Text × Json) → List (Value × Value)
  | [] => []
  | (k, v) :: ms => (.string k, ofJson v) :: ofMembers ms

end

/-- The integer, if it has no more digits than are written. -/
def writable (n : Int) : Except ForeignError Int :=
  if (Nat.toDigits 10 n.natAbs).length ≤ Json.maxDigits then .ok n else .error .longInteger

/-- The string that stands for a key. -/
def keyText : Value → Except ForeignError Text
  | .string s => .ok s
  | .null => .ok "null"
  | .bool true => .ok "true"
  | .bool false => .ok "false"
  | .int n => (writable n).map fun n => toString n
  | .float x => .ok (x.text Binary64.documentSpelling)
  | v => .error ⟨.type, "keys must be str, int, float, bool or None, not " ++ v.typeName⟩

/-- A value of a type that JSON lacks. -/
def noJson (v : Value) : ForeignError :=
  ⟨.type, "Object of type " ++ v.typeName ++ " is not JSON serializable"⟩

mutual

/-- A value as JSON data. A map may have keys that become the same string; all are kept. -/
def toJson : Value → Except ForeignError Json
  | .null => .ok .null
  | .bool b => .ok (.bool b)
  | .int n => (writable n).map .int
  | .float x => .ok (.float x)
  | .string s => .ok (.string s)
  | .list items => (toItems items).map .array
  | .tuple items => (toItems items).map .array
  | .map entries => (toMembers entries).map .object
  | .bytes bs => .error (noJson (.bytes bs))
  | .set items => .error (noJson (.set items))

def toItems : List Value → Except ForeignError (List Json)
  | [] => .ok []
  | v :: vs => do
    let j ← toJson v
    let js ← toItems vs
    return j :: js

def toMembers : List (Value × Value) → Except ForeignError (List (Text × Json))
  | [] => .ok []
  | (k, v) :: es => do
    let key ← keyText k
    let j ← toJson v
    let ms ← toMembers es
    return (key, j) :: ms

end

/-! ## Keys -/

/-- The number that a value is when it serves as a key. -/
inductive KeyNumber where
  | int (n : Int)
  | float (x : Binary64)

def keyNumber? : Value → Option KeyNumber
  | .bool b => some (.int (if b then 1 else 0))
  | .int n => some (.int n)
  | .float x => some (.float x)
  | _ => none

/-- Whether two numbers are the same key: they are equal, or both are no number. -/
def KeyNumber.agrees : KeyNumber → KeyNumber → Bool
  | .int n, .int m => n = m
  | .float x, .float y => x = y || x.agrees y
  | .int n, .float x => x.toInt? = some n
  | .float x, .int n => x.toInt? = some n

mutual

/-- Whether two values are the same key. -/
def sameKey : Value → Value → Bool
  | .null, .null => true
  | .string s, .string t => s = t
  | .bytes a, .bytes b => a = b
  | .tuple a, .tuple b => sameKeys a b
  | a, b =>
    match keyNumber? a, keyNumber? b with
    | some m, some n => m.agrees n
    | _, _ => false

def sameKeys : List Value → List Value → Bool
  | [], [] => true
  | a :: as, b :: bs => sameKey a b && sameKeys as bs
  | _, _ => false

end

mutual

/-- The value that prevents another one from being a key. -/
def notKey? : Value → Option Value
  | .list items => some (.list items)
  | .set items => some (.set items)
  | .map entries => some (.map entries)
  | .tuple items => anyNotKey? items
  | _ => none

def anyNotKey? : List Value → Option Value
  | [] => none
  | v :: vs => (notKey? v).or (anyNotKey? vs)

end

/-- A value that is a key. -/
def asKey (v : Value) : Except ForeignError Value :=
  match notKey? v with
  | none => .ok v
  | some w => .error ⟨.type, "unhashable type: '" ++ w.typeName ++ "'"⟩

/-- Sets the value at a key; an equal key keeps its place and its form. -/
def putEntry (k v : Value) : List (Value × Value) → List (Value × Value)
  | [] => [(k, v)]
  | (k', v') :: es => if sameKey k' k then (k', v) :: es else (k', v') :: putEntry k v es

/-- Adds an entry to those of a map. -/
def addEntry (es : List (Value × Value)) (k v : Value) :
    Except ForeignError (List (Value × Value)) := do
  return putEntry (← asKey k) v es

/-- Adds a member to those of a set, which holds each one once. -/
def addElement (items : List Value) (v : Value) : Except ForeignError (List Value) := do
  let v ← asKey v
  return if items.any (sameKey · v) then items else items ++ [v]

end Value

end Registrar
