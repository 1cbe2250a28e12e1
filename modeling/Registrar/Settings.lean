import Registrar.Error
import Registrar.Number.Literal
import Registrar.Text.Blank
import Registrar.Text.Lossless

/-!
# Settings

Where the registry is, how to log in, how long to wait, whether errors that a retry may cure are
kept in the resolution cache, and how deep references may be nested. The depth limit is an integer.
`Settings.make` removes the slashes at the end of the base URL and demands a depth limit of at least
one; `Settings.ofVariables` reads the settings from variables.
-/

namespace Registrar

/-- How to reach a registry and what to remember of its answers. -/
structure Settings where
  url : Text
  username : Option Text
  password : Option Text
  /-- The number of seconds after which a request is given up, if there is any. -/
  timeout : Option Number
  cacheRetriable : Bool
  maxDepth : Nat
  one_le_maxDepth : 1 ≤ maxDepth
  deriving Repr

namespace Settings

/-- Removes the slashes at the end. -/
def dropSlashes (url : Text) : Text := (url.reverse.dropWhile (· = .char '/')).reverse

def defaultTimeout : Number := .float (Binary64.ofDecimal false 30 0)

def defaultMaxDepth : Int := 32

/-- Settings from their values. -/
def make (url : Text) (username password : Option Text) (timeout : Option Number)
    (cacheRetriable : Bool) (maxDepth : Int) : Except ForeignError Settings :=
  if h : 1 ≤ maxDepth then
    .ok ⟨dropSlashes url, username, password, timeout, cacheRetriable, maxDepth.toNat, by omega⟩
  else .error ⟨.value, "max_reference_depth must be at least 1"⟩

/-! ## Variables -/

/-- Sets a variable. The system keeps its name and its value as bytes, none of which is zero, and
reads them back from the bytes; a name has no equality sign. -/
def setVariable (vars : Assoc Text Text) (name value : Text) :
    Except ForeignError (Assoc Text Text) := do
  let nameBytes ← name.toBytes.mapError .ofUnencodable
  let valueBytes ← value.toBytes.mapError .ofUnencodable
  if (nameBytes ++ valueBytes).contains 0 then throw ⟨.value, "embedded null byte"⟩
  if name.contains (.char '=') then throw ⟨.value, "illegal environment variable name"⟩
  return Assoc.put (Text.ofBytes nameBytes) (Text.ofBytes valueBytes) vars

/-- What the names of the variables of the settings start with. -/
def variablePrefix : Text := "SCHEMA_REGISTRY_"

/-- A variable that is empty counts as absent. -/
def nonempty (t : Option Text) : Option Text := t.filter (· ≠ [])

/-- The words that switch something on, in any case; no character beyond ASCII has one of their
letters as its lower case. -/
def isTrue (t : Text) : Bool :=
  let word := (Text.trimBy (·.satisfies Text.isSpacing) t).map (·.map Char.toLower)
  ["1", "true", "yes", "on"].any fun w => Text.ofString w = word

def realVariable (t : Text) : Except ForeignError Number :=
  match Literal.real? t with
  | some x => .ok (.float x)
  | none => .error ⟨.value, Literal.realMessage t⟩

def intVariable (t : Text) : Except ForeignError Int :=
  (Literal.int t).mapError fun r => ⟨.value, r.message t⟩

/-- Settings from variables. -/
def ofVariables (vars : Assoc Text Text) : Except ForeignError Settings := do
  let lookup (name : String) : Option Text := Assoc.get? (variablePrefix ++ name) vars
  match nonempty (lookup "URL") with
  | none => throw ⟨.value, "SCHEMA_REGISTRY_URL environment variable is required"⟩
  | some url =>
    let timeout ← realVariable ((lookup "TIMEOUT_SECONDS").getD "30")
    let cacheRetriable := isTrue ((lookup "CACHE_RETRIABLE_ERRORS").getD "true")
    let maxDepth ← intVariable ((lookup "MAX_REFERENCE_DEPTH").getD "32")
    make url (nonempty (lookup "USERNAME")) (nonempty (lookup "PASSWORD")) (some timeout)
      cacheRetriable maxDepth

end Settings

end Registrar
