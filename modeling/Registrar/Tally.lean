import Registrar.Cache.Basic
import Registrar.Error

/-!
# The tally

Requests, lookups in the resolution cache and errors leave marks. A counter is the number of marks
of one kind.
-/

namespace Registrar

/-- The two kinds of requests. -/
inductive Verb where
  | get
  | post
  deriving DecidableEq, Repr

def Verb.name : Verb → String
  | .get => "GET"
  | .post => "POST"

/-- The verb inside a sentence. -/
def Verb.word : Verb → String
  | .get => "get"
  | .post => "post"

/-- How a request ended. -/
inductive RequestEnd where
  | status (code : Int)
  | transportError
  deriving DecidableEq, Repr

def RequestEnd.name : RequestEnd → String
  | .status code => toString code
  | .transportError => "transport_error"

/-- How a lookup in the resolution cache ended. -/
inductive LookupEnd where
  | hit
  | errorHit
  | miss
  deriving DecidableEq, Repr

def LookupEnd.name : LookupEnd → String
  | .hit => "hit"
  | .errorHit => "error_hit"
  | .miss => "miss"

/-- One mark: its counter and the labels under which it counts. -/
inductive Mark where
  | request (verb : Verb) (ending : RequestEnd)
  | duration (verb : Verb)
  | lookup (map : CacheMap) (ending : LookupEnd)
  | failure (category : Category)
  deriving DecidableEq, Repr

/-- The counter that counts a mark. -/
def Mark.counter : Mark → String
  | .request _ _ => "requests"
  | .duration _ => "durations"
  | .lookup _ _ => "lookups"
  | .failure _ => "errors"

/-- The labels under which a mark counts. -/
def Mark.labels : Mark → List String
  | .request verb ending => [verb.name, ending.name]
  | .duration verb => [verb.name]
  | .lookup map ending => [map.name, ending.name]
  | .failure category => [category.name]

/-- The marks in the order in which they were made. -/
abbrev Tally := List Mark

namespace Tally

def add (t : Tally) (m : Mark) : Tally := t ++ [m]

end Tally

end Registrar
