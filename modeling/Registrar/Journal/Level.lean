import Registrar.Error
import Registrar.Json.Shown

/-!
# Levels

A level says how much a record matters: it is a number, or a truth value that stays one wherever
the level is shown. Callers give levels in their own ways: a record takes a level, a logger takes a
level or a name, and either one tells a caller what it does not take.
-/

namespace Registrar

/-- How much a record matters. -/
inductive Level where
  | number (n : Int)
  | truth (b : Bool)
  deriving DecidableEq, Repr

namespace Level

/-- The number by which levels are compared; true ranks as one and false as zero. -/
def rank : Level → Int
  | .number n => n
  | .truth b => if b then 1 else 0

def unset : Level := .number 0

def debug : Level := .number 10

def info : Level := .number 20

def warning : Level := .number 30

def error : Level := .number 40

def critical : Level := .number 50

/-- The levels that have names. -/
def named : List (String × Level) :=
  [("CRITICAL", critical), ("FATAL", critical), ("ERROR", error), ("WARN", warning),
   ("WARNING", warning), ("INFO", info), ("DEBUG", debug), ("NOTSET", unset)]

end Level

/-! ## Given levels -/

/-- How a caller gives a level. -/
inductive LevelChoice where
  | level (l : Level)
  | name (t : Text)
  /-- A value that is no level. -/
  | other (v : Json)
  deriving Repr

namespace LevelChoice

/-- The level that a value gives. -/
def ofJson : Json → LevelChoice
  | .int n => .level (.number n)
  | .bool b => .level (.truth b)
  | .string t => .name t
  | v => .other v

instance : Coe Level LevelChoice := ⟨level⟩

/-- The level of a record, which is not given by name. -/
def forRecord : LevelChoice → Except ForeignError Level
  | .level l => .ok l
  | _ => .error ⟨.type, "level must be an integer"⟩

/-- The level of a logger, which may be given by name. -/
def forLogger : LevelChoice → Except ForeignError Level
  | .level l => .ok l
  | .name t =>
    match Level.named.find? fun p => Text.ofString p.1 = t with
    | some p => .ok p.2
    | none => .error ⟨.value, "Unknown level: " ++ Text.quoted t⟩
  | .other v => .error ⟨.type, "Level not an integer or a valid string: " ++ v.shown⟩

end LevelChoice

end Registrar
