import Registrar.Routine

/-!
# Instances that leave records

An instance may leave records by itself: some of its attributes are among their fields. Its logger
is named after its module and its component. An attribute `_logger` takes the place of that logger:
an empty one leaves the operations of the instance to the logger of the module, and any other value
is no logger, so that no operation of the instance can end well.
-/

namespace Registrar

/-- An instance of a class. -/
structure Instance where
  /-- The name of its class. -/
  type : Text
  /-- The name of the module of its class. -/
  module : Text
  /-- The part of the module that its records name, if any. -/
  component : Text
  /-- Whether its class can leave records by itself. -/
  recording : Bool
  attributes : Fields
  deriving Repr

namespace Instance

variable {I : Interface} {α : Type}

/-- What stands in the place of the logger. -/
def ownLogger? (i : Instance) : Option Json := i.attributes.get? "_logger"

/-- The name of the logger. -/
def logger (i : Instance) : Text :=
  if i.recording && !i.component.isEmpty && i.ownLogger?.isNone then i.module ++ "." ++ i.component
  else i.module

/-- The error of a value that is no logger. -/
def noLogger (v : Json) : ForeignError := .lacking v.typeName "log"

/-- Leaves a record with the attributes that count among its fields. -/
def note (i : Instance) (level : LevelChoice) (message : Text) (fields : Fields) :
    Routine I Unit :=
  match i.attributes.get? "_log" with
  | some v => Routine.failForeign ⟨.type, "'" ++ v.typeName ++ "' object is not callable"⟩
  | none => do
    if !i.recording then Routine.failForeign (.lacking i.type "_log")
    match i.ownLogger? with
    | none => Routine.write fun j => j.logOwn i.logger i.attributes level message fields
    | some v =>
      Routine.write fun j => (LogCall.checkOwn i.attributes fields).map fun _ => j
      Routine.failForeign (noLogger v)

/-- Runs an operation that is recorded under its name. -/
def operation (i : Instance) (name : Text) (level : LevelChoice) (start : Bool)
    (body : Routine I α) : Routine I α :=
  match i.ownLogger?.filter Json.isTrue with
  | some v => Routine.failForeign (noLogger v)
  | none => Routine.logged ⟨i.logger, i.type ++ "." ++ name, level, start⟩ body

end Instance

end Registrar
