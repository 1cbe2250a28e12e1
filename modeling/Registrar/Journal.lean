import Registrar.Journal.Level

/-!
# The journal

Operations leave records in a journal. A record has a logger, a level, a message and fields; it is
made only if its level ranks above zero and reaches the threshold. Some field names belong to every
record, others to the arguments of the operation that leaves it, and a caller who uses one of them
is refused.
-/

namespace Registrar

/-! ## Records -/

/-- The fields of a record in the order in which they were given. -/
abbrev Fields := Assoc Text Json

/-- The value of a field. -/
def Fields.get? (fields : Fields) (name : String) : Option Json :=
  Assoc.get? (Text.ofString name) fields

/-- Sets the value of a field. -/
def Fields.put (fields : Fields) (name : String) (value : Json) : Fields :=
  Assoc.put (Text.ofString name) value fields

/-- Adds the fields of `more`, which win. -/
def Fields.update (fields more : Fields) : Fields :=
  more.foldl (fun acc f => Assoc.put f.1 f.2 acc) fields

/-- The attributes of an instance that its records show. -/
def Fields.contextNames : List String := ["base_url", "subject", "schema_id"]

/-- The fields that tell which instance a record is about: of its attributes those that count and
are not null. -/
def Fields.context (attributes : Fields) : Fields :=
  contextNames.filterMap fun name =>
    match attributes.get? name with
    | none | some .null => none
    | some v => some (.ofString name, v)

/-- One record of the journal. -/
structure LogRecord where
  logger : Text
  level : Level
  message : Text
  /-- Whether the record carries an error with its trace. -/
  traced : Bool
  fields : Fields
  deriving Repr

/-- The records made so far, and the level from which records are made; one that ranks as zero
stands for `warning`. -/
structure Journal where
  threshold : Level
  records : List LogRecord
  deriving Repr

namespace Journal

/-- The field names that belong to every record. -/
def reserved : List String :=
  ["message", "asctime", "name", "msg", "args", "levelname", "levelno", "pathname", "filename",
   "module", "exc_info", "exc_text", "stack_info", "lineno", "funcName", "created", "msecs",
   "relativeCreated", "thread", "threadName", "processName", "process"]

/-- Whether records of a level are made. -/
def accepts (j : Journal) (level : Level) : Bool :=
  let least := if j.threshold.rank = 0 then Level.warning else j.threshold
  0 < level.rank && least.rank ≤ level.rank

/-- Appends a record whose field names are not reserved. -/
def note (j : Journal) (r : LogRecord) : Journal :=
  if j.accepts r.level then { j with records := j.records ++ [r] } else j

/-- Appends a record, unless it would be made and uses a reserved name. -/
def write (j : Journal) (r : LogRecord) : Except ForeignError Journal :=
  match r.fields.find? fun f => reserved.any fun name => Text.ofString name = f.1 with
  | some f =>
    if j.accepts r.level then
      .error ⟨.key, "Attempt to overwrite " ++ Text.quoted f.1 ++ " in LogRecord"⟩
    else .ok j
  | none => .ok (j.note r)

end Journal

/-! ## Failures in the journal -/

namespace Failure

/-- The most symbols of an error that a record shows. -/
def shownLength : Nat := 500

/-- The text of a failure, cut after `shownLength` symbols. -/
def excerpt (f : Failure) : Text :=
  if shownLength < f.describe.length then f.describe.take shownLength ++ "..." else f.describe

def category? : Failure → Option String
  | .resolution e => some e.category.name
  | .foreign e => e.category?
  | .cancelled => none

/-- Adds a field unless it is there. -/
def addMissing (fields : Fields) (name : String) (value : Json) : Fields :=
  if (fields.get? name).isSome then fields else fields.put name value

/-- The fields that describe a failure, added to those of the caller. The caller's category counts
unless it is null, the caller's flags count always, the text of the failure wins. -/
def describedFields (f : Failure) (fields : Fields) : Fields :=
  let given := match fields.get? "error_category" with
    | none | some .null => false
    | some _ => true
  let fields := match given, f.category? with
    | false, some c => fields.put "error_category" (.string c)
    | _, _ => fields
  let fields := match f with
    | .resolution e =>
      addMissing (addMissing fields "retriable" (.bool e.retriable)) "cached" (.bool e.cached)
    | _ => fields
  fields.put "error_message" (.string f.excerpt)

end Failure

/-! ## Leaving records -/

/-- An operation that leaves records: its name, and the arguments after which no field can be
named. -/
structure LogCall where
  name : String
  arguments : List String

namespace LogCall

/-- Leaves a record with fields. -/
def plain : LogCall := ⟨"log_with_context", ["logger", "level", "msg"]⟩

/-- Leaves a record of a failure. -/
def failure : LogCall := ⟨"log_exception", ["logger", "exc", "msg"]⟩

/-- Leaves a record with the attributes of an instance among its fields. -/
def own : LogCall := ⟨"LoggedClass._log", ["self", "level", "msg"]⟩

/-- Refuses fields one of which has the name of an argument. -/
def check (c : LogCall) (fields : Fields) : Except ForeignError Unit :=
  match fields.find? fun f => c.arguments.any fun name => Text.ofString name = f.1 with
  | some f =>
    .error ⟨.type, c.name ++ "() got multiple values for argument " ++ Text.quoted f.1⟩
  | none => .ok ()

/-- Refuses fields that clash when an instance with the attributes leaves a record. -/
def checkOwn (attributes fields : Fields) : Except ForeignError Unit := do
  own.check fields
  plain.check (Fields.update (Fields.context attributes) fields)

end LogCall

namespace Journal

/-- Leaves a record with fields. -/
def log (j : Journal) (logger : Text) (level : LevelChoice) (message : Text) (fields : Fields) :
    Except ForeignError Journal := do
  LogCall.plain.check fields
  j.write ⟨logger, ← level.forRecord, message, false, fields⟩

/-- Leaves a record of a failure, with or without its trace. -/
def logFailure (j : Journal) (logger : Text) (f : Failure) (message : Text) (level : LevelChoice)
    (traced : Bool) (fields : Fields) : Except ForeignError Journal := do
  LogCall.failure.check fields
  j.write ⟨logger, ← level.forRecord, message, traced, f.describedFields fields⟩

/-- Leaves a record with the attributes of an instance that count among its fields. -/
def logOwn (j : Journal) (logger : Text) (attributes : Fields) (level : LevelChoice)
    (message : Text) (fields : Fields) : Except ForeignError Journal := do
  LogCall.checkOwn attributes fields
  j.log logger level message (Fields.update (Fields.context attributes) fields)

end Journal

end Registrar
