import Registrar.Routine

/-!
# Loading into the resolution cache

`Cache.getOrLoad` gives the resolution at a slot and runs a loader where there is none. Callers for
the same slot wait for each other, so one loader at a time runs for it, and those who waited find
what it left. A schema is kept; an error is kept as a copy that says so, unless a retry may cure it
and such errors are not kept; anything else leaves the slot as it was.
-/

namespace Registrar.Cache

variable {I : Interface}

def logger : Text := "kafka_schema_registry.cache.cache"

/-- A routine that resolves. -/
abbrev Loader (I : Interface) := Routine I RegisteredSchema

/-- What is kept at a slot: the schema, or its error again. -/
def replay (s : Slot) : Routine I (Option RegisteredSchema) := do
  match (← Routine.current).cache.find? s with
  | none => return none
  | some (.schema x) =>
    Routine.mark (.lookup s.map .hit)
    return some x
  | some (.error e) =>
    Routine.mark (.lookup s.map .errorHit)
    Routine.fail e

/-- Changes the tables and gives them as they were. -/
def change (f : Cache → Cache) : Routine I Cache := do
  return (← Routine.update fun s => { s with cache := f s.cache }).cache

/-- Becomes a user of the lock of a slot. -/
def enter (s : Slot) : Routine I LockId := do
  return (← change (·.join s)).lockOf s

/-- Ceases to be a user of the lock of a slot. -/
def leave (s : Slot) : Routine I Unit := do
  let c ← change fun c => (c.leave? s).getD c
  if (c.leave? s).isNone then Routine.failForeign ⟨.key, s.map.name⟩

/-- Whether an error is kept. -/
def keeps (c : Cache) (e : ResolutionError) : Bool := c.keepRetriable || !e.retriable

/-- Keeps the error of a loader, or not. -/
def storeError (s : Slot) (e : ResolutionError) : Routine I Unit := do
  Routine.mark (.failure e.category)
  if (← Routine.current).cache.keeps e then
    let _ ← change (·.store s (.error e.intoCache))
    Routine.note logger Level.debug "Cached resolution error"
      [("cache", .string s.map.name), ("retriable", .bool e.retriable),
       ("error_message", .string e.message)]
  else
    Routine.note logger Level.debug "Not caching retriable error"
      [("cache", .string s.map.name), ("error_message", .string e.message)]

/-- Keeps how a loader ended, and ends so. -/
def record (s : Slot) : Except Failure RegisteredSchema → Routine I RegisteredSchema
  | .ok x => do
    let _ ← change (·.store s (.schema x))
    return x
  | .error f => do
    if let .resolution e := f then storeError s e
    throw f

/-- Runs a loader and keeps how it ended. -/
def load (s : Slot) (loader : Loader I) : Routine I RegisteredSchema := do
  Routine.mark (.lookup s.map .miss)
  record s (← Routine.attempt loader)

/-- Gives what is kept at a slot, else what the loader gives. -/
def replayOrLoad (s : Slot) (loader : Loader I) : Routine I RegisteredSchema := do
  match ← replay s with
  | some x => return x
  | none => load s loader

/-- The resolution at a slot. -/
def getOrLoad (s : Slot) (loader : Loader I) : Routine I RegisteredSchema := do
  match ← replay s with
  | some x => return x
  | none =>
    let lock ← enter s
    Routine.ensuring (Routine.holding lock (replayOrLoad s loader)) (leave s)

/-- The resolution at a key of the map with the given name. -/
def getOrLoadIn (map : Text) (key : Key) (loader : Loader I) : Routine I RegisteredSchema :=
  match CacheMap.ofName? map with
  | some m => getOrLoad ⟨m, key⟩ loader
  | none => Routine.failForeign ⟨.key, map⟩

/-- Drops every error and gives the number of those dropped. -/
def removeErrors : Routine I Nat := do
  let n := (← change dropErrors).errorCount
  if n ≠ 0 then Routine.note logger Level.info "Removed cached errors" [("removed", .int n)]
  return n

end Registrar.Cache
