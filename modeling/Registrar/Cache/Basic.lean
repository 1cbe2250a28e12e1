import Registrar.Assoc
import Registrar.Naming
import Registrar.Program

/-!
# The tables of the resolution cache

A resolution is a schema or the error with which looking it up ended. The cache keeps resolutions
in three maps, by identifier, by naming and by subject and version; a `Slot` is a key of one of the
maps. Beside the entries it keeps a lock for every slot that somebody is looking up, and the number
of those who hold the lock or wait for it: the lock is made when the first of them joins and is
forgotten when the last one leaves.
-/

namespace Registrar

/-! ## Slots -/

/-- The maps of the cache. -/
inductive CacheMap where
  | id
  | naming
  | reference
  deriving DecidableEq, Repr

def CacheMap.name : CacheMap → String
  | .id => "id"
  | .naming => "strategy"
  | .reference => "reference"

def CacheMap.ofName? (t : Text) : Option CacheMap :=
  [CacheMap.id, .naming, .reference].find? fun m => Text.ofString m.name = t

/-- A key of a map. -/
inductive Key where
  | number (n : Int)
  | naming (n : Naming)
  | version (subject : Text) (version : Nat)
  deriving DecidableEq, Repr

/-- A place for one resolution. -/
structure Slot where
  map : CacheMap
  key : Key
  deriving DecidableEq, Repr

namespace Slot

def ofId (id : Int) : Slot := ⟨.id, .number id⟩

def ofNaming (n : Naming) : Slot := ⟨.naming, .naming n⟩

/-- The name by which a schema refers to a reference plays no part. -/
def ofReference (r : RegisteredReference) : Slot := ⟨.reference, .version r.subject r.version⟩

end Slot

/-! ## Tables -/

/-- A resolution. -/
inductive Entry where
  | schema (s : RegisteredSchema)
  | error (e : ResolutionError)
  deriving DecidableEq, Repr

def Entry.isError : Entry → Bool
  | .schema _ => false
  | .error _ => true

/-- The tables of a cache. -/
structure Cache where
  /-- Whether errors that a retry may cure are kept. -/
  keepRetriable : Bool
  entries : Assoc Slot Entry
  locks : Assoc Slot LockId
  /-- The number of callers that hold or await the lock of a slot. -/
  users : Assoc Slot Nat
  /-- The name of the next lock. -/
  fresh : LockId
  deriving Repr

namespace Cache

/-- An empty cache whose locks are named from `fresh` on. -/
def empty (keepRetriable : Bool) (fresh : LockId) : Cache := ⟨keepRetriable, [], [], [], fresh⟩

def find? (c : Cache) (s : Slot) : Option Entry := Assoc.get? s c.entries

def size (c : Cache) : Nat := c.entries.length

def store (c : Cache) (s : Slot) (e : Entry) : Cache :=
  { c with entries := Assoc.put s e c.entries }

/-! ## Locks -/

/-- The lock of a slot, or the next new one. -/
def lockOf (c : Cache) (s : Slot) : LockId := (Assoc.get? s c.locks).getD c.fresh

/-- Adds a user of the lock of a slot, which is made if it is not there. -/
def join (c : Cache) (s : Slot) : Cache :=
  { c with
    locks := if (Assoc.get? s c.locks).isSome then c.locks else Assoc.put s c.fresh c.locks
    fresh := if (Assoc.get? s c.locks).isSome then c.fresh else c.fresh + 1
    users := Assoc.put s ((Assoc.get? s c.users).getD 0 + 1) c.users }

/-- Removes a user of the lock of a slot, and the lock with the last one; `none` if the slot has no
users or no lock to remove. -/
def leave? (c : Cache) (s : Slot) : Option Cache :=
  match Assoc.get? s c.users with
  | none => none
  | some n =>
    if n ≠ 1 then some { c with users := Assoc.put s (n - 1) c.users }
    else if (Assoc.get? s c.locks).isNone then none
    else some { c with users := Assoc.erase s c.users, locks := Assoc.erase s c.locks }

/-! ## Removing entries -/

/-- The number of errors among the entries. -/
def errorCount (c : Cache) : Nat := c.entries.countP fun p => p.2.isError

/-- Drops every error. -/
def dropErrors (c : Cache) : Cache := { c with entries := c.entries.filter fun p => !p.2.isError }

/-- Drops every entry; lookups under way keep their locks. -/
def clear (c : Cache) : Cache := { c with entries := [] }

end Cache

end Registrar
