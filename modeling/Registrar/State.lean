import Registrar.Cache.Basic
import Registrar.Journal
import Registrar.Tally

/-!
# What a client remembers

The shared state of all operations of one client: its journal and tally, the resolution cache of the
reader or writer on top of it, and the session that its transport holds.
-/

namespace Registrar

/-- The name of a session with an HTTP server. -/
abbrev SessionId := Nat

/-- The state of a client. -/
structure State where
  journal : Journal
  tally : Tally
  cache : Cache
  session : Option SessionId
  deriving Repr

/-- The lock of an instance that several tasks share; the locks of the cache have other names. -/
def State.sharedLock : LockId := 0

/-- The state at the start. -/
def State.initial (threshold : Level) (keepRetriable : Bool) : State :=
  ⟨⟨threshold, []⟩, [], Cache.empty keepRetriable (State.sharedLock + 1), none⟩

end Registrar
