import Registrar.Proofs.Cache.Lookup
import Registrar.Proofs.Program.Apart

/-!
# The locks of a cache and the lock of an instance

The lock of an instance that several tasks share is none of those that the cache of the instance
makes for its slots, so a lookup leaves it alone.
-/

namespace Registrar.Cache

variable {I : Interface} {α : Type}

/-- No lock of the cache, made or to be made, is that of the instance. -/
structure Separate (s : State) : Prop where
  fresh : State.sharedLock < s.cache.fresh
  locks : ∀ x, Assoc.get? x s.cache.locks ≠ some State.sharedLock

namespace Separate

theorem initial (threshold : Level) (keepRetriable : Bool) :
    Separate (State.initial threshold keepRetriable) where
  fresh := Nat.zero_lt_one
  locks := by simp [State.initial, empty]

variable {s t : State}

theorem of_locksKept (h : Separate s) (same : LocksKept s t) : Separate t where
  fresh := by
    rw [same.2.2]
    exact h.fresh
  locks := by
    rw [same.1]
    exact h.locks

theorem lockOf_ne (h : Separate s) (x : Slot) : s.cache.lockOf x ≠ State.sharedLock := by
  unfold lockOf
  cases hx : Assoc.get? x s.cache.locks with
  | none => exact Nat.ne_of_gt h.fresh
  | some l => exact fun e => h.locks x (hx.trans (congrArg some e))

theorem join (h : Separate s) (x : Slot) : Separate (Lookup.changing (·.join x) s) where
  fresh := by
    show State.sharedLock < if _ then _ else _
    split
    · exact h.fresh
    · exact Nat.lt_succ_of_lt h.fresh
  locks y := by
    show Assoc.get? y (if _ then _ else _) ≠ _
    split
    · exact h.locks y
    · by_cases e : y = x
      · subst e
        rw [Assoc.get?_put_self]
        simpa using Nat.ne_of_gt h.fresh
      · rw [Assoc.get?_put_of_ne e]
        exact h.locks y

theorem leave (h : Separate s) (x : Slot) :
    Separate (Lookup.changing (fun c => (c.leave? x).getD c) s) := by
  have erased (y : Slot) :
      Assoc.get? y (Assoc.erase x s.cache.locks) ≠ some State.sharedLock := by
    by_cases e : y = x
    · subst e
      simp
    · rw [Assoc.get?_erase_of_ne e]
      exact h.locks y
  have left : ∀ c, s.cache.leave? x = some c →
      c.fresh = s.cache.fresh ∧
        (c.locks = s.cache.locks ∨ c.locks = Assoc.erase x s.cache.locks) := by
    unfold leave?
    intro c
    split
    · simp
    · split
      · rintro ⟨⟩
        exact ⟨rfl, .inl rfl⟩
      · split
        · simp
        · rintro ⟨⟩
          exact ⟨rfl, .inr rfl⟩
  show Separate { s with cache := (s.cache.leave? x).getD s.cache }
  cases hc : s.cache.leave? x with
  | none => exact h
  | some c =>
    obtain ⟨fresh, locks | locks⟩ := left c hc
    · exact ⟨fresh ▸ h.fresh, fun y => locks ▸ h.locks y⟩
    · exact ⟨fresh ▸ h.fresh, fun y => locks ▸ erased y⟩

end Separate

open Routine (Apart)

/-! ## Lookups leave that lock alone -/

namespace Lookup

theorem apart_depart (x : Slot) (r : Outcome) :
    Program.Apart State.sharedLock Separate (depart x r : Task I) none :=
  fun _ h => ⟨h.leave x, rfl⟩

theorem apart_inside (k : Lookup I) {l : LockId} (ne : l ≠ State.sharedLock) :
    Program.Apart State.sharedLock Separate (k.inside l) (some l) :=
  Program.Keeps.apart_bind (keeps_replayOrLoad k) (fun _ _ same h => h.of_locksKept same) fun r =>
    ⟨rfl, ne, apart_depart k.slot r⟩

theorem apart_program (k : Lookup I) :
    Program.Apart State.sharedLock Separate k.program none := by
  rw [program_eq]
  intro s h
  refine ⟨h, ?_⟩
  dsimp only
  split
  · intro t h'
    exact ⟨h'.join k.slot, rfl, h'.lockOf_ne k.slot, k.apart_inside (h'.lockOf_ne k.slot)⟩
  · rename_i entry _
    cases entry with
    | schema x => exact fun t h' => ⟨h'.of_locksKept ⟨rfl, rfl, rfl⟩, rfl⟩
    | error e => exact fun t h' => ⟨h'.of_locksKept ⟨rfl, rfl, rfl⟩, rfl⟩

end Lookup

theorem apart_getOrLoad (x : Slot) {loader : Loader I}
    (outside : Routine.Keeps Routine.SameCache loader) :
    Apart State.sharedLock Separate (getOrLoad x loader) :=
  ⟨Lookup.apart_program ⟨x, loader, outside.mono Lookup.locksKept_of_sameCache⟩⟩

theorem apart_of_keeps {x : Routine I α} (h : Routine.Keeps LocksKept x) :
    Apart State.sharedLock Separate x :=
  h.apart fun _ _ same separate => separate.of_locksKept same

end Registrar.Cache
