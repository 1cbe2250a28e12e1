import Registrar.Proofs.Cache.Lookup

/-!
# A lookup that is alone

A lookup with nobody else around gives what is kept at its slot, or else runs its loader once, keeps
how that ended if it is to be kept, and leaves the other slots as they were. The lock that it takes
meanwhile is of no consequence.
-/

namespace Registrar

/-- How a lookup ends that finds the entry. -/
def Entry.outcome : Entry → Except Failure RegisteredSchema
  | .schema x => .ok x
  | .error e => .error (.resolution e)

namespace Cache

open Lookup

variable {I : Interface} {ε : Type} {w : Program.World I ε} {s : Slot} {loader : Loader I}

/-- What is kept of the end of a loader. -/
def kept (c : Cache) : Outcome → Option Entry
  | .ok x => some (.schema x)
  | .error (.resolution e) => if c.keeps e then some (.error e.intoCache) else none
  | .error _ => none

/-- One slot of a cache has been filled, if there was anything to keep. -/
structure Filled (c d : Cache) (s : Slot) (e : Option Entry) : Prop where
  same : d.keepRetriable = c.keepRetriable
  entries : d.entries = (e.map fun x => Assoc.put s x c.entries).getD c.entries

theorem Filled.here {c d : Cache} {e : Option Entry} (h : Filled c d s e) :
    d.find? s = e.or (c.find? s) := by
  unfold Cache.find?
  rw [h.entries]
  cases e with
  | none => rfl
  | some x => exact Assoc.get?_put_self ..

theorem Filled.elsewhere {c d : Cache} {e : Option Entry} (h : Filled c d s e) (s' : Slot)
    (ne : s' ≠ s) : d.find? s' = c.find? s' := by
  unfold Cache.find?
  rw [h.entries]
  cases e with
  | none => rfl
  | some x => exact Assoc.get?_put_of_ne ne ..

/-- What is kept was kept before or is what has been filled in. -/
theorem Filled.of_mem {c d : Cache} {e : Option Entry} (h : Filled c d s e) {p : Slot × Entry}
    (hp : p ∈ d.entries) : p ∈ c.entries ∨ p.1 = s ∧ e = some p.2 := by
  rw [h.entries] at hp
  cases e with
  | none => exact .inl hp
  | some x =>
    rcases Assoc.mem_of_mem_put hp with rfl | old
    · exact .inr ⟨rfl, rfl⟩
    · exact .inl old

theorem filled_store (c : Cache) (s : Slot) (e : Entry) : Filled c (c.store s e) s (some e) :=
  ⟨rfl, rfl⟩

/-- What a lookup that is alone finds it gives. -/
theorem run_getOrLoad_found (loader : Loader I) {st : State} {x : Entry}
    (h : st.cache.find? s = some x) (e : ε) :
    ∃ st', (getOrLoad s loader).run.run w st e = (x.outcome, st', e) ∧ st'.cache = st.cache := by
  unfold getOrLoad
  rw [replay_bind]
  simp only [Program.run, id, h]
  cases x with
  | schema x => exact ⟨_, rfl, rfl⟩
  | error e => exact ⟨_, rfl, rfl⟩

theorem run_storeError (s : Slot) (f : ResolutionError) (st : State) (e : ε) :
    ∃ st', (storeError s f : Routine I Unit).run.run w st e = (.ok (), st', e) ∧
      st'.cache = if st.cache.keeps f then st.cache.store s (.error f.intoCache) else st.cache := by
  show ∃ st', Program.run w (ExceptT.run (if st.cache.keeps f then _ else _)) _ e = _ ∧ _
  split
  · exact ⟨_, rfl, rfl⟩
  · exact ⟨_, rfl, rfl⟩

theorem run_record (s : Slot) (r : Outcome) (st : State) (e : ε) :
    ∃ st', (record s r : Routine I _).run.run w st e = (r, st', e) ∧
      SameLocks st.cache st'.cache ∧ Filled st.cache st'.cache s (kept st.cache r) := by
  rcases r with (f | f | _) | x
  · obtain ⟨st', run, cache⟩ := run_storeError (I := I) (w := w) s f st e
    refine ⟨st', ?_, ?_⟩
    · show Program.run w (Program.bind (ExceptT.run (storeError s f)) _) st e = _
      rw [Program.run_bind, run]
      rfl
    · rw [cache, kept]
      split
      · exact ⟨⟨rfl, rfl, rfl⟩, filled_store _ s _⟩
      · exact ⟨⟨rfl, rfl, rfl⟩, rfl, rfl⟩
  · exact ⟨st, rfl, ⟨rfl, rfl, rfl⟩, rfl, rfl⟩
  · exact ⟨st, rfl, ⟨rfl, rfl, rfl⟩, rfl, rfl⟩
  · exact ⟨_, rfl, ⟨rfl, rfl, rfl⟩, filled_store _ s _⟩

/-- Whoever has joined can leave. -/
theorem leave?_of_joined {c d : Cache} (h : SameLocks (c.join s) d) :
    ∃ d', d.leave? s = some d' ∧ d'.entries = d.entries ∧ d'.keepRetriable = d.keepRetriable := by
  obtain ⟨locks, users, -⟩ := h
  have user : Assoc.get? s d.users = some ((Assoc.get? s c.users).getD 0 + 1) := by
    rw [users]
    simp [Cache.join]
  have lock : Assoc.get? s d.locks ≠ none := by
    rw [locks, join_locks_self]
    simp
  unfold Cache.leave?
  rw [user]
  dsimp only
  split
  · exact ⟨_, rfl, rfl, rfl⟩
  · rw [if_neg (by simpa using lock)]
    exact ⟨_, rfl, rfl, rfl⟩

/-- The program of a lookup that finds nothing runs the loader inside the lock. -/
theorem run_program (k : Lookup I) {st : State} (h : st.cache.find? k.slot = none) (e : ε) :
    k.program.run w st e =
      (k.loader.run.bind (wrapUp k.slot (st.cache.lockOf k.slot))).run w
        (marking (.lookup k.slot.map .miss) (changing (·.join k.slot) st)) e := by
  have missing : (st.cache.join k.slot).find? k.slot = none := h
  rw [program_eq]
  simp only [Program.run, id, h, Lookup.enter, Lookup.take, changing]
  rw [inside_eq]
  simp only [Program.run, id, missing]

/-- Whoever has joined gives the lock back and leaves. -/
theorem run_giveBack {c : Cache} (l : LockId) (r : Outcome) {st : State}
    (h : SameLocks (c.join s) st.cache) (e : ε) :
    ∃ st', (giveBack s l r : Task I).run w st e = (r, st', e) ∧
      st'.cache.entries = st.cache.entries ∧
      st'.cache.keepRetriable = st.cache.keepRetriable := by
  obtain ⟨d, hd, entries, same⟩ := leave?_of_joined h
  refine ⟨changing (fun c => (c.leave? s).getD c) st, ?_, ?_, ?_⟩
  · simp [giveBack, depart, Program.run, hd]
  · simp [changing, hd, entries]
  · simp [changing, hd, same]

/-- A lookup that is alone and finds nothing runs its loader. -/
theorem run_getOrLoad_missing {st : State} (h : st.cache.find? s = none)
    (outside : Routine.Keeps Routine.SameCache loader) (e : ε) :
    ∃ st₁ st₂, st₁.cache = st.cache.join s ∧
      (getOrLoad s loader).run.run w st e =
        ((loader.run.run w st₁ e).1, st₂, (loader.run.run w st₁ e).2.2) ∧
      Filled st.cache st₂.cache s (kept st.cache (loader.run.run w st₁ e).1) := by
  let k : Lookup I := ⟨s, loader, outside.mono locksKept_of_sameCache⟩
  let st₁ := marking (.lookup s.map .miss) (changing (·.join s) st)
  have same : (loader.run.run w st₁ e).2.1.cache = st.cache.join s :=
    outside.run (fun _ => rfl) (fun _ _ _ h h' => h'.trans h) w st₁ e
  obtain ⟨st₂, recorded, locks, filled⟩ := run_record (I := I) (w := w) s (loader.run.run w st₁ e).1
    (loader.run.run w st₁ e).2.1 (loader.run.run w st₁ e).2.2
  rw [same] at locks filled
  obtain ⟨st₃, leaves, entries, keep⟩ := run_giveBack (I := I) (w := w) (st.cache.lockOf s)
    (loader.run.run w st₁ e).1 locks (loader.run.run w st₁ e).2.2
  refine ⟨st₁, st₃, rfl, ?_, ?_⟩
  · refine (run_program k h e).trans ?_
    rw [Program.run_bind]
    unfold wrapUp
    rw [Program.run_bind]
    show Program.run w (giveBack s _ (Program.run w
      (record s (Program.run w (ExceptT.run loader) st₁ e).1).run _ _).1) _ _ = _
    rw [recorded]
    exact leaves
  · exact ⟨keep.trans filled.same, entries.trans filled.entries⟩

end Cache

end Registrar
