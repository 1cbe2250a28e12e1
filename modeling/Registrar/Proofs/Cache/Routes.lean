import Registrar.Proofs.Cache.Courses
import Registrar.Proofs.Cache.SingleFlight

/-!
# What a lookup knows of the loader before it

Several loaders may end for a slot one after the other, and what is kept there comes of the last
one. `Route` says for each point of a lookup's program where its outcome is to come from: its own
loader, which was then the last one to end, or an entry, or a cancellation. `Paused` says the same
of a lookup that has no turn. What has happened comes in as a `Story`, which tells of one slot whose
loader was the last to end, and how.

The points of the program that a `Story` mentions are recognised by what is left to do there: the
start of the loader is the only point that marks a miss, and the point at which the loader has ended
is told from all others by the outcome that is going to be given and by the number of changes of the
state until the lock is given back.
-/

namespace Registrar.Cache

variable {I : Interface} {γ : Type}

/-- What is kept of the end of a loader: a schema, or the copy of an error that may be kept. -/
inductive Kept (keepRetriable : Bool) : Outcome → Entry → Prop where
  | schema (x : RegisteredSchema) : Kept keepRetriable (.ok x) (.schema x)
  | error {f : ResolutionError} (h : keepRetriable = true ∨ f.retriable = false) :
    Kept keepRetriable (.error (.resolution f)) (.error f.intoCache)

/-- An error is kept for errors only, and says that it was kept. -/
theorem Kept.of_error {keep : Bool} {r : Outcome} {e : Entry} (h : Kept keep r e)
    {f : ResolutionError} (hf : e = .error f) :
    ∃ g, r = .error (.resolution g) ∧ f = g.intoCache ∧ (keep = true ∨ g.retriable = false) := by
  cases h with
  | schema x => cases hf
  | @error g allowed =>
    cases hf
    exact ⟨g, rfl, rfl, allowed⟩

/-! ## What others do to the entries -/

variable {c d : Cache} {s : Slot}

/-- Nothing is kept where nothing was kept before, if nothing was added. -/
theorem find?_eq_none_of_subset (h : c.find? s = none) (sub : d.entries ⊆ c.entries) :
    d.find? s = none := by
  rw [find?, Assoc.get?_eq_none_iff] at *
  exact fun mem => h (List.map_subset _ sub mem)

theorem Foreign.subset {s t : State} (h : Foreign s t) : t.cache.entries ⊆ s.cache.entries := by
  rcases h with h | h | h
  · exact h ▸ List.Subset.refl _
  · exact h ▸ List.filter_subset_self _
  · exact h ▸ List.nil_subset _

/-- Whoever ceases to be a user leaves the policy. -/
theorem policy_leave? (h : c.leave? s = some d) : d.keepRetriable = c.keepRetriable := by
  unfold leave? at h
  grind

theorem Foreign.policy {s t : State} (h : Foreign s t) :
    t.cache.keepRetriable = s.cache.keepRetriable := by
  rcases h with h | h | h <;> rw [h] <;> rfl

namespace Lookup

/-! ## Telling the points of the program apart -/

/-- A state in which the slot has users and others may be its users as well. -/
def probe (keepRetriable : Bool) (s : Slot) : State :=
  { State.initial Level.info false with
    cache := { Cache.empty keepRetriable 1 with users := [(s, 2)] } }

/-- The first change of the state that a program makes marks a miss. -/
def MarksMiss (st : State) (s : Slot) : Task I → Prop
  | .update f _ =>
    (f st).tally.count (.lookup s.map .miss) ≠ st.tally.count (.lookup s.map .miss)
  | _ => False

/-- How a program ends that does not wait, if it meets the same state wherever it looks. -/
def upshot (st : State) : Task I → Option Outcome
  | .done r => some r
  | .update _ next => upshot st (next st)
  | .release _ next => upshot st (next ())
  | _ => none

/-- The number of changes of the state up to that end. -/
def changes (st : State) : Task I → Nat
  | .update _ next => changes st (next st) + 1
  | .release _ next => changes st (next ())
  | _ => 0

theorem upshot_depart (keep : Bool) (s : Slot) (r : Outcome) :
    upshot (probe keep s) (depart s r : Task I) = some r := by
  simp [depart, upshot, probe, leave?, Assoc.get?]

theorem upshot_giveBack (keep : Bool) (s : Slot) (l : LockId) (r : Outcome) :
    upshot (probe keep s) (giveBack s l r : Task I) = some r :=
  upshot_depart (I := I) keep s r

/-- What is left when a loader has ended leads to the outcome of the loader. -/
theorem upshot_wrapUp (keep : Bool) (s : Slot) (l : LockId) (r : Outcome) :
    upshot (probe keep s) (wrapUp s l r : Task I) = some r := by
  rcases r with (f | f | _) | x
  · show upshot _ (Program.bind (Program.bind (ExceptT.run (if _ then _ else _)) _) _) = _
    split <;> exact upshot_giveBack (I := I) keep s l _
  · exact upshot_giveBack (I := I) keep s l _
  · exact upshot_giveBack (I := I) keep s l _
  · exact upshot_giveBack (I := I) keep s l _

/-- The name of the lock plays no part in what is left. -/
theorem changes_wrapUp (st : State) (s : Slot) (l l' : LockId) (r : Outcome) :
    changes st (wrapUp s l r : Task I) = changes st (wrapUp s l' r : Task I) := by
  unfold wrapUp
  induction (record s r : Routine I RegisteredSchema).run with
  | done r => rfl
  | update f next ih => exact congrArg (· + 1) (ih st)
  | release m next ih => exact ih ()
  | _ => rfl

/-- A program in two parts ends as its second part does, which begins at once or after changes. -/
theorem upshot_bind {R : State → State → Prop} {q : Task I} (keeps : q.Keeps R)
    {f : Outcome → Task I} {st : State} {r : Outcome} (h : upshot st (q.bind f) = some r) :
    ∃ r', upshot st (f r') = some r ∧
      changes st (q.bind f) = changes st q + changes st (f r') ∧
      (changes st q = 0 → q = .done r') := by
  induction q with
  | done r' => exact ⟨r', h, (Nat.zero_add _).symm, fun _ => rfl⟩
  | update g next ih =>
    obtain ⟨r', ends, count, -⟩ := ih st (keeps.2 st) h
    refine ⟨r', ends, ?_, nofun⟩
    simp only [Program.bind, changes, count]
    omega
  | ask c next ih => cases h
  | await c next ih => cases h
  | acquire l next ih => exact keeps.elim
  | release l next ih => exact keeps.elim

/-- Where it looks as if a loader had ended with `r`, it has. -/
theorem of_bind_eq_wrapUp {R : State → State → Prop} {q : Task I} (keeps : q.Keeps R) {s : Slot}
    {l l' : LockId} {r : Outcome} (h : q.bind (wrapUp s l) = wrapUp s l' r) : q = .done r := by
  let st := probe false s
  have ends : upshot st (q.bind (wrapUp s l)) = some r := by
    rw [h]
    exact upshot_wrapUp false s l' r
  obtain ⟨r', ends', count, now⟩ := upshot_bind keeps ends
  obtain rfl : r' = r := Option.some.inj ((upshot_wrapUp (I := I) false s l r').symm.trans ends')
  refine now ?_
  rw [h, changes_wrapUp (I := I) st s l' l] at count
  omega

theorem wrapUp_injective {s : Slot} {l l' : LockId} {r r' : Outcome}
    (h : (wrapUp s l r : Task I) = (wrapUp s l' r' : Task I)) : r = r' := by
  have ends := (upshot_wrapUp (I := I) false s l r).symm.trans (congrArg _ h)
  exact Option.some.inj (ends.trans (upshot_wrapUp false s l' r'))

theorem marksMiss_missing (keep : Bool) (k : Lookup I) (l : LockId) :
    MarksMiss (probe keep k.slot) k.slot (k.missing l) := by
  simp [MarksMiss, missing, marking, Tally.add]

theorem not_marksMiss_wrapUp (st : State) (s : Slot) (l : LockId) (r : Outcome) :
    ¬ MarksMiss st s (wrapUp s l r : Task I) := by
  rcases r with (f | f | _) | x
  · have quiet := (recording_marking s (.error (.resolution f)) (m := .failure f.category)
      (by simp) st).quiet
    exact fun marks => marks quiet
  · exact id
  · exact id
  · exact fun marks => marks rfl

/-! ## Ending without waiting -/

/-- The program ends with `r` and does not wait, and its changes of the state are as `R` says, as
long as the policy is this one. -/
def Quick (keepRetriable : Bool) (R : State → State → Prop) (r : Outcome) : Task I → Prop
  | .done r' => r' = r
  | .update f next => ∀ st, st.cache.keepRetriable = keepRetriable →
      R st (f st) ∧ Quick keepRetriable R r (next st)
  | _ => False

/-- A change that marks no miss and leaves the cache alone. -/
structure Still (s : Slot) (st st' : State) : Prop where
  quiet : st'.tally.count (.lookup s.map .miss) = st.tally.count (.lookup s.map .miss)
  cache : st'.cache = st.cache

/-- A change that leaves the cache alone or keeps the outcome `r`. -/
def Keeping (keepRetriable : Bool) (s : Slot) (r : Outcome) (st st' : State) : Prop :=
  st'.cache = st.cache ∨ ∃ e, Kept keepRetriable r e ∧ st'.cache = st.cache.store s e

theorem still_marking (s : Slot) {m : Mark} (h : m ≠ .lookup s.map .miss) (st : State) :
    Still s st (marking m st) :=
  ⟨(recording_marking s (.error .cancelled) h st).quiet, rfl⟩

theorem quick_found (keep : Bool) (s : Slot) (e : Entry) :
    Quick keep (Still s) e.outcome (found s e : Task I) := by
  cases e with
  | schema x => exact fun st _ => ⟨still_marking s (by simp) st, rfl⟩
  | error f => exact fun st _ => ⟨still_marking s (by simp) st, rfl⟩

/-- How a loader has ended is recorded and given. -/
theorem quick_record (keep : Bool) (s : Slot) (r : Outcome) :
    Quick keep (Keeping keep s r) r (record s r : Routine I _).run := by
  rcases r with (f | f | _) | x
  · refine fun st _ => ⟨.inl rfl, fun st₁ same => ⟨.inl rfl, ?_⟩⟩
    show Quick _ _ _ (Program.bind (ExceptT.run (if _ then _ else _)) _)
    split
    · rename_i allowed
      have kept : Kept keep (.error (.resolution f)) (.error f.intoCache) :=
        .error (by simpa [keeps, same] using allowed)
      exact fun st₂ _ => ⟨.inr ⟨_, kept, rfl⟩, fun st₃ _ => ⟨.inl rfl, rfl⟩⟩
    · exact fun st₂ _ => ⟨.inl rfl, rfl⟩
  · rfl
  · rfl
  · exact fun st _ => ⟨.inr ⟨_, .schema x, rfl⟩, rfl⟩

section

variable {keep : Bool} {R : State → State → Prop} {r : Outcome} {q : Task I} {l : LockId}

/-- What does not wait ends as it is to end, before a lock is given back and without that. -/
theorem Quick.upshot (h : Quick keep R r q) (s : Slot) (f : Outcome → Task I)
    (hf : upshot (probe keep s) (f r) = some r) : upshot (probe keep s) (q.bind f) = some r := by
  induction q with
  | done r' =>
    obtain rfl : r' = r := h
    exact hf
  | update g next ih => exact ih _ (h _ rfl).2
  | ask c next ih => exact h.elim
  | await c next ih => exact h.elim
  | acquire l next ih => exact h.elim
  | release l next ih => exact h.elim

theorem Quick.quiet (h : Quick keep R r q) (s : Slot)
    (quiet : ∀ st st', R st st' →
      st'.tally.count (.lookup s.map .miss) = st.tally.count (.lookup s.map .miss))
    (f : Outcome → Task I) (hf : ¬ MarksMiss (probe keep s) s (f r)) :
    ¬ MarksMiss (probe keep s) s (q.bind f) := by
  cases q with
  | done r' =>
    obtain rfl : r' = r := h
    exact hf
  | update g next => exact fun marks => marks (quiet _ _ (h _ rfl).1)
  | ask c next => exact h.elim
  | await c next => exact h.elim
  | acquire l next => exact h.elim
  | release l next => exact h.elim

end

/-! ## Stories -/

/-- What has happened at the slot of a lookup. -/
structure Story where
  /-- The loader of the lookup was started. -/
  begun : Prop
  /-- The loader of the lookup has ended so. -/
  ended : Outcome → Prop
  /-- The loader that was the last one to end for the slot has ended so. -/
  latest : Outcome → Prop
  begun_of_ended : ∀ r, ended r → begun

/-- The loader of the lookup has ended with `r` and was the last one to end. -/
structure Story.Own (σ : Story) (r : Outcome) : Prop where
  begun : σ.begun
  latest : σ.latest r
  ended : ∀ r', σ.ended r' ↔ r' = r

/-- At `q` the loader of the lookup has ended with `r`. -/
def Finishing (k : Lookup I) (q : Task I) (r : Outcome) : Prop :=
  ∃ l, LoaderPart k (.done r) ∧ q = wrapUp k.slot l r

/-- The story `σ` goes on as `σ'` when the lookup has its turn at `q`. -/
structure After (k : Lookup I) (q : Task I) (σ σ' : Story) : Prop where
  begun : σ'.begun ↔ σ.begun ∨ ∃ l, q = k.missing l
  ended : ∀ r, σ'.ended r ↔ σ.ended r ∨ σ'.begun ∧ k.Finishing q r
  finished : ∀ r, σ'.begun → k.Finishing q r → σ'.latest r
  latest : ∀ r, σ.latest r → (∀ r', σ'.begun → k.Finishing q r' → r' = r) → σ'.latest r

/-- What a lookup is to end with. -/
inductive Due (keepRetriable : Bool) (σ : Story) : Outcome → Prop where
  | loaded {r : Outcome} (own : σ.Own r) : Due keepRetriable σ r
  | replayed {r : Outcome} {e : Entry} (fresh : ¬ σ.begun) (latest : σ.latest r)
    (kept : Kept keepRetriable r e) : Due keepRetriable σ e.outcome
  | withdrawn (fresh : ¬ σ.begun) : Due keepRetriable σ (.error .cancelled)

namespace After

variable {k : Lookup I} {q : Task I} {σ σ' : Story} {keep : Bool} {r : Outcome}

/-- A lookup that does not mark a miss has not started its loader. -/
theorem fresh (keep : Bool) (h : After k q σ σ') (quiet : ¬ MarksMiss (probe keep k.slot) k.slot q)
    (fresh : ¬ σ.begun) : ¬ σ'.begun := by
  rw [h.begun]
  rintro (begun | ⟨l, rfl⟩)
  · exact fresh begun
  · exact quiet (marksMiss_missing keep k l)

/-- A lookup whose loader has ended is on its way to that outcome. -/
theorem own (h : After k q σ σ') (own : σ.Own r) (ends : upshot (probe keep k.slot) q = some r) :
    σ'.Own r := by
  have same (r' : Outcome) (finishing : k.Finishing q r') : r' = r := by
    obtain ⟨l, -, rfl⟩ := finishing
    exact Option.some.inj ((upshot_wrapUp keep k.slot l r').symm.trans ends)
  refine ⟨h.begun.2 (.inl own.begun), h.latest r own.latest fun r' _ => same r', fun r' => ?_⟩
  rw [h.ended, own.ended]
  exact ⟨fun h => h.elim id fun h => same r' h.2, .inl⟩

theorem due (h : After k q σ σ') (due : Due keep σ r)
    (quiet : ¬ MarksMiss (probe keep k.slot) k.slot q)
    (ends : upshot (probe keep k.slot) q = some r) : Due keep σ' r := by
  cases due with
  | loaded own => exact .loaded (h.own own ends)
  | replayed fresh latest kept =>
    have fresh := h.fresh keep quiet fresh
    exact .replayed fresh (h.latest _ latest fun r' begun => absurd begun fresh) kept
  | withdrawn fresh => exact .withdrawn (h.fresh keep quiet fresh)

end After

/-! ## Routes -/

/-- `Route k keep σ c q`: after the story `σ`, with the cache `c`, the lookup has its turn at
`q`. -/
inductive Route (k : Lookup I) (keepRetriable : Bool) (σ : Story) (c : Cache) : Task I → Prop where
  | called (fresh : ¬ σ.begun) : Route k keepRetriable σ c k.program
  | entering (fresh : ¬ σ.begun) : Route k keepRetriable σ c k.enter
  | taking (l : LockId) (fresh : ¬ σ.begun) : Route k keepRetriable σ c (k.take l)
  | inside (l : LockId) (fresh : ¬ σ.begun) : Route k keepRetriable σ c (k.inside l)
  | missing (l : LockId) (unended : ∀ r, ¬ σ.ended r) (empty : c.find? k.slot = none) :
    Route k keepRetriable σ c (k.missing l)
  | loading (l : LockId) {q : Task I} (part : LoaderPart k q) (begun : σ.begun)
    (unended : ∀ r, ¬ σ.ended r) (empty : c.find? k.slot = none) :
    Route k keepRetriable σ c (q.bind (wrapUp k.slot l))
  | recording (l : LockId) {q : Task I} {r : Outcome} (own : σ.Own r) (outside : q.Keeps LocksKept)
    (quick : Quick keepRetriable (Keeping keepRetriable k.slot r) r q) :
    Route k keepRetriable σ c (q.bind (giveBack k.slot l))
  | handing (l : LockId) {q : Task I} {r : Outcome} (due : Due keepRetriable σ r)
    (quick : Quick keepRetriable (Still k.slot) r q) :
    Route k keepRetriable σ c (q.bind (giveBack k.slot l))
  | departing {r : Outcome} (due : Due keepRetriable σ r) :
    Route k keepRetriable σ c (depart k.slot r)
  | ending {q : Task I} {r : Outcome} (due : Due keepRetriable σ r)
    (quick : Quick keepRetriable (Still k.slot) r q) : Route k keepRetriable σ c q

/-- `Paused k σ c x`: after the story `σ`, with the cache `c`, the lookup has no turn and stands at
`x`. -/
inductive Paused (k : Lookup I) (σ : Story) (c : Cache) : Standing State I γ Outcome → Prop where
  | called (fresh : ¬ σ.begun) : Paused k σ c (.ready k.program)
  | waiting (l : LockId) (fresh : ¬ σ.begun) :
    Paused k σ c (.waiting l (k.inside l) (depart k.slot (.error .cancelled)))
  | granted (l : LockId) (fresh : ¬ σ.begun) :
    Paused k σ c (.awake (some l) (k.inside l) (depart k.slot (.error .cancelled)))
  | held (g : γ) (l : LockId) {q q' : Task I} (part : LoaderPart k q) (part' : LoaderPart k q')
    (begun : σ.begun) (unended : ∀ r, ¬ σ.ended r) (empty : c.find? k.slot = none) :
    Paused k σ c (.held g (q.bind (wrapUp k.slot l)) (q'.bind (wrapUp k.slot l)))
  | opened (l : LockId) {q q' : Task I} (part : LoaderPart k q) (part' : LoaderPart k q')
    (begun : σ.begun) (unended : ∀ r, ¬ σ.ended r) (empty : c.find? k.slot = none) :
    Paused k σ c (.awake none (q.bind (wrapUp k.slot l)) (q'.bind (wrapUp k.slot l)))
  | interrupted (l : LockId) {q : Task I} (part : LoaderPart k q) (begun : σ.begun)
    (unended : ∀ r, ¬ σ.ended r) (empty : c.find? k.slot = none) :
    Paused k σ c (.ready (q.bind (wrapUp k.slot l)))
  | revoked (l : LockId) (fresh : ¬ σ.begun) :
    Paused k σ c (.ready (giveBack k.slot l (.error .cancelled)))
  | departing (fresh : ¬ σ.begun) :
    Paused k σ c (.ready (depart k.slot (.error .cancelled)))
  | ended {r : Outcome} (own : ∀ r', σ.ended r' → r' = r) : Paused k σ c (.ended r)

section

variable {k : Lookup I} {keep : Bool} {σ σ' : Story} {c c' : Cache} {q : Task I}

/-- The moment at which a lookup has its turn becomes part of its story. -/
theorem Route.noted (h : Route k keep σ c q) (after : After k q σ σ') : Route k keep σ' c q := by
  cases h with
  | called fresh =>
    refine .called (after.fresh keep ?_ fresh)
    rw [program_eq]
    exact fun marks => marks rfl
  | entering fresh => exact .entering (after.fresh keep (fun marks => marks rfl) fresh)
  | taking l fresh => exact .taking l (after.fresh keep id fresh)
  | inside l fresh =>
    refine .inside l (after.fresh keep ?_ fresh)
    rw [inside_eq]
    exact fun marks => marks rfl
  | missing l unended empty =>
    refine .missing l (fun r ended => ?_) empty
    rcases (after.ended r).1 ended with ended | ⟨-, l', -, same⟩
    · exact unended r ended
    · exact not_marksMiss_wrapUp _ _ l' r (same ▸ marksMiss_missing keep k l)
  | @loading l q part begun unended empty =>
    have begun' := after.begun.2 (.inl begun)
    have outside := k.outside.of_parts part
    by_cases ends : ∃ r, q = .done r
    · obtain ⟨r, rfl⟩ := ends
      have finishing : k.Finishing (wrapUp k.slot l r) r := ⟨l, part, rfl⟩
      refine .recording l ⟨begun', after.finished r begun' finishing, fun r' => ?_⟩
        (keeps_record k.slot r) (quick_record keep k.slot r)
      constructor
      · intro ended
        rcases (after.ended r').1 ended with ended | ⟨-, l', -, same⟩
        · exact absurd ended (unended r')
        · exact (wrapUp_injective same).symm
      · rintro rfl
        exact (after.ended r').2 (.inr ⟨begun', finishing⟩)
    · refine .loading l part begun' (fun r ended => ?_) empty
      rcases (after.ended r).1 ended with ended | ⟨-, l', -, same⟩
      · exact unended r ended
      · exact ends ⟨r, of_bind_eq_wrapUp outside same⟩
  | recording l own outside quick =>
    exact .recording l (after.own own (quick.upshot k.slot _ (upshot_giveBack ..))) outside quick
  | handing l due quick =>
    refine .handing l (after.due due ?_ (quick.upshot k.slot _ (upshot_giveBack ..))) quick
    exact quick.quiet k.slot (fun _ _ still => still.quiet) _ id
  | departing due =>
    exact .departing (after.due due (fun marks => marks rfl) (upshot_depart ..))
  | ending due quick =>
    have ends := quick.upshot k.slot .done rfl
    have quiet := quick.quiet k.slot (fun _ _ still => still.quiet) .done id
    rw [Program.bind_done] at ends quiet
    exact .ending (after.due due quiet ends) quick

/-- Where the loader of a lookup has ended, nothing is kept at its slot, or it was the last one to
end already. -/
theorem Route.of_finishing {l : LockId} {r : Outcome} (h : Route k keep σ c (wrapUp k.slot l r))
    (begun : σ.begun) : c.find? k.slot = none ∨ σ.latest r := by
  have ends := upshot_wrapUp (I := I) keep k.slot l r
  generalize hq : wrapUp k.slot l r = q at h ends
  have own {r' : Outcome} (own : σ.Own r') (ends' : upshot (probe keep k.slot) q = some r') :
      σ.latest r := by
    obtain rfl := Option.some.inj (ends'.symm.trans ends)
    exact own.latest
  have due {r' : Outcome} (due : Due keep σ r')
      (ends' : upshot (probe keep k.slot) q = some r') : σ.latest r := by
    cases due with
    | loaded h => exact own h ends'
    | replayed fresh => exact absurd begun fresh
    | withdrawn fresh => exact absurd begun fresh
  cases h with
  | missing l unended empty => exact .inl empty
  | loading l part begun unended empty => exact .inl empty
  | recording l h outside quick =>
    exact .inr (own h (quick.upshot k.slot _ (upshot_giveBack ..)))
  | handing l h quick => exact .inr (due h (quick.upshot k.slot _ (upshot_giveBack ..)))
  | departing h => exact .inr (due h (upshot_depart ..))
  | ending h quick =>
    refine .inr (due h ?_)
    have ends' := quick.upshot k.slot .done rfl
    rwa [Program.bind_done] at ends'
  | called fresh => exact absurd begun fresh
  | entering fresh => exact absurd begun fresh
  | taking l fresh => exact absurd begun fresh
  | inside l fresh => exact absurd begun fresh

/-! ## Steps of a lookup -/

/-- The story tells of the moment at which the lookup has its turn at `q`. -/
structure Noted (k : Lookup I) (q : Task I) (σ : Story) : Prop where
  begun : ∀ l, q = k.missing l → σ.begun
  ended : ∀ r, σ.begun → k.Finishing q r → σ.ended r

theorem After.noted (h : After k q σ σ') : Noted k q σ' where
  begun l hl := h.begun.2 (.inr ⟨l, hl⟩)
  ended r begun finishing := (h.ended r).2 (.inr ⟨begun, finishing⟩)

/-- What a lookup does to the cache in one step: it removes entries, or, inside the lock, keeps how
its own loader has ended. -/
inductive Alters (k : Lookup I) (keepRetriable : Bool) (σ : Story) (q : Task I) (c c' : Cache) :
    Prop where
  | prunes (policy : c'.keepRetriable = c.keepRetriable) (sub : c'.entries ⊆ c.entries)
  | keeps {r : Outcome} {e : Entry} (owes : Owes q) (own : σ.Own r) (kept : Kept keepRetriable r e)
    (stored : c' = c.store k.slot e)

/-- Where a step leaves a lookup that had its turn. -/
inductive Onward (k : Lookup I) (keepRetriable : Bool) (σ : Story) (c : Cache) :
    Standing State I γ Outcome → Prop where
  | ready {q : Task I} (h : Route k keepRetriable σ c q) : Onward k keepRetriable σ c (.ready q)
  | paused {x : Standing State I γ Outcome} (stopped : ∀ q, x ≠ .ready q) (h : Paused k σ c x) :
    Onward k keepRetriable σ c x

theorem Alters.of_eq (h : c' = c) : Alters k keep σ q c c' := by
  subst h
  exact .prunes rfl (List.Subset.refl _)

variable {st st' : State} {x : Standing State I γ Outcome}

/-- A lookup that has not looked for the last time finds what the latest loader has left. -/
theorem due_found (fresh : ¬ σ.begun)
    (entries : ∀ e, c.find? k.slot = some e → ∃ r, σ.latest r ∧ Kept keep r e) {e : Entry}
    (h : c.find? k.slot = some e) : Due keep σ e.outcome :=
  let ⟨_, latest, kept⟩ := entries e h
  .replayed fresh latest kept

/-- A change of the state by the lookup whose turn it is. -/
theorem Route.update {f : State → State} {next : State → Task I}
    (h : Route k keep σ st.cache (.update f next)) (noted : Noted k (.update f next) σ)
    (tame : Routine.Keeps Foreign k.loader) (policy : st.cache.keepRetriable = keep)
    (entries : ∀ e, st.cache.find? k.slot = some e → ∃ r, σ.latest r ∧ Kept keep r e)
    (leaves : ∀ r, Program.update f next = depart k.slot r → ∃ d, st.cache.leave? k.slot = some d) :
    Alters k keep σ (.update f next) st.cache (f st).cache ∧
      Route k keep σ (f st).cache (next st) := by
  generalize hq : Program.update f next = q at h noted leaves
  cases h with
  | called fresh =>
    rw [program_eq] at hq
    cases hq
    refine ⟨.of_eq rfl, ?_⟩
    dsimp only [id]
    cases hf : st.cache.find? k.slot with
    | none => exact .entering fresh
    | some e => exact .ending (due_found fresh entries hf) (quick_found keep k.slot e)
  | entering fresh =>
    cases hq
    exact ⟨.prunes rfl (List.Subset.refl _), .taking _ fresh⟩
  | taking => cases hq
  | inside l fresh =>
    rw [inside_eq] at hq
    cases hq
    refine ⟨.of_eq rfl, ?_⟩
    dsimp only [id]
    cases hf : st.cache.find? k.slot with
    | none => exact .missing l (fun r ended => fresh (σ.begun_of_ended r ended)) hf
    | some e => exact .handing l (due_found fresh entries hf) (quick_found keep k.slot e)
  | missing l unended empty =>
    have begun := noted.begun l rfl
    cases hq
    exact ⟨.of_eq rfl, .loading l .refl begun unended empty⟩
  | @loading l q part begun unended empty =>
    obtain ⟨r, rfl, -⟩ | ⟨next', rfl, rfl⟩ := bind_eq_update hq.symm
    · exact absurd (noted.ended r begun ⟨l, part, rfl⟩) (unended r)
    · have foreign := (tame.of_parts part).1 st
      refine ⟨.prunes foreign.policy foreign.subset, ?_⟩
      exact .loading l (part.next (.update f next' st)) begun unended
        (find?_eq_none_of_subset empty foreign.subset)
  | @recording l q r own outside quick =>
    obtain ⟨r', rfl, hr⟩ | ⟨next', rfl, rfl⟩ := bind_eq_update hq.symm
    · cases hr
    · have owes : Owes ((Program.update f next').bind (giveBack k.slot l)) :=
        owes_bind outside fun _ => trivial
      obtain ⟨change, quick⟩ := quick st policy
      refine ⟨?_, .recording l own (outside.2 st) quick⟩
      rcases change with same | ⟨e, kept, stored⟩
      · exact .of_eq same
      · exact .keeps owes own kept stored
  | @handing l q r due quick =>
    obtain ⟨r', rfl, hr⟩ | ⟨next', rfl, rfl⟩ := bind_eq_update hq.symm
    · cases hr
    · obtain ⟨change, quick⟩ := quick st policy
      exact ⟨.of_eq change.cache, .handing l due quick⟩
  | @departing r due =>
    obtain ⟨d, hd⟩ := leaves r rfl
    cases hq
    have cache : (changing (fun c => (c.leave? k.slot).getD c) st).cache = d := by
      simp [changing, hd]
    refine ⟨.prunes ?_ ?_, .ending (r := r) due ?_⟩
    · rw [cache, policy_leave? hd]
    · rw [cache, entries_leave? hd]
      exact List.Subset.refl _
    · simp [Quick, hd]
  | @ending q r due quick =>
    subst hq
    obtain ⟨change, quick⟩ := quick st policy
    exact ⟨.of_eq change.cache, .ending due quick⟩

/-- A lookup asks the world only inside its loader. -/
theorem Route.of_ask {call : I.Call} {next : I.Reply call → Task I}
    (h : Route k keep σ c (.ask call next)) (y : I.Reply call) : Route k keep σ c (next y) := by
  generalize hq : Program.ask call next = q at h
  cases h with
  | called => rw [program_eq] at hq; cases hq
  | inside l => rw [inside_eq] at hq; cases hq
  | @loading l q part begun unended empty =>
    cases q with
    | done r => rcases r with (e | e | _) | x <;> cases hq
    | ask call' next' =>
      cases hq
      exact .loading l (part.next (.ask call next' y)) begun unended empty
    | _ => cases hq
  | @recording l q r own outside quick => cases q <;> cases hq; exact quick.elim
  | @handing l q r due quick => cases q <;> cases hq; exact quick.elim
  | ending due quick => subst hq; exact quick.elim
  | _ => cases hq

/-- It waits for the world only there, too. -/
theorem Route.of_await {call : I.Call} {next : Wake (I.Reply call) → Task I}
    (h : Route k keep σ c (.await call next)) :
    σ.begun ∧ (∀ r, ¬ σ.ended r) ∧ c.find? k.slot = none ∧
      ∃ (l : LockId) (next' : Wake (I.Reply call) → _), (∀ w, LoaderPart k (next' w)) ∧
        next = fun w => (next' w).bind (wrapUp k.slot l) := by
  generalize hq : Program.await call next = q at h
  cases h with
  | called => rw [program_eq] at hq; cases hq
  | inside l => rw [inside_eq] at hq; cases hq
  | @loading l q part begun unended empty =>
    cases q with
    | done r => rcases r with (e | e | _) | x <;> cases hq
    | await call' next' =>
      cases hq
      exact ⟨begun, unended, empty, l, next', fun w => part.next (.await call next' w), rfl⟩
    | _ => cases hq
  | @recording l q r own outside quick => cases q <;> cases hq; exact quick.elim
  | @handing l q r due quick => cases q <;> cases hq; exact quick.elim
  | ending due quick => subst hq; exact quick.elim
  | _ => cases hq

/-- It takes a lock only before it goes inside. -/
theorem Route.of_acquire {l : LockId} {next : Wake Unit → Task I}
    (h : Route k keep σ c (.acquire l next)) :
    ¬ σ.begun ∧ next (.value ()) = k.inside l ∧
      next .cancelled = depart k.slot (.error .cancelled) := by
  generalize hq : Program.acquire l next = q at h
  cases h with
  | called => rw [program_eq] at hq; cases hq
  | taking m fresh => cases hq; exact ⟨fresh, rfl, rfl⟩
  | inside m => rw [inside_eq] at hq; cases hq
  | @loading m q part begun unended empty =>
    have outside := k.outside.of_parts part
    cases q with
    | done r => rcases r with (e | e | _) | x <;> cases hq
    | acquire => exact outside.elim
    | _ => cases hq
  | @recording m q r own outside quick => cases q <;> cases hq; exact quick.elim
  | @handing m q r due quick => cases q <;> cases hq; exact quick.elim
  | ending due quick => subst hq; exact quick.elim
  | _ => cases hq

/-- Who gives the lock back has an outcome to leave with. -/
theorem Route.of_release {l : LockId} {next : Unit → Task I}
    (h : Route k keep σ c (.release l next)) (noted : Noted k (.release l next) σ) :
    Route k keep σ c (next ()) := by
  generalize hq : Program.release l next = q at h noted
  cases h with
  | called => rw [program_eq] at hq; cases hq
  | inside m => rw [inside_eq] at hq; cases hq
  | @loading m q part begun unended empty =>
    have outside := k.outside.of_parts part
    cases q with
    | done r => exact absurd (noted.ended r begun ⟨m, part, rfl⟩) (unended r)
    | release => exact outside.elim
    | _ => cases hq
  | @recording m q r own outside quick =>
    cases q <;> cases hq
    · cases quick
      exact .departing (.loaded own)
    · exact quick.elim
  | @handing m q r due quick =>
    cases q <;> cases hq
    · cases quick
      exact .departing due
    · exact quick.elim
  | ending due quick => subst hq; exact quick.elim
  | _ => cases hq

/-- Who ends does so with what is due. -/
theorem Route.of_done {r : Outcome} (h : Route k keep σ c (.done r)) : Due keep σ r := by
  generalize hq : Program.done r = q at h
  cases h with
  | called => rw [program_eq] at hq; cases hq
  | inside l => rw [inside_eq] at hq; cases hq
  | @loading l q =>
    cases q with
    | done r => rcases r with (e | e | _) | x <;> cases hq
    | _ => cases hq
  | @recording l q => cases q <;> cases hq
  | @handing l q => cases q <;> cases hq
  | ending due quick =>
    subst hq
    cases quick
    exact due
  | _ => cases hq

theorem Paused.of_due {r : Outcome} (h : Due keep σ r) :
    Paused k σ c (.ended r : Standing State I γ Outcome) := by
  cases h with
  | loaded own => exact .ended fun r' ended => (own.ended r').1 ended
  | replayed fresh => exact .ended fun r' ended => absurd (σ.begun_of_ended r' ended) fresh
  | withdrawn fresh => exact .ended fun r' ended => absurd (σ.begun_of_ended r' ended) fresh

/-- One step of the lookup whose turn it is. -/
theorem Route.took (h : Route k keep σ st.cache q) (noted : Noted k q σ)
    (tame : Routine.Keeps Foreign k.loader) (policy : st.cache.keepRetriable = keep)
    (entries : ∀ e, st.cache.find? k.slot = some e → ∃ r, σ.latest r ∧ Kept keep r e)
    (leaves : ∀ r, q = depart k.slot r → ∃ d, st.cache.leave? k.slot = some d)
    (took : Moment.Took st st' q x) :
    Alters k keep σ q st.cache st'.cache ∧ Onward k keep σ st'.cache x := by
  cases took with
  | update same =>
    subst same
    obtain ⟨alters, route⟩ := h.update noted tame policy entries leaves
    exact ⟨alters, .ready route⟩
  | ask r same => exact ⟨.of_eq (congrArg _ same), same ▸ .ready (h.of_ask r)⟩
  | await r same =>
    obtain ⟨begun, unended, empty, l, next', part, rfl⟩ := h.of_await
    exact ⟨.of_eq (congrArg _ same), same ▸ .ready (.loading l (part _) begun unended empty)⟩
  | hold r g same =>
    obtain ⟨begun, unended, empty, l, next', part, rfl⟩ := h.of_await
    refine ⟨.of_eq (congrArg _ same), same ▸ .paused nofun ?_⟩
    exact .held g l (part _) (part _) begun unended empty
  | acquire same =>
    obtain ⟨fresh, inside, -⟩ := h.of_acquire
    exact ⟨.of_eq (congrArg _ same), inside ▸ .ready (.inside _ fresh)⟩
  | wait same =>
    obtain ⟨fresh, inside, departs⟩ := h.of_acquire
    exact ⟨.of_eq (congrArg _ same), inside ▸ departs ▸ .paused nofun (.waiting _ fresh)⟩
  | release same => exact ⟨.of_eq (congrArg _ same), same ▸ .ready (h.of_release noted)⟩
  | done same => exact ⟨.of_eq (congrArg _ same), .paused nofun (.of_due h.of_done)⟩

/-! ## Steps of others -/

/-- What others do concerns a lookup only in that they may remove entries. -/
theorem Route.prune (h : Route k keep σ c q)
    (empty : c.find? k.slot = none → c'.find? k.slot = none) : Route k keep σ c' q := by
  cases h with
  | called fresh => exact .called fresh
  | entering fresh => exact .entering fresh
  | taking l fresh => exact .taking l fresh
  | inside l fresh => exact .inside l fresh
  | missing l unended missing => exact .missing l unended (empty missing)
  | loading l part begun unended missing => exact .loading l part begun unended (empty missing)
  | recording l own outside quick => exact .recording l own outside quick
  | handing l due quick => exact .handing l due quick
  | departing due => exact .departing due
  | ending due quick => exact .ending due quick

/-- A lookup that has no turn is concerned by its own loader only, and by what is kept at its slot
while that is under way. -/
theorem Paused.mono (h : Paused k σ c x) (begun : σ'.begun ↔ σ.begun)
    (ended : ∀ r, σ'.ended r ↔ σ.ended r)
    (empty : Loading k x → c.find? k.slot = none → c'.find? k.slot = none) :
    Paused k σ' c' x := by
  have fresh' (fresh : ¬ σ.begun) : ¬ σ'.begun := fun h => fresh (begun.1 h)
  have unended' (unended : ∀ r, ¬ σ.ended r) (r : Outcome) : ¬ σ'.ended r :=
    fun h => unended r ((ended r).1 h)
  cases h with
  | called fresh => exact .called (fresh' fresh)
  | waiting l fresh => exact .waiting l (fresh' fresh)
  | granted l fresh => exact .granted l (fresh' fresh)
  | held g l part part' started unended missing =>
    exact .held g l part part' (begun.2 started) (unended' unended)
      (empty (.held l part g _) missing)
  | opened l part part' started unended missing =>
    exact .opened l part part' (begun.2 started) (unended' unended)
      (empty (.awake l part none _) missing)
  | interrupted l part started unended missing =>
    exact .interrupted l part (begun.2 started) (unended' unended)
      (empty (.ready l part) missing)
  | revoked l fresh => exact .revoked l (fresh' fresh)
  | departing fresh => exact .departing (fresh' fresh)
  | ended own => exact .ended fun r' h => own r' ((ended r').1 h)

/-- Where a step of somebody else leaves a lookup. -/
theorem Paused.goes {m m' : Flight I γ} {t : TaskId} {y : Standing State I γ Outcome}
    (h : Paused k σ c x) (goes : Moment.Goes m m' t x y) : Paused k σ c y := by
  cases goes with
  | stays => exact h
  | opened =>
    cases h with
    | held g l part part' begun unended empty => exact .opened l part part' begun unended empty
  | granted =>
    cases h with
    | waiting _ fresh => exact .granted _ fresh
  | cancelled hy =>
    cases h with
    | waiting l fresh => cases hy; exact .departing fresh
    | granted l fresh => cases hy; exact .revoked l fresh
    | held g l part part' begun unended empty =>
      cases hy
      exact .interrupted l part' begun unended empty
    | opened l part part' begun unended empty =>
      cases hy
      exact .interrupted l part' begun unended empty
    | _ => cases hy

/-- A lookup whose loader has ended and that has no turn has ended so itself. -/
theorem Paused.of_ended (h : Paused k σ c x) {r : Outcome} (ended : σ.ended r) :
    x = .ended r := by
  have begun := σ.begun_of_ended r ended
  cases h with
  | held g l part part' started unended => exact absurd ended (unended r)
  | opened l part part' started unended => exact absurd ended (unended r)
  | interrupted l part started unended => exact absurd ended (unended r)
  | ended own => rw [own r ended]
  | called fresh => exact absurd begun fresh
  | waiting l fresh => exact absurd begun fresh
  | granted l fresh => exact absurd begun fresh
  | revoked l fresh => exact absurd begun fresh
  | departing fresh => exact absurd begun fresh

/-- Who is given its turn goes on with its route. -/
theorem Paused.route {s : System State I γ Outcome} {t : TaskId} (h : Paused k σ c x)
    (hx : s.tasks[t]? = some x) (turn : s.turn? t = some q) : Route k keep σ c q := by
  unfold System.turn? at turn
  rw [hx] at turn
  cases h with
  | called fresh => cases turn; exact .called fresh
  | granted l fresh => cases turn; exact .inside l fresh
  | opened l part part' begun unended empty =>
    cases turn
    exact .loading l part begun unended empty
  | interrupted l part begun unended empty =>
    cases turn
    exact .loading l part begun unended empty
  | revoked l fresh => cases turn; exact .handing l (q := .done _) (.withdrawn fresh) rfl
  | departing fresh => cases turn; exact .departing (.withdrawn fresh)
  | _ => cases turn

end

end Lookup

end Registrar.Cache
