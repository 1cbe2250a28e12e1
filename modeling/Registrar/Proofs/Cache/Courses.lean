import Mathlib.Data.List.Nodup
import Registrar.Proofs.Cache.Alone
import Registrar.Proofs.Schedule.Runs

/-!
# What a lookup carries

Where `At` says how a lookup stands with the lock of its slot, `Course` says what it carries at each
point of its program: nothing before it has found an entry or its loader has ended, and from then on
the outcome with which it will end, which agrees with what the cache keeps. While the loader is
under way no schema is kept at the slot. `Rests` says the same of a lookup that has no turn: it has
not looked yet, waits for the lock, is inside its loader, has been cancelled or has ended.

An outcome is `Sourced` if a loader for the slot made it, or made the error of which it is the
cached copy. What has happened so far comes in as a `Past`.
-/

namespace Registrar

/-! ## Tables with different keys -/

namespace Assoc

variable {κ ν : Type} [DecidableEq κ] {key : κ} {value : ν} {m : Assoc κ ν}

omit [DecidableEq κ] in
theorem nodup_keys_filter (h : (keys m).Nodup) (p : κ × ν → Bool) :
    (keys (m.filter p)).Nodup :=
  h.sublist (List.filter_sublist.map Prod.fst)

/-- In a table with different keys every pair is found. -/
theorem get?_eq_some_iff (h : (keys m).Nodup) : get? key m = some value ↔ (key, value) ∈ m := by
  refine ⟨mem_of_get?, fun mem => ?_⟩
  induction m with
  | nil => simp at mem
  | cons p m ih =>
    obtain ⟨k, v⟩ := p
    obtain ⟨new, h⟩ := List.nodup_cons.1 h
    rcases List.mem_cons.1 mem with e | mem
    · cases e
      simp [get?]
    · have ne : k ≠ key := by
        rintro rfl
        exact new (List.mem_map.2 ⟨_, mem, rfl⟩)
      simp [get?, ne, ih h mem]

end Assoc

namespace Cache

/-! ## The schemas of a cache -/

/-- No schema is kept at the slot. -/
def Vacant (c : Cache) (s : Slot) : Prop := ∀ x, c.find? s ≠ some (.schema x)

/-- The same schemas are kept. -/
def SameSchemas (c d : Cache) : Prop :=
  ∀ s x, d.find? s = some (.schema x) ↔ c.find? s = some (.schema x)

/-- The slots at which something is kept are different. -/
def Proper (c : Cache) : Prop := (Assoc.keys c.entries).Nodup

variable {c d : Cache} {s : Slot}

theorem SameSchemas.of_entries (h : d.entries = c.entries) : SameSchemas c d := by
  intro s x
  rw [find?, h, find?]

theorem SameSchemas.vacant (h : SameSchemas c d) (hs : c.Vacant s) : d.Vacant s :=
  fun x hx => hs x ((h s x).1 hx)

/-- An error that is kept where there is no schema leaves the schemas as they are. -/
theorem sameSchemas_store (h : c.Vacant s) (e : ResolutionError) :
    SameSchemas c (c.store s (.error e)) := by
  intro s' x
  by_cases same : s' = s
  · subst same
    simp [find?, store]
    exact h x
  · simp [find?, store, Assoc.get?_put_of_ne same]

theorem sameSchemas_dropErrors (h : c.Proper) : SameSchemas c c.dropErrors := by
  intro s x
  unfold find? dropErrors
  rw [Assoc.get?_eq_some_iff h, Assoc.get?_eq_some_iff (Assoc.nodup_keys_filter h _)]
  simp [Entry.isError]

/-- Whoever ceases to be a user leaves the entries. -/
theorem entries_leave? (h : c.leave? s = some d) : d.entries = c.entries := by
  unfold leave? at h
  grind

theorem proper_store (h : c.Proper) (s : Slot) (e : Entry) : (c.store s e).Proper :=
  Assoc.nodup_keys_put h

theorem proper_dropErrors (h : c.Proper) : c.dropErrors.Proper := Assoc.nodup_keys_filter h _

/-- What others do to the cache while nothing but errors is removed from it. -/
inductive Pruning (s t : State) : Prop where
  | same (h : t.cache = s.cache)
  | removal (h : t.cache = s.cache.dropErrors)

theorem Pruning.sameSchemas {s t : State} (h : Pruning s t) (proper : s.cache.Proper) :
    SameSchemas s.cache t.cache := by
  rcases h with h | h
  · exact .of_entries (congrArg entries h)
  · exact h ▸ sameSchemas_dropErrors proper

theorem Pruning.proper {s t : State} (h : Pruning s t) (proper : s.cache.Proper) :
    t.cache.Proper := by
  rcases h with h | h
  · rwa [h]
  · exact h ▸ proper_dropErrors proper

theorem Pruning.sub {s t : State} (h : Pruning s t) : t.cache.entries ⊆ s.cache.entries := by
  rcases h with h | h
  · exact h ▸ List.Subset.refl _
  · exact h ▸ List.filter_subset_self _

/-! ## Outcomes -/

/-- What has happened so far, seen by a lookup. -/
structure Past where
  /-- Its loader was started. -/
  begun : Prop
  /-- It was cancelled. -/
  cancelled : Prop
  /-- A loader for its slot has ended so. -/
  made : Outcome → Prop

/-- What has happened has happened. -/
structure Past.Grows (p q : Past) : Prop where
  begun : p.begun → q.begun
  cancelled : p.cancelled → q.cancelled
  made : ∀ r, p.made r → q.made r

theorem Past.Grows.refl (p : Past) : p.Grows p := ⟨id, id, fun _ => id⟩

/-- A loader has ended so, or with the error of which this is the cached copy. -/
inductive Sourced (made : Outcome → Prop) : Outcome → Prop where
  | loaded {r : Outcome} (h : made r) : Sourced made r
  | replayed {f : ResolutionError} (h : made (.error (.resolution f))) :
    Sourced made (.error (.resolution f.intoCache))

theorem Sourced.mono {made made' : Outcome → Prop} {r : Outcome} (h : Sourced made r)
    (sub : ∀ r, made r → made' r) : Sourced made' r := by
  cases h with
  | loaded h => exact .loaded (sub _ h)
  | replayed h => exact .replayed (sub _ h)

/-- A copy of a copy is a copy. -/
theorem Sourced.intoCache {made : Outcome → Prop} {f : ResolutionError}
    (h : Sourced made (.error (.resolution f))) :
    Sourced made (.error (.resolution f.intoCache)) := by
  generalize hr : (Except.error (Failure.resolution f) : Outcome) = r at h
  cases h with
  | loaded h => exact .replayed (hr ▸ h)
  | @replayed g h =>
    obtain rfl : f = g.intoCache := by injection hr with hr; injection hr
    exact .replayed (f := g) h

/-- The outcome agrees with what is kept at the slot. -/
def Admits (c : Cache) (s : Slot) : Outcome → Prop
  | .ok x => c.find? s = some (.schema x)
  | .error _ => c.Vacant s

theorem SameSchemas.admits (h : SameSchemas c d) {r : Outcome} (hr : c.Admits s r) :
    d.Admits s r := by
  cases r with
  | ok x => exact (h s x).2 hr
  | error f => exact h.vacant hr

theorem admits_outcome {e : Entry} (h : c.find? s = some e) : c.Admits s e.outcome := by
  cases e with
  | schema x => exact h
  | error f =>
    intro x hx
    cases h.symm.trans hx

/-- What a lookup is to end with: an outcome that has a source and agrees with the cache, or, if it
was cancelled, that. -/
inductive Verdict (p : Past) (c : Cache) (s : Slot) : Outcome → Prop where
  | settled {r : Outcome} (source : Sourced p.made r) (admits : c.Admits s r) : Verdict p c s r
  | cancelled (h : p.cancelled) : Verdict p c s (.error .cancelled)

theorem Verdict.mono {p q : Past} {r : Outcome} (h : Verdict p c s r) (grows : p.Grows q)
    (same : SameSchemas c d) : Verdict q d s r := by
  cases h with
  | settled source admits => exact .settled (source.mono grows.made) (same.admits admits)
  | cancelled h => exact .cancelled (grows.cancelled h)

namespace Lookup

variable {I : Interface} {γ : Type}

/-! ## Ending without waiting -/

/-- The program ends with `r` and does not wait; its changes of the state are as `R` says. -/
def Brief (R : State → State → Prop) (r : Outcome) : Task I → Prop
  | .done r' => r' = r
  | .update f next => (∀ s, R s (f s)) ∧ ∀ s, Brief R r (next s)
  | _ => False

/-- A change on the way to the outcome `r`: it marks no miss, and it leaves the cache or keeps the
error. -/
structure Recording (s : Slot) (r : Outcome) (st st' : State) : Prop where
  quiet : st'.tally.count (.lookup s.map .miss) = st.tally.count (.lookup s.map .miss)
  cache : st'.cache = st.cache ∨
    ∃ f, r = .error (.resolution f) ∧ st'.cache = st.cache.store s (.error f.intoCache)

theorem recording_marking (s : Slot) (r : Outcome) {m : Mark} (h : m ≠ .lookup s.map .miss)
    (st : State) : Recording s r st (marking m st) :=
  ⟨by simp [marking, Tally.add, List.count_append, h], .inl rfl⟩

theorem brief_found (s : Slot) (e : Entry) :
    Brief (Recording s e.outcome) e.outcome (found s e : Task I) := by
  cases e with
  | schema x => exact ⟨recording_marking s _ (by simp), fun _ => rfl⟩
  | error f => exact ⟨recording_marking s _ (by simp), fun _ => rfl⟩

/-- An error of a loader is recorded and given. -/
theorem brief_record (s : Slot) (f : Failure) :
    Brief (Recording s (.error f)) (.error f) (record s (.error f) : Routine I _).run := by
  rcases f with f | f | _
  · refine ⟨recording_marking s _ (by simp), fun _ => ⟨fun st => ⟨rfl, .inl rfl⟩, fun st => ?_⟩⟩
    show Brief _ _ (Program.bind (ExceptT.run (if _ then _ else _)) _)
    split
    · exact ⟨fun st => ⟨rfl, .inr ⟨f, rfl, rfl⟩⟩, fun _ =>
        ⟨fun st => ⟨rfl, .inl rfl⟩, fun _ => rfl⟩⟩
    · exact ⟨fun st => ⟨rfl, .inl rfl⟩, fun _ => rfl⟩
  · rfl
  · rfl

/-! ## Courses -/

/-- What is left of a lookup that found nothing inside the lock and is about to start its loader. -/
def missing (k : Lookup I) (l : LockId) : Task I :=
  .update (marking (.lookup k.slot.map .miss)) fun _ => k.loader.run.bind (wrapUp k.slot l)

/-- What is left of the loader of a lookup. -/
def LoaderPart (k : Lookup I) (q : Task I) : Prop :=
  Relation.ReflTransGen Program.Part q k.loader.run

theorem LoaderPart.next {k : Lookup I} {p q : Task I} (h : LoaderPart k p)
    (part : Program.Part q p) : LoaderPart k q :=
  .head part h

/-- `Course k p c q`: after the past `p`, with the cache `c`, the lookup has its turn at `q`. -/
inductive Course (k : Lookup I) (p : Past) (c : Cache) : Task I → Prop where
  | called : Course k p c k.program
  | entering : Course k p c k.enter
  | taking (l : LockId) : Course k p c (k.take l)
  | inside (l : LockId) : Course k p c (k.inside l)
  | missing (l : LockId) (vacant : c.Vacant k.slot) : Course k p c (k.missing l)
  | loading (l : LockId) {q : Task I} (part : LoaderPart k q) (begun : p.begun)
    (vacant : c.Vacant k.slot) : Course k p c (q.bind (wrapUp k.slot l))
  | handing (l : LockId) {q : Task I} {r : Outcome} (brief : Brief (Recording k.slot r) r q)
    (verdict : Verdict p c k.slot r) : Course k p c (q.bind (giveBack k.slot l))
  | departing {r : Outcome} (verdict : Verdict p c k.slot r) : Course k p c (depart k.slot r)
  | ending {q : Task I} {r : Outcome} (brief : Brief (Recording k.slot r) r q)
    (verdict : Verdict p c k.slot r) : Course k p c q

/-- `Rests k p c x`: after the past `p`, with the cache `c`, the lookup has no turn and stands at
`x`. -/
inductive Rests (k : Lookup I) (p : Past) (c : Cache) : Standing State I γ Outcome → Prop where
  | called : Rests k p c (.ready k.program)
  | waiting (l : LockId) :
    Rests k p c (.waiting l (k.inside l) (depart k.slot (.error .cancelled)))
  | granted (l : LockId) :
    Rests k p c (.awake (some l) (k.inside l) (depart k.slot (.error .cancelled)))
  | held (g : γ) (l : LockId) {q q' : Task I} (part : LoaderPart k q) (part' : LoaderPart k q')
    (begun : p.begun) (vacant : c.Vacant k.slot) :
    Rests k p c (.held g (q.bind (wrapUp k.slot l)) (q'.bind (wrapUp k.slot l)))
  | opened (l : LockId) {q q' : Task I} (part : LoaderPart k q) (part' : LoaderPart k q')
    (begun : p.begun) (vacant : c.Vacant k.slot) :
    Rests k p c (.awake none (q.bind (wrapUp k.slot l)) (q'.bind (wrapUp k.slot l)))
  | interrupted (l : LockId) {q : Task I} (part : LoaderPart k q) (begun : p.begun)
    (vacant : c.Vacant k.slot) : Rests k p c (.ready (q.bind (wrapUp k.slot l)))
  | revoked (l : LockId) (cancelled : p.cancelled) :
    Rests k p c (.ready (giveBack k.slot l (.error .cancelled)))
  | departing (cancelled : p.cancelled) : Rests k p c (.ready (depart k.slot (.error .cancelled)))
  | ended {r : Outcome} (source : Sourced p.made r ∨ p.cancelled ∧ r = .error .cancelled)
    (kept : ∀ x, r = .ok x → c.find? k.slot = some (.schema x)) : Rests k p c (.ended r)

section

variable {k : Lookup I} {p p' : Past} {c c' : Cache}

theorem Course.mono {q : Task I} (h : Course k p c q) (grows : p.Grows p')
    (same : SameSchemas c c') : Course k p' c' q := by
  cases h with
  | called => exact .called
  | entering => exact .entering
  | taking l => exact .taking l
  | inside l => exact .inside l
  | missing l vacant => exact .missing l (same.vacant vacant)
  | loading l part begun vacant => exact .loading l part (grows.begun begun) (same.vacant vacant)
  | handing l brief verdict => exact .handing l brief (verdict.mono grows same)
  | departing verdict => exact .departing (verdict.mono grows same)
  | ending brief verdict => exact .ending brief (verdict.mono grows same)

/-- The schema at a slot is not taken away; a slot at which a loader is under way stays vacant. -/
theorem Rests.mono {x : Standing State I γ Outcome} (h : Rests k p c x) (grows : p.Grows p')
    (kept : ∀ y, c.find? k.slot = some (.schema y) → c'.find? k.slot = some (.schema y))
    (vacant : Loading k x → c.Vacant k.slot → c'.Vacant k.slot) : Rests k p' c' x := by
  cases h with
  | called => exact .called
  | waiting l => exact .waiting l
  | granted l => exact .granted l
  | held g l part part' begun empty =>
    exact .held g l part part' (grows.begun begun) (vacant (.held l part g _) empty)
  | opened l part part' begun empty =>
    exact .opened l part part' (grows.begun begun) (vacant (.awake l part none _) empty)
  | interrupted l part begun empty =>
    exact .interrupted l part (grows.begun begun) (vacant (.ready l part) empty)
  | revoked l cancelled => exact .revoked l (grows.cancelled cancelled)
  | departing cancelled => exact .departing (grows.cancelled cancelled)
  | ended source found =>
    refine .ended (source.imp (·.mono grows.made) (And.imp_left grows.cancelled)) fun y hy => ?_
    exact kept y (found y hy)

/-- Who is given its turn goes on with its course. -/
theorem Rests.course {s : System State I γ Outcome} {t : TaskId} {q : Task I}
    {x : Standing State I γ Outcome} (h : Rests k p c x) (hx : s.tasks[t]? = some x)
    (turn : s.turn? t = some q) : Course k p c q := by
  unfold System.turn? at turn
  rw [hx] at turn
  cases h with
  | called => cases turn; exact .called
  | granted l => cases turn; exact .inside l
  | opened l part part' begun vacant => cases turn; exact .loading l part begun vacant
  | interrupted l part begun vacant => cases turn; exact .loading l part begun vacant
  | revoked l cancelled => cases turn; exact .handing l (q := .done _) rfl (.cancelled cancelled)
  | departing cancelled => cases turn; exact .departing (.cancelled cancelled)
  | _ => cases turn

/-- Where a gate opens, what was held back goes on. -/
theorem Rests.open {g : γ} {q q' : Task I} (h : Rests k p c (.held g q q')) :
    Rests k p c (.awake none q q' : Standing State I γ Outcome) := by
  cases h with
  | held g l part part' begun vacant => exact .opened l part part' begun vacant

/-- Whoever has waited for the lock gets it. -/
theorem Rests.grant {l : LockId} {q q' : Task I}
    (h : Rests k p c (.waiting l q q' : Standing State I γ Outcome)) :
    Rests k p c (.awake (some l) q q' : Standing State I γ Outcome) := by
  cases h with
  | waiting l => exact .granted l

/-- Whoever is cancelled goes on accordingly. -/
theorem Rests.withdrawn {x y : Standing State I γ Outcome} (h : Rests k p c x)
    (hy : x.withdrawn? = some y) (cancelled : p.cancelled) : Rests k p c y := by
  cases h with
  | waiting l => cases hy; exact .departing cancelled
  | granted l => cases hy; exact .revoked l cancelled
  | held g l part part' begun vacant => cases hy; exact .interrupted l part' begun vacant
  | opened l part part' begun vacant => cases hy; exact .interrupted l part' begun vacant
  | _ => cases hy

end

/-! ## Going on -/

/-- The past tells whether the lookup is about to start its loader at `q`, and how that ended. -/
structure Notes (k : Lookup I) (p : Past) (q : Task I) : Prop where
  begun : ∀ l, q = k.missing l → p.begun
  made : ∀ l r, p.begun → LoaderPart k (.done r) → q = wrapUp k.slot l r → p.made r

/-- The loader of the lookup, or what records how it ended, is under way. -/
def InLoader (k : Lookup I) (q : Task I) : Prop :=
  ∃ l q', LoaderPart k q' ∧ q = q'.bind (wrapUp k.slot l)

/-- What the lookup does to the cache in one step: it adds nothing but an outcome of a loader, and a
schema only if it is its own and none is there. -/
structure Effect (k : Lookup I) (p : Past) (q : Task I) (c c' : Cache) : Prop where
  proper : c'.Proper
  sources : ∀ e ∈ c'.entries, e ∈ c.entries ∨ e.1 = k.slot ∧ Sourced p.made e.2.outcome
  schemas : SameSchemas c c' ∨
    InLoader k q ∧ c.Vacant k.slot ∧ ∃ x, c' = c.store k.slot (.schema x)

section

variable {k : Lookup I} {p : Past} {c c' : Cache} {q : Task I}

theorem Effect.of_entries (proper : c.Proper) (h : c'.entries = c.entries) :
    Effect k p q c c' where
  proper := by rwa [Proper, h]
  sources _ he := .inl (h ▸ he)
  schemas := .inl (.of_entries h)

theorem Effect.of_store {f : ResolutionError} (proper : c.Proper) (vacant : c.Vacant k.slot)
    (source : Sourced p.made (.error (.resolution f.intoCache))) :
    Effect k p q c (c.store k.slot (.error f.intoCache)) where
  proper := proper_store proper ..
  sources _ he := by
    rcases Assoc.mem_of_mem_put he with rfl | old
    · exact .inr ⟨rfl, source⟩
    · exact .inl old
  schemas := .inl (sameSchemas_store vacant _)

theorem Effect.of_pruning {s s' : State} (proper : s.cache.Proper) (h : Pruning s s') :
    Effect k p q s.cache s'.cache where
  proper := h.proper proper
  sources _ he := .inl (h.sub he)
  schemas := .inl (h.sameSchemas proper)

/-- Where a program is cut in two, a change of the state belongs to the first part as long as that
has not ended. -/
theorem bind_eq_update {α β : Type} {f : State → State} {next : State → Program State I β}
    {p : Program State I α} {g : α → Program State I β} (h : p.bind g = .update f next) :
    (∃ a, p = .done a ∧ g a = .update f next) ∨
      ∃ next', p = .update f next' ∧ next = fun s => (next' s).bind g := by
  cases p with
  | done a => exact .inl ⟨a, rfl, h⟩
  | update f' next' =>
    cases h
    exact .inr ⟨next', rfl, rfl⟩
  | _ => cases h

/-- What is on the way to an outcome and keeps it. -/
theorem Recording.effect {st st' : State} {r : Outcome} (h : Recording k.slot r st st')
    (proper : st.cache.Proper) (verdict : Verdict p st.cache k.slot r) :
    Effect k p q st.cache st'.cache ∧ Verdict p st'.cache k.slot r := by
  rcases h.cache with same | ⟨f, rfl, stored⟩
  · exact ⟨.of_entries proper (congrArg entries same), same ▸ verdict⟩
  · cases verdict with
    | settled source vacant =>
      rw [stored]
      exact ⟨.of_store proper vacant source.intoCache,
        .settled source ((sameSchemas_store vacant _).vacant vacant)⟩

/-- One step of a loader. -/
theorem LoaderPart.update {f : State → State} {next : State → Task I}
    (h : LoaderPart k (.update f next)) (tame : Routine.Keeps Pruning k.loader) (st : State) :
    Pruning st (f st) ∧ LoaderPart k (next st) :=
  ⟨(tame.of_parts h).1 st, h.next (.update f next st)⟩

/-- The loader has ended, and how it ended is recorded. -/
theorem Course.record {f : State → State} {next : State → Task I} {l : LockId} {r : Outcome}
    (hq : wrapUp k.slot l r = .update f next) (made : p.made r) (st : State)
    (proper : st.cache.Proper) (vacant : st.cache.Vacant k.slot)
    (part : LoaderPart k (.done r)) :
    Effect k p (wrapUp k.slot l r) st.cache (f st).cache ∧
      Course k p (f st).cache (next st) := by
  cases r with
  | ok x =>
    cases hq
    refine ⟨⟨proper_store proper .., fun e he => ?_, .inr ⟨⟨l, _, part, rfl⟩, vacant, x, rfl⟩⟩, ?_⟩
    · rcases Assoc.mem_of_mem_put he with rfl | old
      · exact .inr ⟨rfl, .loaded made⟩
      · exact .inl old
    · refine .handing l (q := .done (.ok x)) rfl (.settled (.loaded made) ?_)
      simp [Admits, find?, store]
  | error e =>
    have verdict : Verdict p st.cache k.slot (.error e) := .settled (.loaded made) vacant
    have brief := brief_record (I := I) k.slot e
    obtain ⟨r, hr, -⟩ | ⟨next', hn, rfl⟩ := bind_eq_update hq
    · rw [wrapUp, hr] at hq
      cases hq
    · rw [hn] at brief
      obtain ⟨effect, verdict⟩ := (brief.1 st).effect proper verdict
      exact ⟨effect, .handing l (brief.2 st) verdict⟩

/-- A change of the state by the lookup whose turn it is. -/
theorem Course.update {f : State → State} {next : State → Task I} {st : State}
    (h : Course k p st.cache (.update f next)) (tame : Routine.Keeps Pruning k.loader)
    (notes : Notes k p (.update f next)) (proper : st.cache.Proper)
    (sources : ∀ e, st.cache.find? k.slot = some e → Sourced p.made e.outcome)
    (leaves : ∀ r, Program.update f next = depart k.slot r → ∃ d, st.cache.leave? k.slot = some d) :
    Effect k p (.update f next) st.cache (f st).cache ∧
      Course k p (f st).cache (next st) := by
  generalize hq : Program.update f next = q at h
  cases h with
  | called =>
    rw [program_eq] at hq
    cases hq
    refine ⟨.of_entries proper rfl, ?_⟩
    dsimp only [id]
    cases hf : st.cache.find? k.slot with
    | none => exact .entering
    | some e =>
      exact .ending (brief_found k.slot e) (.settled (sources e hf) (admits_outcome hf))
  | entering =>
    cases hq
    exact ⟨.of_entries proper rfl, .taking _⟩
  | taking => cases hq
  | inside l =>
    rw [inside_eq] at hq
    cases hq
    refine ⟨.of_entries proper rfl, ?_⟩
    dsimp only [id]
    cases hf : st.cache.find? k.slot with
    | none => exact .missing l fun x hx => by simp [hf] at hx
    | some e =>
      exact .handing l (brief_found k.slot e) (.settled (sources e hf) (admits_outcome hf))
  | missing l vacant =>
    have begun := notes.begun l hq
    cases hq
    exact ⟨.of_entries proper rfl, .loading l .refl begun vacant⟩
  | @loading l q part begun vacant =>
    obtain ⟨r, rfl, hr⟩ | ⟨next', rfl, rfl⟩ := bind_eq_update hq.symm
    · exact Course.record hr (notes.made l r begun part hr.symm) st proper vacant part
    · obtain ⟨pruning, part'⟩ := part.update tame st
      refine ⟨.of_pruning proper pruning, .loading l part' begun ?_⟩
      exact pruning.sameSchemas proper |>.vacant vacant
  | @handing l q r brief verdict =>
    obtain ⟨r', rfl, hr⟩ | ⟨next', rfl, rfl⟩ := bind_eq_update hq.symm
    · cases hr
    · obtain ⟨effect, verdict⟩ := (brief.1 st).effect proper verdict
      exact ⟨effect, .handing l (brief.2 st) verdict⟩
  | @departing r verdict =>
    obtain ⟨d, hd⟩ := leaves r hq
    cases hq
    have entries : (changing (fun c => (c.leave? k.slot).getD c) st).cache.entries =
        st.cache.entries := by
      simp [changing, hd, entries_leave? hd]
    refine ⟨.of_entries proper entries, .ending (r := r) ?_ ?_⟩
    · simp [Brief, hd]
    · exact verdict.mono (.refl p) (.of_entries entries)
  | @ending q r brief verdict =>
    subst hq
    obtain ⟨effect, verdict⟩ := (brief.1 st).effect proper verdict
    exact ⟨effect, .ending (brief.2 st) verdict⟩

/-- A lookup that ceases to be a user of the lock is `present`. -/
theorem At.of_depart {pos : Position} {r : Outcome} (h : At k pos (depart k.slot r)) :
    pos = .present := by
  let shared : State :=
    { State.initial Level.info false with
      cache := { Cache.empty false 1 with users := [(k.slot, 2)] } }
  have leaves {f : State → State} {next : State → Task I} (hf : depart k.slot r = .update f next) :
      Assoc.get? k.slot (f shared).cache.users = some 1 := by
    cases hf
    simp [changing, leave?, shared, Assoc.get?]
  generalize hq : depart k.slot r = q at h
  cases h with
  | called => rw [program_eq] at hq; simpa [shared, Assoc.get?] using leaves hq
  | found e => cases e <;> simpa [marking, shared, Assoc.get?] using leaves hq
  | entering => simpa [changing, join, shared, Assoc.get?] using leaves hq
  | departing => rfl
  | @working l q outside =>
    obtain ⟨r', rfl, hr⟩ | ⟨next', rfl, -⟩ := bind_eq_update hq.symm
    · cases hr
    · have kept := leaves hq
      rw [(outside.1 shared).2.1] at kept
      simp [shared, Assoc.get?] at kept
  | _ => cases hq

/-- A lookup waits for the world only inside its loader. -/
theorem Course.of_await {call : I.Call} {next : Wake (I.Reply call) → Task I}
    (h : Course k p c (.await call next)) :
    p.begun ∧ c.Vacant k.slot ∧ ∃ (l : LockId) (next' : Wake (I.Reply call) → _),
      (∀ w, LoaderPart k (next' w)) ∧ next = fun w => (next' w).bind (wrapUp k.slot l) := by
  generalize hq : Program.await call next = q at h
  cases h with
  | called => rw [program_eq] at hq; cases hq
  | inside l => rw [inside_eq] at hq; cases hq
  | @loading l q part begun vacant =>
    cases q with
    | done r => rcases r with (e | e | _) | x <;> cases hq
    | await call' next' =>
      cases hq
      exact ⟨begun, vacant, l, next', fun w => part.next (.await call next' w), rfl⟩
    | _ => cases hq
  | @handing l q r brief => cases q <;> cases hq; exact brief.elim
  | ending brief => subst hq; exact brief.elim
  | _ => cases hq

/-- It is the same with what is answered at once. -/
theorem Course.of_ask {call : I.Call} {next : I.Reply call → Task I}
    (h : Course k p c (.ask call next)) (x : I.Reply call) : Course k p c (next x) := by
  generalize hq : Program.ask call next = q at h
  cases h with
  | called => rw [program_eq] at hq; cases hq
  | inside l => rw [inside_eq] at hq; cases hq
  | @loading l q part begun vacant =>
    cases q with
    | done r => rcases r with (e | e | _) | x <;> cases hq
    | ask call' next' =>
      cases hq
      exact .loading l (part.next (.ask call next' x)) begun vacant
    | _ => cases hq
  | @handing l q r brief => cases q <;> cases hq; exact brief.elim
  | ending brief => subst hq; exact brief.elim
  | _ => cases hq

/-- Who gives the lock back has an outcome to leave with. -/
theorem Course.of_release {l : LockId} {next : Unit → Task I} (h : Course k p c (.release l next))
    (notes : Notes k p (.release l next)) : Course k p c (next ()) := by
  generalize hq : Program.release l next = q at h notes
  cases h with
  | called => rw [program_eq] at hq; cases hq
  | inside l => rw [inside_eq] at hq; cases hq
  | @loading m q part begun vacant =>
    have outside := k.outside.of_parts part
    cases q with
    | done r =>
      have made := notes.made m r begun part rfl
      rcases r with (e | e | _) | x <;> cases hq
      · exact .departing (.settled (.loaded made) vacant)
      · exact .departing (.settled (.loaded made) vacant)
    | release => exact outside.elim
    | _ => cases hq
  | @handing m q r brief verdict =>
    cases q <;> cases hq
    · cases brief
      exact .departing verdict
    · exact brief.elim
  | ending brief => subst hq; exact brief.elim
  | _ => cases hq

/-- Who ends does so with an outcome. -/
theorem Course.of_done {r : Outcome} (h : Course k p c (.done r)) : Verdict p c k.slot r := by
  generalize hq : Program.done r = q at h
  cases h with
  | called => rw [program_eq] at hq; cases hq
  | inside l => rw [inside_eq] at hq; cases hq
  | @loading m q =>
    cases q with
    | done r => rcases r with (e | e | _) | x <;> cases hq
    | _ => cases hq
  | @handing m q => cases q <;> cases hq
  | ending brief verdict =>
    subst hq
    cases brief
    exact verdict
  | _ => cases hq

theorem Rests.of_verdict {r : Outcome} (h : Verdict p c k.slot r) :
    Rests k p c (.ended r : Standing State I γ Outcome) := by
  cases h with
  | settled source admits =>
    refine .ended (.inl source) ?_
    rintro x rfl
    exact admits
  | cancelled h => exact .ended (.inr ⟨h, rfl⟩) nofun

/-- A step that marks a miss is the one before the loader. -/
theorem Course.vacant_of_missing {l : LockId} (h : Course k p c (k.missing l)) :
    c.Vacant k.slot := by
  let blank : State := .initial Level.info false
  have marks {f : State → State} {next : State → Task I} (hf : k.missing l = .update f next) :
      (f blank).tally.count (.lookup k.slot.map .miss) = 1 := by
    cases hf
    simp [marking, Tally.add, blank, State.initial]
  have loud {r : Outcome} {f : State → State} (hf : ∀ s, Recording k.slot r s (f s)) :
      (f blank).tally.count (.lookup k.slot.map .miss) = 0 := (hf blank).quiet
  generalize hq : k.missing l = q at h
  cases h with
  | called => rw [program_eq] at hq; cases marks hq
  | entering => cases marks hq
  | taking => cases hq
  | inside m => rw [inside_eq] at hq; cases marks hq
  | missing m vacant => exact vacant
  | loading m part begun vacant => exact vacant
  | @handing m q r brief =>
    obtain ⟨r', rfl, hr⟩ | ⟨next', rfl, -⟩ := bind_eq_update hq.symm
    · cases hr
    · cases (loud brief.1).symm.trans (marks hq)
  | departing => cases marks hq
  | ending brief =>
    subst hq
    cases (loud brief.1).symm.trans (marks rfl)

end

end Lookup

end Cache
end Registrar
