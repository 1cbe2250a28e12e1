import Registrar.Proofs.Cache.Courses
import Registrar.Proofs.Cache.SingleFlight

/-!
# The marks of a lookup

A lookup marks how it ended, and when its loader ended with an error it marks that. `Emits` names
the points of its program at which it makes such a mark. `Trail` says for each point which marks it
has made before, and `Tracks` the same of a lookup wherever it stands: nothing as long as it has not
found an entry and its loader has not started, and from then on one mark for the lookup and at most
one for an error. A lookup that is cancelled before it goes inside the lock makes none. Which marks
go with which outcome is said by `Closed`.

Loaders and others may do what they like to the tally as long as they leave these marks alone.
-/

namespace Registrar

/-- The marks that concern the resolution cache. -/
def Mark.OfCache : Mark → Prop
  | .lookup _ _ | .failure _ => True
  | .request _ _ | .duration _ => False

/-- The marks that concern the resolution cache are the same. -/
def SameMarks (s t : State) : Prop := ∀ x : Mark, x.OfCache → t.tally.count x = s.tally.count x

/-- How a lookup ends that finds this entry. -/
def Entry.ending : Entry → LookupEnd
  | .schema _ => .hit
  | .error _ => .errorHit

namespace Cache

open Lookup Moment

variable {I : Interface} {γ : Type}

/-- What others do: they may drop the errors or all entries, and they leave the marks of the cache
alone. -/
structure Aloof (s t : State) : Prop where
  foreign : Foreign s t
  marks : SameMarks s t

namespace Lookup

/-! ## Marks -/

theorem count_marking (x : Mark) (y : Mark) (st : State) :
    (marking x st).tally.count y = st.tally.count y + [x].count y :=
  List.count_append ..

/-- The lookup makes the mark with its next step, at a point at which it starts its loader, has
found an entry, or has its loader ended with an error. -/
inductive Emits (k : Lookup I) : Task I → Mark → Prop where
  | missing (l : LockId) : Emits k (k.missing l) (.lookup k.slot.map .miss)
  | found (e : Entry) : Emits k (found k.slot e) (.lookup k.slot.map e.ending)
  | foundInside (l : LockId) (e : Entry) :
    Emits k ((found k.slot e).bind (giveBack k.slot l)) (.lookup k.slot.map e.ending)
  | failure (l : LockId) {f : ResolutionError}
    (part : LoaderPart k (.done (.error (.resolution f)))) :
    Emits k (wrapUp k.slot l (.error (.resolution f))) (.failure f.category)

theorem Emits.update {k : Lookup I} {q : Task I} {x : Mark} (h : Emits k q x) :
    x.OfCache ∧ ∃ next, q = .update (marking x) next := by
  cases h with
  | missing l => exact ⟨trivial, _, rfl⟩
  | found e => cases e <;> exact ⟨trivial, _, rfl⟩
  | foundInside l e => cases e <;> exact ⟨trivial, _, rfl⟩
  | failure l part => exact ⟨trivial, _, rfl⟩

/-- Keeping a schema makes no mark. -/
theorem brief_store (s : Slot) (x : RegisteredSchema) :
    Brief SameMarks (.ok x) (record s (.ok x) : Routine I _).run :=
  ⟨fun _ _ _ => rfl, fun _ => rfl⟩

/-- Recording an error makes one mark, and that at once. -/
theorem record_error (s : Slot) (f : ResolutionError) :
    ∃ next, (record s (.error (.resolution f)) : Routine I _).run =
      .update (marking (.failure f.category)) next ∧
        ∀ st, Brief SameMarks (.error (.resolution f)) (next st) := by
  refine ⟨_, rfl, fun st => ⟨fun _ _ _ => rfl, fun st' => ?_⟩⟩
  show Brief _ _ (Program.bind (ExceptT.run (if _ then _ else _)) _)
  split
  · exact ⟨fun _ _ _ => rfl, fun _ => ⟨fun _ _ _ => rfl, fun _ => rfl⟩⟩
  · exact ⟨fun _ _ _ => rfl, fun _ => rfl⟩

/-! ## Trails -/

/-- What has happened to a lookup: whether it was cancelled before it went inside the lock, and what
was kept at its slot. -/
structure Lore where
  balked : Prop
  kept : Entry → Prop

/-- Nothing is forgotten, and the lookup has not been cancelled meanwhile. -/
structure Lore.Grows (h h' : Lore) : Prop where
  balked : h.balked ↔ h'.balked
  kept : ∀ e, h.kept e → h'.kept e

/-- The marks of a lookup that is going to end with an outcome and to make no more. -/
inductive Closed (k : Lookup I) (h : Lore) : List Mark → Outcome → Prop where
  | balked (balked : h.balked) : Closed k h [] (.error .cancelled)
  | served (fresh : ¬ h.balked) {e : Entry} (kept : h.kept e) :
    Closed k h [.lookup k.slot.map e.ending] e.outcome
  | loaded (fresh : ¬ h.balked) {r : Outcome} (other : ∀ f, r ≠ .error (.resolution f)) :
    Closed k h [.lookup k.slot.map .miss] r
  | failed (fresh : ¬ h.balked) (f : ResolutionError) :
    Closed k h [.lookup k.slot.map .miss, .failure f.category] (.error (.resolution f))

/-- `Trail k h ms q`: the lookup has its turn, or is ready for it, at `q` and has made the marks
`ms` before. -/
inductive Trail (k : Lookup I) (h : Lore) : List Mark → Task I → Prop where
  | called (fresh : ¬ h.balked) : Trail k h [] k.program
  | found (fresh : ¬ h.balked) {e : Entry} (kept : h.kept e) : Trail k h [] (found k.slot e)
  | entering (fresh : ¬ h.balked) : Trail k h [] k.enter
  | taking (fresh : ¬ h.balked) (l : LockId) : Trail k h [] (k.take l)
  | inside (fresh : ¬ h.balked) (l : LockId) : Trail k h [] (k.inside l)
  | foundInside (fresh : ¬ h.balked) (l : LockId) {e : Entry} (kept : h.kept e) :
    Trail k h [] ((Lookup.found k.slot e).bind (giveBack k.slot l))
  | missing (fresh : ¬ h.balked) (l : LockId) : Trail k h [] (k.missing l)
  | loading (fresh : ¬ h.balked) (l : LockId) {q : Task I} (part : LoaderPart k q) :
    Trail k h [.lookup k.slot.map .miss] (q.bind (wrapUp k.slot l))
  | handing {ms : List Mark} (l : LockId) {q : Task I} {r : Outcome} (brief : Brief SameMarks r q)
    (closed : Closed k h ms r) : Trail k h ms (q.bind (giveBack k.slot l))
  | departing {ms : List Mark} {r : Outcome} (closed : Closed k h ms r) :
    Trail k h ms (depart k.slot r)
  | ending {ms : List Mark} {r : Outcome} (closed : Closed k h ms r) : Trail k h ms (.done r)

/-- `Tracks k h ms x`: the lookup stands at `x` and has made the marks `ms` before. -/
inductive Tracks (k : Lookup I) (h : Lore) : List Mark → Standing State I γ Outcome → Prop where
  | ready {ms : List Mark} {q : Task I} (trail : Trail k h ms q) : Tracks k h ms (.ready q)
  | waiting (fresh : ¬ h.balked) (l : LockId) :
    Tracks k h [] (.waiting l (k.inside l) (depart k.slot (.error .cancelled)))
  | granted (fresh : ¬ h.balked) (l : LockId) :
    Tracks k h [] (.awake (some l) (k.inside l) (depart k.slot (.error .cancelled)))
  | held (fresh : ¬ h.balked) (g : γ) (l : LockId) {q q' : Task I} (part : LoaderPart k q)
    (part' : LoaderPart k q') :
    Tracks k h [.lookup k.slot.map .miss]
      (.held g (q.bind (wrapUp k.slot l)) (q'.bind (wrapUp k.slot l)))
  | opened (fresh : ¬ h.balked) (l : LockId) {q q' : Task I} (part : LoaderPart k q)
    (part' : LoaderPart k q') :
    Tracks k h [.lookup k.slot.map .miss]
      (.awake none (q.bind (wrapUp k.slot l)) (q'.bind (wrapUp k.slot l)))
  | ended {ms : List Mark} {r : Outcome} (closed : Closed k h ms r) : Tracks k h ms (.ended r)

section

variable {k : Lookup I} {h h' : Lore} {ms : List Mark} {q : Task I} {r : Outcome}
  {x y : Standing State I γ Outcome}

theorem Closed.mono (closed : Closed k h ms r) (grows : h.Grows h') : Closed k h' ms r := by
  have fresh' (fresh : ¬ h.balked) : ¬ h'.balked := fun b => fresh (grows.balked.2 b)
  cases closed with
  | balked b => exact .balked (grows.balked.1 b)
  | served fresh kept => exact .served (fresh' fresh) (grows.kept _ kept)
  | loaded fresh other => exact .loaded (fresh' fresh) other
  | failed fresh f => exact .failed (fresh' fresh) f

theorem Trail.mono (trail : Trail k h ms q) (grows : h.Grows h') : Trail k h' ms q := by
  have fresh' (fresh : ¬ h.balked) : ¬ h'.balked := fun b => fresh (grows.balked.2 b)
  cases trail with
  | called fresh => exact .called (fresh' fresh)
  | found fresh kept => exact .found (fresh' fresh) (grows.kept _ kept)
  | entering fresh => exact .entering (fresh' fresh)
  | taking fresh l => exact .taking (fresh' fresh) l
  | inside fresh l => exact .inside (fresh' fresh) l
  | foundInside fresh l kept => exact .foundInside (fresh' fresh) l (grows.kept _ kept)
  | missing fresh l => exact .missing (fresh' fresh) l
  | loading fresh l part => exact .loading (fresh' fresh) l part
  | handing l brief closed => exact .handing l brief (closed.mono grows)
  | departing closed => exact .departing (closed.mono grows)
  | ending closed => exact .ending (closed.mono grows)

theorem Tracks.mono (tracks : Tracks k h ms x) (grows : h.Grows h') : Tracks k h' ms x := by
  have fresh' (fresh : ¬ h.balked) : ¬ h'.balked := fun b => fresh (grows.balked.2 b)
  cases tracks with
  | ready trail => exact .ready (trail.mono grows)
  | waiting fresh l => exact .waiting (fresh' fresh) l
  | granted fresh l => exact .granted (fresh' fresh) l
  | held fresh g l part part' => exact .held (fresh' fresh) g l part part'
  | opened fresh l part part' => exact .opened (fresh' fresh) l part part'
  | ended closed => exact .ended (closed.mono grows)

/-- A lookup makes one mark for the lookup, or none, and besides it at most one for an error. -/
def Shape (k : Lookup I) (ms : List Mark) : Prop :=
  ms = [] ∨ (∃ e, ms = [.lookup k.slot.map e]) ∨ ∃ c, ms = [.lookup k.slot.map .miss, .failure c]

theorem Closed.shape (closed : Closed k h ms r) : k.Shape ms := by
  cases closed with
  | balked => exact .inl rfl
  | served fresh kept => exact .inr (.inl ⟨_, rfl⟩)
  | loaded fresh other => exact .inr (.inl ⟨.miss, rfl⟩)
  | failed fresh f => exact .inr (.inr ⟨_, rfl⟩)

theorem Tracks.shape (tracks : Tracks k h ms x) : k.Shape ms := by
  cases tracks with
  | ready trail =>
    cases trail with
    | loading => exact .inr (.inl ⟨.miss, rfl⟩)
    | handing l brief closed => exact closed.shape
    | departing closed => exact closed.shape
    | ending closed => exact closed.shape
    | _ => exact .inl rfl
  | held => exact .inr (.inl ⟨.miss, rfl⟩)
  | opened => exact .inr (.inl ⟨.miss, rfl⟩)
  | ended closed => exact closed.shape
  | _ => exact .inl rfl

/-- Who was cancelled before it went inside the lock has made no mark. -/
theorem Closed.of_balked (closed : Closed k h ms r) (balked : h.balked) : ms = [] := by
  cases closed with
  | balked => rfl
  | _ => exact absurd balked ‹_›

theorem Tracks.of_balked (tracks : Tracks k h ms x) (balked : h.balked) : ms = [] := by
  cases tracks with
  | ready trail =>
    cases trail with
    | loading fresh => exact absurd balked fresh
    | handing l brief closed => exact closed.of_balked balked
    | departing closed => exact closed.of_balked balked
    | ending closed => exact closed.of_balked balked
    | _ => rfl
  | held fresh => exact absurd balked fresh
  | opened fresh => exact absurd balked fresh
  | ended closed => exact closed.of_balked balked
  | _ => rfl

/-! ## The steps of a lookup -/

/-- What a step does to the tally: it makes the marks `new`, which are those of the point at which
the lookup is. -/
structure Marks (k : Lookup I) (q : Task I) (new : List Mark) (st st' : State) : Prop where
  count : ∀ y : Mark, y.OfCache → st'.tally.count y = st.tally.count y + new.count y
  once : new.Nodup
  emits : ∀ y ∈ new, Emits k q y

theorem Marks.of_same {st st' : State} (same : SameMarks st st') : Marks k q [] st st' :=
  ⟨same, List.nodup_nil, by simp⟩

theorem Marks.of_emits {st : State} {y : Mark} (emits : Emits k q y) :
    Marks k q [y] st (marking y st) :=
  ⟨fun x _ => count_marking y x st, List.nodup_singleton y, by simpa using emits⟩

/-- One change of the state by the lookup. -/
theorem Trail.update {f : State → State} {next : State → Task I}
    (trail : Trail k h ms (.update f next)) (quiet : Routine.Keeps SameMarks k.loader) (st : State)
    (kept : ∀ e, st.cache.find? k.slot = some e → h.kept e)
    (leaves : ∀ r, Program.update f next = depart k.slot r → ∃ d, st.cache.leave? k.slot = some d) :
    ∃ new, Marks k (.update f next) new st (f st) ∧ Trail k h (ms ++ new) (next st) := by
  generalize hq : Program.update f next = q at trail
  cases trail with
  | called fresh =>
    rw [program_eq] at hq
    cases hq
    refine ⟨[], .of_same fun _ _ => rfl, ?_⟩
    dsimp only
    cases hf : st.cache.find? k.slot with
    | none => exact .entering fresh
    | some e => exact .found fresh (kept e hf)
  | found fresh kept =>
    rename_i e
    have emits := Emits.found (k := k) e
    refine ⟨[.lookup k.slot.map e.ending], ?_, ?_⟩
    · cases e <;> cases hq <;> exact .of_emits emits
    · cases e <;> cases hq <;> exact .ending (.served fresh kept)
  | entering fresh =>
    cases hq
    exact ⟨[], .of_same fun _ _ => rfl, .taking fresh _⟩
  | taking => cases hq
  | inside fresh l =>
    rw [inside_eq] at hq
    cases hq
    refine ⟨[], .of_same fun _ _ => rfl, ?_⟩
    dsimp only
    cases hf : st.cache.find? k.slot with
    | none => exact .missing fresh l
    | some e => exact .foundInside fresh l (kept e hf)
  | foundInside fresh l kept =>
    rename_i e
    have emits := Emits.foundInside (k := k) l e
    refine ⟨[.lookup k.slot.map e.ending], ?_, ?_⟩
    · cases e <;> cases hq <;> exact .of_emits emits
    · cases e <;> cases hq <;> exact .handing l rfl (.served fresh kept)
  | missing fresh l =>
    have emits := Emits.missing (k := k) l
    cases hq
    exact ⟨_, .of_emits emits, .loading fresh l .refl⟩
  | @loading fresh l q part =>
    obtain ⟨r, rfl, hr⟩ | ⟨next', rfl, rfl⟩ := bind_eq_update hq.symm
    · obtain ⟨r', -, handed⟩ | ⟨next', record, rfl⟩ := bind_eq_update hr
      · cases handed
      · rcases r with (e | e | _) | x
        · obtain ⟨next'', same, brief⟩ := record_error (I := I) k.slot e
          cases same.symm.trans record
          exact ⟨_, .of_emits (.failure l part), .handing l (brief st) (.failed fresh e)⟩
        · cases record
        · cases record
        · have brief := brief_store (I := I) k.slot x
          rw [record] at brief
          have closed : Closed k h [.lookup k.slot.map .miss] (.ok x) := .loaded fresh (by simp)
          exact ⟨[], .of_same (brief.1 st), .handing l (brief.2 st) closed⟩
    · exact ⟨[], .of_same ((quiet.of_parts part).1 st),
        .loading fresh l (part.next (.update f next' st))⟩
  | @handing ms l q r brief closed =>
    obtain ⟨r', rfl, hr⟩ | ⟨next', rfl, rfl⟩ := bind_eq_update hq.symm
    · cases hr
    · refine ⟨[], .of_same (brief.1 st), ?_⟩
      rw [List.append_nil]
      exact .handing l (brief.2 st) closed
  | departing closed =>
    obtain ⟨d, hd⟩ := leaves _ hq
    cases hq
    refine ⟨[], .of_same fun _ _ => rfl, ?_⟩
    simpa [hd] using Trail.ending closed
  | ending => cases hq

/-- Where a lookup is that leaves the state alone with its next step: it takes the lock, its loader is
on the way or has just ended, it is about to give the lock back, or it has ended. -/
theorem Trail.still (trail : Trail k h ms q) (still : ∀ f next, q ≠ .update f next) :
    (∃ l, q = k.take l ∧ ms = [] ∧ ¬ h.balked) ∨
    (∃ l q', q = Program.bind q' (wrapUp k.slot l) ∧ LoaderPart k q' ∧
      ms = [.lookup k.slot.map .miss] ∧ ¬ h.balked) ∨
    (∃ l q' r, q = Program.bind q' (giveBack k.slot l) ∧ Brief SameMarks r q' ∧ Closed k h ms r) ∨
    ∃ r, q = .done r ∧ Closed k h ms r := by
  cases trail with
  | called => exact absurd k.program_eq (still _ _)
  | @found _ e => cases e <;> exact absurd rfl (still _ _)
  | entering => exact absurd rfl (still _ _)
  | taking fresh l => exact .inl ⟨l, rfl, rfl, fresh⟩
  | inside fresh l => exact absurd (k.inside_eq l) (still _ _)
  | @foundInside _ l e => cases e <;> exact absurd rfl (still _ _)
  | missing => exact absurd rfl (still _ _)
  | loading fresh l part => exact .inr (.inl ⟨l, _, rfl, part, rfl, fresh⟩)
  | handing l brief closed => exact .inr (.inr (.inl ⟨l, _, _, rfl, brief, closed⟩))
  | departing => exact absurd rfl (still _ _)
  | ending closed => exact .inr (.inr (.inr ⟨_, rfl, closed⟩))

/-- A lookup asks the world only inside its loader. -/
theorem Trail.of_ask {c : I.Call} {next : I.Reply c → Task I} (trail : Trail k h ms (.ask c next))
    (r : I.Reply c) : Trail k h ms (next r) := by
  obtain ⟨l, hq, -⟩ | ⟨l, q, hq, part, rfl, fresh⟩ | ⟨l, q, r', hq, brief, closed⟩ | ⟨r', hq, -⟩ :=
    trail.still (by simp)
  · cases hq
  · cases q with
    | done r => rcases r with (e | e | _) | x <;> cases hq
    | ask call next' =>
      cases hq
      exact .loading fresh l (part.next (.ask c next' r))
    | _ => cases hq
  · cases q <;> cases hq
    exact brief.elim
  · cases hq

/-- It waits for the world only there, too. -/
theorem Trail.of_await {c : I.Call} {next : Wake (I.Reply c) → Task I}
    (trail : Trail k h ms (.await c next)) :
    ms = [.lookup k.slot.map .miss] ∧ ¬ h.balked ∧ ∃ (l : LockId) (next' : Wake (I.Reply c) → _),
      (∀ w, LoaderPart k (next' w)) ∧ next = fun w => (next' w).bind (wrapUp k.slot l) := by
  obtain ⟨l, hq, -⟩ | ⟨l, q, hq, part, rfl, fresh⟩ | ⟨l, q, r', hq, brief, closed⟩ | ⟨r', hq, -⟩ :=
    trail.still (by simp)
  · cases hq
  · cases q with
    | done r => rcases r with (e | e | _) | x <;> cases hq
    | await call next' =>
      cases hq
      exact ⟨rfl, fresh, l, next', fun w => part.next (.await c next' w), rfl⟩
    | _ => cases hq
  · cases q <;> cases hq
    exact brief.elim
  · cases hq

/-- It takes a lock only before it goes inside. -/
theorem Trail.of_acquire {l : LockId} {next : Wake Unit → Task I}
    (trail : Trail k h ms (.acquire l next)) :
    ms = [] ∧ ¬ h.balked ∧ next (.value ()) = k.inside l ∧
      next .cancelled = depart k.slot (.error .cancelled) := by
  obtain ⟨m, hq, rfl, fresh⟩ | ⟨m, q, hq, part, rfl, fresh⟩ | ⟨m, q, r', hq, brief, closed⟩ |
    ⟨r', hq, -⟩ := trail.still (by simp)
  · cases hq
    exact ⟨rfl, fresh, rfl, rfl⟩
  · have outside := k.outside.of_parts part
    cases q with
    | done r => rcases r with (e | e | _) | x <;> cases hq
    | acquire => exact outside.elim
    | _ => cases hq
  · cases q <;> cases hq
    exact brief.elim
  · cases hq

/-- It gives the lock back when it has made its marks. -/
theorem Trail.of_release {l : LockId} {next : Unit → Task I}
    (trail : Trail k h ms (.release l next)) : Trail k h ms (next ()) := by
  obtain ⟨m, hq, -⟩ | ⟨m, q, hq, part, rfl, fresh⟩ | ⟨m, q, r, hq, brief, closed⟩ | ⟨r, hq, -⟩ :=
    trail.still (by simp)
  · cases hq
  · have outside := k.outside.of_parts part
    cases q with
    | done r =>
      rcases r with (e | e | _) | x <;> cases hq <;> exact .departing (.loaded fresh (by simp))
    | release => exact outside.elim
    | _ => cases hq
  · cases q with
    | done r' =>
      obtain rfl := brief
      cases hq
      exact .departing closed
    | release => exact brief.elim
    | _ => cases hq
  · cases hq

/-- Who ends has made its marks. -/
theorem Trail.of_done (trail : Trail k h ms (.done r)) : Closed k h ms r := by
  obtain ⟨l, hq, -⟩ | ⟨l, q, hq, -⟩ | ⟨l, q, r', hq, -⟩ | ⟨r', hq, closed⟩ :=
    trail.still (by simp)
  · cases hq
  · cases q with
    | done r => rcases r with (e | e | _) | x <;> cases hq
    | _ => cases hq
  · cases q <;> cases hq
  · cases hq
    exact closed

/-- One step of the lookup whose turn it is. The marks that it makes with the step are those of the
point at which it is. -/
theorem Trail.took {st st' : State} (trail : Trail k h ms q)
    (quiet : Routine.Keeps SameMarks k.loader)
    (kept : ∀ e, st.cache.find? k.slot = some e → h.kept e)
    (leaves : ∀ r, q = depart k.slot r → ∃ d, st.cache.leave? k.slot = some d)
    (took : Took st st' q x) :
    ∃ new, Marks k q new st st' ∧ Tracks k h (ms ++ new) x := by
  have nothing (same : st' = st) (tracks : Tracks k h ms x) :
      ∃ new, Marks k q new st st' ∧ Tracks k h (ms ++ new) x :=
    ⟨[], .of_same (same ▸ fun _ _ => rfl), by simpa using tracks⟩
  cases took with
  | update same =>
    subst same
    obtain ⟨new, marks, trail⟩ := trail.update quiet st kept leaves
    exact ⟨new, marks, .ready trail⟩
  | ask r same => exact nothing same (.ready (trail.of_ask r))
  | await r same =>
    obtain ⟨rfl, fresh, l, next', part, rfl⟩ := trail.of_await
    exact nothing same (.ready (.loading fresh l (part _)))
  | hold r g same =>
    obtain ⟨rfl, fresh, l, next', part, rfl⟩ := trail.of_await
    exact nothing same (.held fresh g l (part _) (part _))
  | acquire same =>
    obtain ⟨rfl, fresh, inside, -⟩ := trail.of_acquire
    exact nothing same (inside ▸ .ready (.inside fresh _))
  | wait same =>
    obtain ⟨rfl, fresh, inside, departs⟩ := trail.of_acquire
    exact nothing same (inside ▸ departs ▸ .waiting fresh _)
  | release same => exact nothing same (.ready trail.of_release)
  | done same => exact nothing same (.ended trail.of_done)

/-- What a step makes is made by the point at which the lookup is, and nothing else is. -/
theorem Marks.emits_iff {st st' : State} {new : List Mark} (marks : Marks k q new st st')
    (took : Took st st' q x) (y : Mark) : Emits k q y ↔ y ∈ new := by
  refine ⟨fun emits => ?_, marks.emits y⟩
  obtain ⟨cached, next, rfl⟩ := emits.update
  cases took with
  | update same =>
    have once := marks.count y cached
    rw [same, count_marking] at once
    exact List.count_pos_iff.1 (by simp at once; omega)

/-! ## Other steps -/

/-- Where a step of somebody else leaves a lookup that it does not cancel. -/
theorem Tracks.goes {m m' : Flight I γ} {t : TaskId} (tracks : Tracks k h ms x)
    (goes : Goes m m' t x y) (spared : ¬ m.Cancels m' t) : Tracks k h ms y := by
  cases goes with
  | stays => exact tracks
  | opened =>
    cases tracks with
    | held fresh g l part part' => exact .opened fresh l part part'
  | granted =>
    cases tracks with
    | waiting fresh => exact .granted fresh _
  | cancelled _ cancels => exact absurd cancels spared

/-- Whether a lookup has not gone inside the lock for which it has come. -/
def Balks : Standing State I γ Outcome → Prop
  | .waiting _ _ _ | .awake (some _) _ _ => True
  | _ => False

/-- Where it is left when it is cancelled. -/
theorem Tracks.withdrawn (tracks : Tracks k h ms x) (hy : x.withdrawn? = some y)
    (balked : h'.balked ↔ h.balked ∨ Balks x) : Tracks k h' ms y := by
  have fresh' (fresh : ¬ h.balked) (inside : ¬ Balks x) : ¬ h'.balked := by
    rw [balked]
    exact not_or.2 ⟨fresh, inside⟩
  cases tracks with
  | waiting fresh l =>
    cases hy
    exact .ready (.departing (.balked (balked.2 (.inr trivial))))
  | granted fresh l =>
    cases hy
    exact .ready (.handing (q := .done _) l rfl (.balked (balked.2 (.inr trivial))))
  | held fresh g l part part' =>
    cases hy
    exact .ready (.loading (fresh' fresh id) l part')
  | opened fresh l part part' =>
    cases hy
    exact .ready (.loading (fresh' fresh id) l part')
  | _ => cases hy

/-- Who is given its turn goes on with its trail. -/
theorem Tracks.trail {s : System State I γ Outcome} {t : TaskId} (tracks : Tracks k h ms x)
    (hx : s.tasks[t]? = some x) (turn : s.turn? t = some q) : Trail k h ms q := by
  unfold System.turn? at turn
  rw [hx] at turn
  cases tracks with
  | ready trail => cases turn; exact trail
  | granted fresh l => cases turn; exact .inside fresh l
  | opened fresh l part part' => cases turn; exact .loading fresh l part
  | _ => cases turn

end

end Lookup

end Cache

end Registrar
