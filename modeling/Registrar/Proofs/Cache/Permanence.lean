import Registrar.Proofs.Cache.Courses
import Registrar.Proofs.Cache.SingleFlight

/-!
# The permanence of resolutions

Any number of lookups are under way in one cache, and nothing but errors is ever removed from it.
Once a lookup for a slot has given a schema, no loader is started for the slot any more, and whoever
looks it up, then or already waiting, gets that schema unless it is cancelled. Whatever a lookup
gives was made by a loader that ran for its own slot, or is the cached copy of an error that was.

A loader is started where the lookup marks a miss. What has happened is read off the run, the list
of all moments so far; `Sound` is the invariant, which says where each lookup is on its course.
-/

namespace Registrar.Cache

open Lookup Moment

variable {I : Interface} {γ : Type}

theorem Pruning.foreign {s t : State} (h : Pruning s t) : Foreign s t := by
  rcases h with h | h
  · exact .same h
  · exact .removal h

namespace Flight

/-! ## What has happened -/

/-- The task `t`, which came for a slot, marks a miss and starts its loader. -/
def Starts (m : Flight I γ) (s : Slot) (t : TaskId) : Prop :=
  m.turn = some t ∧ ∃ k l, m.calls[t]? = some k ∧ k.slot = s ∧
    m.system.tasks[t]? = some (.ready (k.missing l))

/-- The loader that the task `t` brought for a slot has ended with `r`. -/
def Finishes (m : Flight I γ) (s : Slot) (t : TaskId) (r : Outcome) : Prop :=
  m.turn = some t ∧ ∃ k l, m.calls[t]? = some k ∧ k.slot = s ∧ LoaderPart k (.done r) ∧
    m.system.tasks[t]? = some (.ready (wrapUp k.slot l r))

/-- The task `t`, which came for a slot, has ended with `r`. -/
def Returned (m : Flight I γ) (s : Slot) (t : TaskId) (r : Outcome) : Prop :=
  ∃ k, m.calls[t]? = some k ∧ k.slot = s ∧ m.system.tasks[t]? = some (.ended r)

section

variable (run : List (Flight I γ))

/-- The task `t` has started its loader for a slot. -/
def Begun (s : Slot) (t : TaskId) : Prop := ∃ m ∈ run, m.Starts s t

/-- A loader that was started for a slot has ended with `r`. -/
def Made (s : Slot) (r : Outcome) : Prop :=
  ∃ m before t, m :: before <:+ run ∧ Begun (m :: before) s t ∧ m.Finishes s t r

/-- What the task `t`, which came for a slot, sees of the run. -/
def past (s : Slot) (t : TaskId) : Past := ⟨Begun run s t, Cancelled run t, Made run s⟩

variable {run}

theorem past_grows (m : Flight I γ) (s : Slot) (t : TaskId) :
    (past run s t).Grows (past (m :: run) s t) where
  begun := fun ⟨m', mem, starts⟩ => ⟨m', .tail _ mem, starts⟩
  cancelled h := h.cons m
  made := fun _ ⟨m', before, u, suffix, begun, finishes⟩ =>
    ⟨m', before, u, suffix.trans (List.suffix_cons ..), begun, finishes⟩

/-- The last moment of the run tells where the lookup is that has its turn. -/
theorem notes_past {m : Flight I γ} {t : TaskId} {k : Lookup I} {q : Task I}
    (turn : m.turn = some t) (hk : m.calls[t]? = some k)
    (hq : m.system.tasks[t]? = some (.ready q)) : Notes k (past (m :: run) k.slot t) q where
  begun l hl := ⟨m, .head _, turn, k, l, hk, rfl, hl ▸ hq⟩
  made l _ begun part hr :=
    ⟨m, run, t, List.suffix_refl _, begun, turn, k, l, hk, rfl, part, hr ▸ hq⟩

end

/-! ## The invariant -/

/-- Every lookup is on its course, what the cache keeps came from loaders, and no schema that it
kept is missing. -/
structure Sound (run : List (Flight I γ)) (m : Flight I γ) : Prop where
  seated : ∃ seats, Seated m seats
  proper : m.system.state.cache.Proper
  sources : ∀ e ∈ m.system.state.cache.entries, Sourced (Made run e.1) e.2.outcome
  kept : ∀ m₀ ∈ run, ∀ s x, m₀.system.state.cache.find? s = some (.schema x) →
    m.system.state.cache.find? s = some (.schema x)
  running : ∀ t, m.turn = some t → ∃ k q, m.calls[t]? = some k ∧
    m.system.tasks[t]? = some (.ready q) ∧
    Course k (past run k.slot t) m.system.state.cache q
  resting : ∀ (t : TaskId) k x, m.turn ≠ some t → m.calls[t]? = some k →
    m.system.tasks[t]? = some x → Rests k (past run k.slot t) m.system.state.cache x

/-- What a step does to the schemas of the cache: nothing, unless a lookup whose loader has ended
keeps what it gave. -/
def Adds (m m' : Flight I γ) : Prop :=
  SameSchemas m.system.state.cache m'.system.state.cache ∨
    ∃ t k x y, m.turn = some t ∧ m.calls[t]? = some k ∧ m.system.tasks[t]? = some x ∧ Loading k x ∧
      m.system.state.cache.Vacant k.slot ∧
      m'.system.state.cache = m.system.state.cache.store k.slot (.schema y)

section

variable {m m' : Flight I γ} {run before : List (Flight I γ)} {seats : List Seat}

/-- Whoever loads for a slot is alone with it. -/
theorem Seated.loads_unique (h : Seated m seats) {s : Slot} {t u : TaskId} (ht : m.Loads s t)
    (hu : m.Loads s u) : t = u := by
  obtain ⟨l, hl, held⟩ := h.of_loads ht
  obtain ⟨l', hl', held'⟩ := h.of_loads hu
  obtain rfl := Option.some.inj (hl.symm.trans hl')
  exact Option.some.inj (held.symm.trans held')

/-- Schemas are never replaced. -/
theorem Adds.kept (h : m.Adds m') {s : Slot} {x : RegisteredSchema}
    (hx : m.system.state.cache.find? s = some (.schema x)) :
    m'.system.state.cache.find? s = some (.schema x) := by
  obtain same | ⟨t, k, -, y, -, -, -, -, vacant, stored⟩ := h
  · exact (same s x).2 hx
  · have ne : s ≠ k.slot := by
      rintro rfl
      exact vacant x hx
    rw [stored]
    exact (Assoc.get?_put_of_ne ne ..).trans hx

/-- A slot for which somebody else loads stays vacant. -/
theorem Adds.vacant (h : m.Adds m') (seated : Seated m seats) {t : TaskId} {k : Lookup I}
    {x : Standing State I γ Outcome} (turn : m.turn ≠ some t) (hk : m.calls[t]? = some k)
    (hx : m.system.tasks[t]? = some x) (loading : Loading k x)
    (vacant : m.system.state.cache.Vacant k.slot) : m'.system.state.cache.Vacant k.slot := by
  obtain same | ⟨u, k', x', y, turn', hk', hx', loading', -, stored⟩ := h
  · exact same.vacant vacant
  · have ne : k.slot ≠ k'.slot := fun e =>
      turn (turn'.trans (congrArg some (seated.loads_unique
        ⟨k', x', hk', hx', e.symm, loading'⟩ ⟨k, x, hk, hx, rfl, loading⟩)))
    intro z hz
    rw [stored] at hz
    exact vacant z ((Assoc.get?_put_of_ne ne ..).symm.trans hz)

/-- Who takes a lock goes inside. -/
theorem Sound.acquires (h : Sound run m) {t : TaskId} {k : Lookup I}
    {l : LockId} {next : Wake Unit → Task I}
    (hp : m.system.tasks[t]? = some (.ready (.acquire l next))) (hk : m.calls[t]? = some k) :
    next (.value ()) = k.inside l ∧ next .cancelled = depart k.slot (.error .cancelled) := by
  obtain ⟨seats, seated⟩ := h.seated
  obtain ⟨k', pos, hk', -, hat⟩ := seated.at_turn hp
  obtain rfl := Option.some.inj (hk'.symm.trans hk)
  exact hat.of_acquire.2

/-- Who ceases to be a user of a lock was one. -/
theorem Seated.leaves (h : Seated m seats) {t : TaskId} {k : Lookup I}
    {q : Task I} (hq : m.system.tasks[t]? = some (.ready q)) (hk : m.calls[t]? = some k)
    (r : Outcome) (departs : q = depart k.slot r) :
    ∃ c, m.system.state.cache.leave? k.slot = some c := by
  obtain ⟨k', pos, hk', hs, hat⟩ := h.at_turn hq
  obtain rfl := Option.some.inj (hk'.symm.trans hk)
  obtain rfl := (departs ▸ hat).of_depart
  obtain ⟨c, left, -⟩ := h.booked.leave hs
  exact ⟨c, left⟩

variable [DecidableEq γ]

/-- A lookup that has no turn before and after the step rests. -/
theorem Sound.rests (h : Sound (m :: before) m) (step : Step Lookup.program Pruning m m')
    (adds : m.Adds m') {t : TaskId} {k : Lookup I} {x : Standing State I γ Outcome}
    (turn : m.turn ≠ some t) (turn' : m'.turn ≠ some t) (hk : m'.calls[t]? = some k)
    (hx : m'.system.tasks[t]? = some x) :
    Rests k (past (m' :: m :: before) k.slot t) m'.system.state.cache x := by
  obtain ⟨seats, seated⟩ := h.seated
  cases hy : m.system.tasks[t]? with
  | none =>
    obtain ⟨-, ht, k', rfl, rfl⟩ := step.new hy hx
    obtain rfl : k' = k := by simpa [ht, ← seated.called] using hk
    exact .called
  | some y =>
    obtain ⟨k', -, hk', -, -⟩ := seated.stands t y hy
    obtain rfl := Option.some.inj ((step.calls hk').symm.trans hk)
    obtain ⟨x', hx', goes⟩ := step.others turn turn' hy
    obtain rfl := Option.some.inj (hx'.symm.trans hx)
    have rests : Rests k' (past (m' :: m :: before) k'.slot t) m'.system.state.cache y :=
      (h.resting t k' y turn hk' hy).mono (past_grows m' ..) (fun _ => adds.kept)
        (adds.vacant seated turn hk' hy)
    cases goes with
    | stays => exact rests
    | opened => exact rests.open
    | granted => exact rests.grant
    | cancelled hy cancels =>
      exact rests.withdrawn hy ⟨m, m', before, List.suffix_refl _, cancels⟩

/-- The invariant after a step, from what the step does to the cache and to the lookup that has its
turn. -/
theorem Sound.next (h : Sound (m :: before) m) (step : Step Lookup.program Pruning m m')
    (adds : m.Adds m') (proper : m'.system.state.cache.Proper)
    (sources : ∀ e ∈ m'.system.state.cache.entries, e ∈ m.system.state.cache.entries ∨
      Sourced (Made (m :: before) e.1) e.2.outcome)
    (running : ∀ t, m'.turn = some t → ∃ k q, m'.calls[t]? = some k ∧
      m'.system.tasks[t]? = some (.ready q) ∧
      Course k (past (m :: before) k.slot t) m'.system.state.cache q)
    (stopped : ∀ (t : TaskId), m.turn = some t → m'.turn ≠ some t → ∃ k x, m'.calls[t]? = some k ∧
      m'.system.tasks[t]? = some x ∧
      Rests k (past (m :: before) k.slot t) m'.system.state.cache x) :
    Sound (m' :: m :: before) m' where
  seated := by
    obtain ⟨seats, seated⟩ := h.seated
    exact seated.step (step.mono fun _ _ h => h.foreign)
  proper := proper
  sources e he := by
    have made : ∀ r, Made (m :: before) e.1 r → Made (m' :: m :: before) e.1 r :=
      (past_grows m' e.1 0).made
    rcases sources e he with old | new
    · exact (h.sources e old).mono made
    · exact new.mono made
  kept m₀ mem s x hx := by
    rcases List.mem_cons.1 mem with rfl | mem
    · exact hx
    · exact adds.kept (h.kept m₀ mem s x hx)
  running t ht := by
    obtain ⟨k, q, hk, hq, course⟩ := running t ht
    exact ⟨k, q, hk, hq, course.mono (past_grows m' ..) fun _ _ => .rfl⟩
  resting t k x ht hk hx := by
    by_cases turn : m.turn = some t
    · obtain ⟨k', x', hk', hx', rests⟩ := stopped t turn ht
      obtain rfl := Option.some.inj (hk'.symm.trans hk)
      obtain rfl := Option.some.inj (hx'.symm.trans hx)
      exact rests.mono (past_grows m' ..) (fun _ => id) fun _ => id
    · exact h.rests step adds turn ht hk hx

/-- A step between turns that leaves the cache alone. -/
theorem Sound.between (h : Sound (m :: before) m) (step : Step Lookup.program Pruning m m')
    (turn : m.turn = none) (turn' : m'.turn = none) (state : m'.system.state = m.system.state) :
    Sound (m' :: m :: before) m' := by
  refine h.next step (.inl ?_) ?_ ?_ ?_ ?_
  · exact .of_entries (by rw [state])
  · rw [state]
    exact h.proper
  · rw [state]
    exact fun e he => .inl he
  · simp [turn']
  · simp [turn]

/-- The lookup that has its turn goes on and leaves the cache alone. -/
theorem Sound.goesOn {cs : List (Lookup I)} {s s' : System State I γ Outcome} {t : TaskId}
    (h : Sound (⟨cs, s, some t⟩ :: before) ⟨cs, s, some t⟩) {p q : Task I}
    (step : Step Lookup.program Pruning ⟨cs, s, some t⟩ ⟨cs, s'.goOn t q, some t⟩)
    (hp : s.tasks[t]? = some (.ready p)) (length : s'.tasks.length = s.tasks.length)
    (state : s'.state = s.state)
    (course : ∀ k, cs[t]? = some k → Course k (past (⟨cs, s, some t⟩ :: before) k.slot t)
      s.state.cache p → Notes k (past (⟨cs, s, some t⟩ :: before) k.slot t) p →
      Course k (past (⟨cs, s, some t⟩ :: before) k.slot t) s.state.cache q) :
    Sound (⟨cs, s'.goOn t q, some t⟩ :: ⟨cs, s, some t⟩ :: before) ⟨cs, s'.goOn t q, some t⟩ := by
  have lt : t < s'.tasks.length := length ▸ (List.getElem?_eq_some_iff.1 hp).1
  obtain ⟨k, p', hk, hp', here⟩ := h.running t rfl
  obtain rfl : p' = p := by simpa using hp'.symm.trans hp
  refine h.next step (.inl ?_) ?_ ?_ ?_ ?_
  · exact .of_entries (by simp [System.goOn, state])
  · simpa [System.goOn, state] using h.proper
  · simp +contextual [System.goOn, state]
  · rintro u ⟨⟩
    refine ⟨k, q, hk, by simp [System.goOn, lt], ?_⟩
    simpa [System.goOn, state] using course k hk here (notes_past rfl hk hp)
  · rintro u ⟨⟩ other
    exact absurd rfl other

/-- The turn of a lookup ends and leaves the cache alone. -/
theorem Sound.stops {cs : List (Lookup I)} {s s' : System State I γ Outcome} {t : TaskId}
    (h : Sound (⟨cs, s, some t⟩ :: before) ⟨cs, s, some t⟩) {p : Task I}
    {x : Standing State I γ Outcome}
    (step : Step Lookup.program Pruning ⟨cs, s, some t⟩ ⟨cs, s', none⟩)
    (hp : s.tasks[t]? = some (.ready p)) (tasks : s'.tasks = s.tasks.set t x)
    (state : s'.state = s.state)
    (rests : ∀ k, cs[t]? = some k → Course k (past (⟨cs, s, some t⟩ :: before) k.slot t)
      s.state.cache p → Rests k (past (⟨cs, s, some t⟩ :: before) k.slot t) s.state.cache x) :
    Sound (⟨cs, s', none⟩ :: ⟨cs, s, some t⟩ :: before) ⟨cs, s', none⟩ := by
  obtain ⟨k, p', hk, hp', here⟩ := h.running t rfl
  obtain rfl : p' = p := by simpa using hp'.symm.trans hp
  refine h.next step (.inl ?_) ?_ ?_ ?_ ?_
  · exact .of_entries (by simp [state])
  · simpa [state] using h.proper
  · simp +contextual [state]
  · simp
  · rintro u ⟨⟩ -
    refine ⟨k, x, hk, ?_, by simpa [state] using rests k hk here⟩
    rw [tasks]
    exact List.getElem?_set_self (List.getElem?_eq_some_iff.1 hp).1

/-- A step keeps the invariant if the loaders remove nothing but errors. -/
theorem Sound.step (h : Sound (m :: before) m) (step : Step Lookup.program Pruning m m')
    (tame : ∀ k ∈ m.calls, Routine.Keeps Pruning k.loader) : Sound (m' :: m :: before) m' := by
  have this := step
  cases step with
  | spawn cs s k => exact h.between this rfl rfl rfl
  | reorder cs s queue => exact h.between this rfl rfl rfl
  | openGate cs s g => exact h.between this rfl rfl (System.opened_openGate g s).state
  | cancel cs s t => exact h.between this rfl rfl (System.cancel_state s t)
  | outside cs s turn hx =>
    refine h.next this (.inl (hx.sameSchemas h.proper)) (hx.proper h.proper)
      (fun e he => .inl (hx.sub he)) ?_ ?_
    · intro t ht
      obtain ⟨k, q, hk, hq, course⟩ := h.running t ht
      exact ⟨k, q, hk, hq, course.mono (.refl _) (hx.sameSchemas h.proper)⟩
    · intro t ht ht'
      exact absurd ht ht'
  | start cs s hp =>
    rename_i t q
    have lt := (System.free_of_turn? hp).1
    obtain ⟨seats, seated⟩ := h.seated
    obtain ⟨k, -, hk, -, -⟩ := seated.at_start hp
    have rests := h.resting t k _ (by simp) hk (List.getElem?_eq_getElem lt)
    refine h.next this (.inl (.of_entries rfl)) h.proper (fun e he => .inl he) ?_ (by simp)
    rintro u ⟨⟩
    exact ⟨k, q, hk, by simp [System.goOn, lt], rests.course (List.getElem?_eq_getElem lt) hp⟩
  | update cs s hp =>
    rename_i t f next
    have lt := (List.getElem?_eq_some_iff.1 hp).1
    obtain ⟨k, q, hk, hq, course⟩ := h.running t rfl
    obtain rfl := Standing.ready.inj (Option.some.inj (hq.symm.trans hp))
    obtain ⟨seats, seated⟩ := h.seated
    obtain ⟨effect, course⟩ := course.update (tame k (List.mem_of_getElem? hk))
      (notes_past rfl hk hp) h.proper
      (fun e he => h.sources _ (Assoc.mem_of_get? he)) (seated.leaves hp hk)
    refine h.next this ?_ effect.proper ?_ ?_ ?_
    · refine effect.schemas.imp id ?_
      rintro ⟨⟨l, q', part, same⟩, vacant, x, stored⟩
      rw [same] at hp
      exact ⟨t, k, _, x, rfl, hk, hp, .ready l part, vacant, stored⟩
    · intro e he
      refine (effect.sources e he).imp id ?_
      rintro ⟨same, made⟩
      exact same ▸ made
    · rintro u ⟨⟩
      exact ⟨k, next s.state, hk, by simp [System.goOn, lt], course⟩
    · rintro u ⟨⟩ other
      exact absurd rfl other
  | ask cs s hp r =>
    exact h.goesOn this hp rfl rfl fun k hk course _ => course.of_ask r
  | await cs s hp r =>
    refine h.goesOn this hp rfl rfl fun k hk course _ => ?_
    obtain ⟨begun, vacant, l, next', part, rfl⟩ := course.of_await
    exact .loading l (part _) begun vacant
  | hold cs s hp r g =>
    refine h.stops this hp rfl rfl fun k hk course => ?_
    obtain ⟨begun, vacant, l, next', part, rfl⟩ := course.of_await
    exact .held g l (part _) (part _) begun vacant
  | acquire cs s hp free =>
    refine h.goesOn this hp rfl rfl fun k hk _ _ => ?_
    rw [(h.acquires hp hk).1]
    exact .inside _
  | wait cs s hp taken =>
    refine h.stops this hp rfl rfl fun k hk _ => ?_
    rw [(h.acquires hp hk).1, (h.acquires hp hk).2]
    exact .waiting _
  | release cs s hp =>
    exact h.goesOn this hp (by simp) (System.release_state ..)
      fun k hk course notes => course.of_release notes
  | finish cs s hp =>
    refine h.stops this hp rfl rfl fun k hk course => ?_
    exact .of_verdict course.of_done

end

/-- The loaders remove nothing but errors from the cache. -/
def Tame (m : Flight I γ) : Prop := ∀ k ∈ m.calls, Routine.Keeps Pruning k.loader

section

variable {threshold : Level} {keepRetriable : Bool} {m m' : Flight I γ}
  {run before : List (Flight I γ)} {s : Slot} {x : RegisteredSchema} {t : TaskId} {r : Outcome}

theorem sound_initial :
    Sound [⟨[], System.initial (State.initial threshold keepRetriable), none⟩]
      (⟨[], System.initial (State.initial threshold keepRetriable), none⟩ : Flight I γ) where
  seated := ⟨[], .initial ⟨_, _, rfl⟩⟩
  proper := List.nodup_nil
  sources e he := by simp [System.initial, State.initial, Cache.empty] at he
  kept m₀ mem s x hx := List.mem_singleton.1 mem ▸ hx
  running t turn := by simp at turn
  resting t k x turn hk := by simp at hk

/-! ### What the invariant tells -/

/-- A lookup that has ended has an outcome with a source. -/
theorem Sound.sourced (h : Sound run m) (returned : m.Returned s t r) :
    (Sourced (Made run s) r ∨ Cancelled run t ∧ r = .error .cancelled) ∧
      ∀ x, r = .ok x → m.system.state.cache.find? s = some (.schema x) := by
  obtain ⟨k, hk, rfl, ht⟩ := returned
  have turn : m.turn ≠ some t := by
    intro turn
    obtain ⟨-, q, -, hq, -⟩ := h.running t turn
    simp [ht] at hq
  cases h.resting t k _ turn hk ht with
  | ended source kept => exact ⟨source, kept⟩

/-- No loader starts where a schema is kept. -/
theorem Sound.not_starts (h : Sound run m)
    (hx : m.system.state.cache.find? s = some (.schema x)) : ¬ m.Starts s t := by
  rintro ⟨turn, k, l, hk, rfl, ht⟩
  obtain ⟨k', q, hk', hq, course⟩ := h.running t turn
  obtain rfl := Option.some.inj (hk'.symm.trans hk)
  obtain rfl := Standing.ready.inj (Option.some.inj (hq.symm.trans ht))
  exact course.vacant_of_missing x hx

/-- Where a schema is kept, a lookup that is about to end gives it. -/
theorem Sound.about_to_end (h : Sound run m) {k : Lookup I} (turn : m.turn = some t)
    (hk : m.calls[t]? = some k) (ht : m.system.tasks[t]? = some (.ready (.done r)))
    (hx : m.system.state.cache.find? k.slot = some (.schema x)) :
    r = .ok x ∨ Cancelled run t ∧ r = .error .cancelled := by
  obtain ⟨k', q, hk', hq, course⟩ := h.running t turn
  obtain rfl := Option.some.inj (hk'.symm.trans hk)
  obtain rfl := Standing.ready.inj (Option.some.inj (hq.symm.trans ht))
  cases course.of_done with
  | settled source admits =>
    cases r with
    | ok y =>
      obtain ⟨⟩ := admits.symm.trans hx
      exact .inl rfl
    | error f => exact absurd hx (admits x)
  | cancelled cancelled => exact .inr ⟨cancelled, rfl⟩

/-- Where a schema is kept, a lookup that is not ready waits for the lock or has ended. -/
theorem Sound.of_idle (h : Sound run m) {k : Lookup I} (turn : m.turn = none)
    (hk : m.calls[t]? = some k) {y : Standing State I γ Outcome}
    (hy : m.system.tasks[t]? = some y) (idle : m.system.turn? t = none)
    (hx : m.system.state.cache.find? k.slot = some (.schema x)) :
    (∃ l p q, y = .waiting l p q) ∨ ∃ r, y = .ended r := by
  unfold System.turn? at idle
  rw [hy] at idle
  cases h.resting t k y (by simp [turn]) hk hy with
  | waiting l => exact .inl ⟨l, _, _, rfl⟩
  | held g l part part' begun vacant => exact absurd hx (vacant x)
  | ended => exact .inr ⟨_, rfl⟩
  | _ => cases idle

/-- Where a schema is kept and no task is ready, every lookup has ended: nobody loads, so nobody
holds the lock for which the others would wait. -/
theorem Sound.returned_of_idle (h : Sound run m) (orderly : m.system.Orderly)
    (turn : m.turn = none) (idle : ∀ u, m.system.turn? u = none)
    (hx : m.system.state.cache.find? s = some (.schema x)) {k : Lookup I}
    (hk : m.calls[t]? = some k) (hs : k.slot = s) : ∃ r, m.Returned s t r := by
  subst hs
  obtain ⟨seats, seated⟩ := h.seated
  have lt : t < m.system.tasks.length := by
    rw [← seated.called]
    exact (List.getElem?_eq_some_iff.1 hk).1
  have hy := List.getElem?_eq_getElem lt
  rcases h.of_idle turn hk hy (idle t) hx with ⟨l, p, q, waits⟩ | ⟨r, ended⟩
  · rw [waits] at hy
    obtain ⟨u, held⟩ := Option.ne_none_iff_exists'.1 (orderly t l p q hy).2
    obtain ⟨s', seat⟩ := (seated.booked.holder u l).1 held
    have lt' : u < m.system.tasks.length := by
      rw [← seated.complete]
      exact (List.getElem?_eq_some_iff.1 seat).1
    have hz := List.getElem?_eq_getElem lt'
    obtain ⟨k', pos, hk', seat', stands⟩ := seated.stands u _ hz
    obtain ⟨rfl, rfl⟩ := by simpa using seat'.symm.trans seat
    have same : k'.slot = k.slot :=
      seated.booked.apart _ _ l (seated.booked.lock u _ l seat rfl)
        (seated.of_uses ⟨k, hk, rfl, .inl ⟨p, q, hy⟩⟩)
    rcases h.of_idle turn hk' hz (idle u) (same ▸ hx) with ⟨l', p', q', waits'⟩ | ⟨r, ended⟩
    · rw [waits'] at stands
      cases stands
    · rw [ended] at stands
      cases stands
  · exact ⟨r, k, hk, rfl, ended ▸ hy⟩

variable [DecidableEq γ]

/-! ### Whole runs -/

theorem Tame.of_step (h : Tame m') (step : Step Lookup.program Pruning m m') : Tame m := by
  intro k hk
  obtain ⟨t, ht⟩ := List.mem_iff_getElem?.1 hk
  exact h k (List.mem_of_getElem? (step.calls ht))

theorem Sound.of_run
    (run : Run Lookup.program Pruning (State.initial threshold keepRetriable) (m :: before))
    (tame : Tame m) : Sound (m :: before) m := by
  generalize h : m :: before = ms at run
  induction run generalizing m before with
  | start =>
    cases h
    exact sound_initial
  | step run step ih =>
    cases h
    have tame' := tame.of_step step
    exact (ih tame' rfl).step step tame'

theorem Sound.of_mem
    (run : Run Lookup.program Pruning (State.initial threshold keepRetriable) (m' :: before))
    (tame : Tame m') (mem : m ∈ m' :: before) : ∃ past, Sound (m :: past) m := by
  generalize h : m' :: before = ms at run mem
  induction run generalizing m' before with
  | start =>
    cases h
    obtain rfl := List.mem_singleton.1 mem
    exact ⟨_, sound_initial⟩
  | step run step ih =>
    cases h
    rcases List.mem_cons.1 mem with rfl | mem
    · exact ⟨_, .of_run (run.step step) tame⟩
    · exact ih (tame.of_step step) rfl mem

/-- Whoever ends after a schema was kept gives it. -/
theorem returned_later
    (run : Run Lookup.program Pruning (State.initial threshold keepRetriable) (m' :: before))
    (tame : Tame m') (mem : m ∈ m' :: before)
    (hx : m.system.state.cache.find? s = some (.schema x)) (returned : m'.Returned s t r) :
    (∃ r', m.Returned s t r') ∨ r = .ok x ∨
      Cancelled (m' :: before) t ∧ r = .error .cancelled := by
  generalize h : m' :: before = ms at run mem
  induction run generalizing m' before with
  | start =>
    cases h
    obtain rfl := List.mem_singleton.1 mem
    exact .inl ⟨r, returned⟩
  | @step m₁ m₂ past run step ih =>
    cases h
    rcases List.mem_cons.1 mem with rfl | mem
    · exact .inl ⟨r, returned⟩
    obtain ⟨k, hk, rfl, ht⟩ := returned
    have tame' := tame.of_step step
    have sound := Sound.of_run run tame'
    obtain ⟨seats, seated⟩ := sound.seated
    rcases step.of_ended ht with ended | ⟨turn, ready⟩
    · obtain ⟨k', -, hk', -, -⟩ := seated.stands t _ ended
      obtain rfl := Option.some.inj ((step.calls hk').symm.trans hk)
      refine (ih tame' ⟨k', hk', rfl, ended⟩ rfl mem).imp id fun h => h.imp id ?_
      exact And.imp_left (·.cons m₂)
    · obtain ⟨k', -, hk', -, -⟩ := seated.at_turn ready
      obtain rfl := Option.some.inj ((step.calls hk').symm.trans hk)
      refine .inr ((sound.about_to_end turn hk' ready (sound.kept m mem _ x hx)).imp id ?_)
      exact And.imp_left (·.cons m₂)

/-- Whatever a lookup gives was made by a loader for its slot, or by one whose error this is. Once a
lookup has given a schema, no loader starts for the slot any more, and every other lookup of the
slot that has not ended by then gives that schema unless it is cancelled; and all of them end as
soon as the tasks that are ready have had their turns, whatever the world holds back. -/
theorem permanence
    (run : Run Lookup.program Pruning (State.initial threshold keepRetriable) (m' :: before))
    (tame : Tame m') (s : Slot) :
    (∀ t r, m'.Returned s t r →
      Sourced (Made (m' :: before) s) r ∨ Cancelled (m' :: before) t ∧ r = .error .cancelled) ∧
    ∀ m ∈ m' :: before, ∀ u x, m.Returned s u (.ok x) →
      (∀ t, ¬ m'.Starts s t) ∧
      (∀ t r, m'.Returned s t r → (∃ r', m.Returned s t r') ∨ r = .ok x ∨
        Cancelled (m' :: before) t ∧ r = .error .cancelled) ∧
      (m'.turn = none → m'.system.Attended → ∀ {ε : Type} (env : Environment I ε γ) (e : ε) t k,
        m'.calls[t]? = some k → k.slot = s →
        ∃ r, (m'.system.settle env e).1.tasks[t]? = some (.ended r) ∧
          ((∃ r', m.Returned s t r') ∨ r = .ok x ∨
            Cancelled (m' :: before) t ∧ r = .error .cancelled)) := by
  have sound := Sound.of_run run tame
  refine ⟨fun t r returned => (sound.sourced returned).1, fun m mem u x returned => ?_⟩
  obtain ⟨past, sound₀⟩ := Sound.of_mem run tame mem
  have keeps := (sound₀.sourced returned).2 x rfl
  refine ⟨fun t => sound.not_starts (sound.kept m mem s x keeps),
    fun t r => returned_later run tame mem keeps, ?_⟩
  intro between attended ε env e t k hk hs
  obtain ⟨cs, sys, turn'⟩ := m'
  obtain rfl : turn' = none := between
  obtain ⟨later, run', suffix, same⟩ := run.settle env e
  have tame' : Tame (⟨cs, (sys.settle env e).1, none⟩ : Flight I γ) := tame
  have sound' := Sound.of_run run' tame'
  have mem' := suffix.subset mem
  obtain ⟨r, returned'⟩ := sound'.returned_of_idle run'.reached.orderly rfl
    (System.turn?_settle env attended e) (sound'.kept m mem' s x keeps) hk hs
  have agrees := returned_later run' tame' mem' keeps returned'
  obtain ⟨-, -, -, ended⟩ := returned'
  exact ⟨r, ended, agrees.imp id (·.imp id (And.imp_left (same t)))⟩

end

/-! ### Two lookups of one slot -/

/-- What the world replies. -/
def reply : RegisteredSchema := ⟨1, .avro, [], []⟩

/-- The first of two lookups has got its reply and given it; the second one was waiting. -/
def served : Flight oracle Unit :=
  match (crowd.system.openGate ()).turn? 0 with
  | some p => ⟨[patient, patient], ((crowd.system.openGate ()).turn closed 0 p ()).1, none⟩
  | none => crowd

theorem served_reached :
    Reached Lookup.program Pruning (State.initial Level.info false) served := by
  have opened : Reached Lookup.program Pruning (State.initial Level.info false)
      ⟨[patient, patient], crowd.system.openGate (), none⟩ :=
    .tail crowd_reached (.openGate _ _ ())
  unfold served
  split
  · rename_i p hp
    exact opened.trans (System.turn_steps closed _ hp ())
  · exact crowd_reached

theorem served_returned : served.Returned patient.slot 0 (.ok reply) := ⟨patient, rfl, rfl, rfl⟩

theorem served_attended : served.system.Attended := by
  intro t p ht
  match t with
  | 0 => cases ht
  | 1 => exact .tail _ (.head _)
  | t + 2 => cases ht

/-- The second lookup gets the schema that the first one has given. -/
theorem permanence_of_two :
    ∃ before, Run Lookup.program Pruning (State.initial Level.info false) (served :: before) ∧
      served.Returned patient.slot 0 (.ok reply) ∧ (∀ r, ¬ served.Returned patient.slot 1 r) ∧
      ∃ r, (served.system.settle closed ()).1.tasks[1]? = some (.ended r) ∧
        (r = .ok reply ∨ Cancelled (served :: before) 1 ∧ r = .error .cancelled) := by
  obtain ⟨before, run⟩ := served_reached.run
  have tame : Tame served := by
    intro k hk
    change k ∈ [patient, patient] at hk
    obtain rfl : k = patient := by simpa using hk
    exact Routine.keeps_await (I := oracle) ()
  have waiting (r : Outcome) : ¬ served.Returned patient.slot 1 r := by
    rintro ⟨k, -, -, ht⟩
    cases ht
  obtain ⟨r, ended, agrees⟩ := ((permanence run tame patient.slot).2 served (.head _) 0 reply
    served_returned).2.2 rfl served_attended closed () 1 patient rfl rfl
  exact ⟨before, run, served_returned, waiting, r, ended,
    agrees.resolve_left fun ⟨r', returned⟩ => waiting r' returned⟩

end Flight

end Registrar.Cache
