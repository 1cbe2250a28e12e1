import Registrar.Proofs.Cache.Permanence
import Registrar.Proofs.Cache.Routes

/-!
# The replay of errors

Any number of lookups are under way in one cache under one policy, and others may drop the errors or
all entries of the cache at any time. The error with which a loader ends goes unchanged to the
lookup that brought the loader. Whoever else ends with an error gets the copy of the one with which
the loader ended that was the last to end for the slot. Nothing but schemas and such copies is kept,
and copies only of errors that the policy allows to be kept.

`Steady` is the invariant: whatever is kept comes of the loader that was the last to end for its
slot, and every lookup is on its route.
-/

namespace Registrar.Cache

open Lookup Moment

variable {I : Interface} {γ : Type}

namespace Flight

/-! ## The last loader -/

/-- The loader that the task `t` brought for a slot was started and has ended with `r`. -/
def Ran (run : List (Flight I γ)) (s : Slot) (t : TaskId) (r : Outcome) : Prop :=
  ∃ m before, m :: before <:+ run ∧ Begun (m :: before) s t ∧ m.Finishes s t r

/-- The loader that was the last one to end for a slot has ended with `r`. -/
inductive Latest : List (Flight I γ) → Slot → Outcome → Prop where
  | now {m : Flight I γ} {before : List (Flight I γ)} {s : Slot} {t : TaskId} {r : Outcome}
    (begun : Begun (m :: before) s t) (finishes : m.Finishes s t r) : Latest (m :: before) s r
  | earlier {m : Flight I γ} {before : List (Flight I γ)} {s : Slot} {r : Outcome}
    (other : ∀ t r', Begun (m :: before) s t → ¬ m.Finishes s t r') (h : Latest before s r) :
    Latest (m :: before) s r

section

variable {run before : List (Flight I γ)} {m : Flight I γ} {s : Slot} {t : TaskId} {r r' : Outcome}

theorem Begun.cons (h : Begun before s t) (m : Flight I γ) : Begun (m :: before) s t :=
  let ⟨m', mem, starts⟩ := h
  ⟨m', .tail _ mem, starts⟩

theorem Begun.of_suffix (h : Begun before s t) (suffix : before <:+ run) : Begun run s t :=
  let ⟨m', mem, starts⟩ := h
  ⟨m', suffix.subset mem, starts⟩

theorem Ran.begun (h : Ran run s t r) : Begun run s t :=
  let ⟨_, _, suffix, begun, _⟩ := h
  begun.of_suffix suffix

theorem Ran.of_suffix (h : Ran before s t r) (suffix : before <:+ run) : Ran run s t r :=
  let ⟨m, past, suffix', begun, finishes⟩ := h
  ⟨m, past, suffix'.trans suffix, begun, finishes⟩

/-- A task has one outcome of its loader at a moment. -/
theorem Finishes.unique {t' : TaskId} (h : m.Finishes s t r) (h' : m.Finishes s t' r') :
    r = r' := by
  obtain ⟨turn, k, l, hk, -, -, ht⟩ := h
  obtain ⟨turn', k', l', hk', -, -, ht'⟩ := h'
  obtain rfl := Option.some.inj (turn.symm.trans turn')
  obtain rfl := Option.some.inj (hk.symm.trans hk')
  exact wrapUp_injective (Standing.ready.inj (Option.some.inj (ht.symm.trans ht')))

theorem Latest.unique (h : Latest run s r) (h' : Latest run s r') : r = r' := by
  induction h with
  | now begun finishes =>
    cases h' with
    | now begun' finishes' => exact finishes.unique finishes'
    | earlier other => exact absurd finishes (other _ _ begun)
  | earlier other h ih =>
    cases h' with
    | now begun finishes => exact absurd finishes (other _ _ begun)
    | earlier _ h' => exact ih h'

/-- The last loader remains so unless another one ends. -/
theorem Latest.cons (h : Latest before s r)
    (same : ∀ t r', Begun (m :: before) s t → m.Finishes s t r' → r' = r) :
    Latest (m :: before) s r := by
  by_cases ends : ∃ t r', Begun (m :: before) s t ∧ m.Finishes s t r'
  · obtain ⟨t, r', begun, finishes⟩ := ends
    obtain rfl := same t r' begun finishes
    exact .now begun finishes
  · exact .earlier (fun t r' begun finishes => ends ⟨t, r', begun, finishes⟩) h

end

/-! ## Stories of a run -/

/-- What has happened at a slot, seen by the task `t`. -/
def story (run : List (Flight I γ)) (s : Slot) (t : TaskId) : Story :=
  ⟨Begun run s t, Ran run s t, Latest run s, fun _ => Ran.begun⟩

section

variable {m : Flight I γ} {before : List (Flight I γ)} {s : Slot} {t : TaskId} {k : Lookup I}

/-- The story goes on with the moment at which the task has its turn. -/
theorem after_story (before : List (Flight I γ)) {q : Task I} (turn : m.turn = some t)
    (hk : m.calls[t]? = some k) (hq : m.system.tasks[t]? = some (.ready q)) :
    After k q (story before k.slot t) (story (m :: before) k.slot t) := by
  have starts : m.Starts k.slot t ↔ ∃ l, q = k.missing l := by
    constructor
    · rintro ⟨-, k', l, hk', -, ht⟩
      obtain rfl := Option.some.inj (hk'.symm.trans hk)
      exact ⟨l, Standing.ready.inj (Option.some.inj (hq.symm.trans ht))⟩
    · rintro ⟨l, rfl⟩
      exact ⟨turn, k, l, hk, rfl, hq⟩
  have finishes {r : Outcome} : m.Finishes k.slot t r ↔ k.Finishing q r := by
    constructor
    · rintro ⟨-, k', l, hk', -, part, ht⟩
      obtain rfl := Option.some.inj (hk'.symm.trans hk)
      exact ⟨l, part, Standing.ready.inj (Option.some.inj (hq.symm.trans ht))⟩
    · rintro ⟨l, part, rfl⟩
      exact ⟨turn, k, l, hk, rfl, part, hq⟩
  refine ⟨?_, fun r => ?_, fun r begun h => .now begun (finishes.2 h), fun r latest same => ?_⟩
  · rw [← starts]
    constructor
    · rintro ⟨m', mem, h⟩
      rcases List.mem_cons.1 mem with rfl | mem
      · exact .inr h
      · exact .inl ⟨m', mem, h⟩
    · rintro (begun | h)
      · exact Begun.cons begun m
      · exact ⟨m, .head _, h⟩
  · rw [← finishes]
    constructor
    · rintro ⟨m', past, suffix, begun, h⟩
      rcases List.suffix_cons_iff.1 suffix with e | suffix
      · obtain ⟨rfl, rfl⟩ := List.cons.inj e
        exact .inr ⟨begun, h⟩
      · exact .inl ⟨m', past, suffix, begun, h⟩
    · rintro (ended | ⟨begun, h⟩)
      · exact Ran.of_suffix ended (List.suffix_cons ..)
      · exact ⟨m, before, List.suffix_refl _, begun, h⟩
  · refine latest.cons fun u r' begun h => ?_
    obtain rfl := Option.some.inj (h.1.symm.trans turn)
    exact same r' begun (finishes.1 h)

/-- A moment at which the task has no turn adds nothing of its own to its story. -/
theorem story_idle (before : List (Flight I γ)) (s : Slot) (turn : m.turn ≠ some t) :
    ((story (m :: before) s t).begun ↔ (story before s t).begun) ∧
      ∀ r, (story (m :: before) s t).ended r ↔ (story before s t).ended r := by
  refine ⟨⟨?_, fun h => Begun.cons h m⟩, fun r => ⟨?_, fun h => h.of_suffix (List.suffix_cons ..)⟩⟩
  · rintro ⟨m', mem, h⟩
    rcases List.mem_cons.1 mem with rfl | mem
    · exact absurd h.1 turn
    · exact ⟨m', mem, h⟩
  · rintro ⟨m', past, suffix, begun, h⟩
    rcases List.suffix_cons_iff.1 suffix with e | suffix
    · obtain ⟨rfl, rfl⟩ := List.cons.inj e
      exact absurd h.1 turn
    · exact ⟨m', past, suffix, begun, h⟩

end

/-- The loaders do nothing to the cache but drop errors or all entries. -/
def Modest (m : Flight I γ) : Prop := ∀ k ∈ m.calls, Routine.Keeps Foreign k.loader

/-! ## The invariant -/

/-- The policy stays, what is kept comes of the loader that was the last to end for its slot, and
every lookup is on its route. -/
structure Steady (keepRetriable : Bool) (before : List (Flight I γ)) (m : Flight I γ) : Prop where
  seated : ∃ seats, Seated m seats
  calls : ∀ m₀ ∈ before, ∀ (t : TaskId) k, m₀.calls[t]? = some k → m.calls[t]? = some k
  policy : m.system.state.cache.keepRetriable = keepRetriable
  entries : ∀ p ∈ m.system.state.cache.entries,
    ∃ r, Latest before p.1 r ∧ Kept keepRetriable r p.2
  running : ∀ t, m.turn = some t → ∃ k q, m.calls[t]? = some k ∧
    m.system.tasks[t]? = some (.ready q) ∧
    Route k keepRetriable (story before k.slot t) m.system.state.cache q
  resting : ∀ (t : TaskId) k x, m.turn ≠ some t → m.calls[t]? = some k →
    m.system.tasks[t]? = some x → Paused k (story before k.slot t) m.system.state.cache x

/-- What a step does to the cache: it removes entries, or a lookup inside the lock keeps how its own
loader has ended. -/
inductive Changes (keepRetriable : Bool) (before : List (Flight I γ)) (m m' : Flight I γ) :
    Prop where
  | prunes (policy : m'.system.state.cache.keepRetriable = m.system.state.cache.keepRetriable)
    (sub : m'.system.state.cache.entries ⊆ m.system.state.cache.entries)
  | keeps {t : TaskId} {k : Lookup I} {q : Task I} {r : Outcome} {e : Entry}
    (turn : m.turn = some t) (call : m.calls[t]? = some k)
    (task : m.system.tasks[t]? = some (.ready q)) (owes : Owes q)
    (own : (story (m :: before) k.slot t).Own r) (kept : Kept keepRetriable r e)
    (stored : m'.system.state.cache = m.system.state.cache.store k.slot e)

section

variable {keep : Bool} {m m' : Flight I γ} {before : List (Flight I γ)} {seats : List Seat}

theorem Changes.of_state (h : m'.system.state = m.system.state) : Changes keep before m m' :=
  .prunes (by rw [h]) (by rw [h]; exact List.Subset.refl _)

/-- Who owes a lock holds the one that the cache keeps for the slot. -/
theorem Seated.of_owes (h : Seated m seats) {t : TaskId} {k : Lookup I} {q : Task I}
    (hk : m.calls[t]? = some k) (hq : m.system.tasks[t]? = some (.ready q)) (owes : Owes q) :
    ∃ l, Assoc.get? k.slot m.system.state.cache.locks = some l ∧
      Assoc.get? l m.system.locks = some t := by
  obtain ⟨k', pos, hk', hs, hat⟩ := h.at_turn hq
  obtain rfl := Option.some.inj (hk'.symm.trans hk)
  obtain ⟨l, rfl⟩ := hat.holding_of_owes owes
  exact ⟨l, h.booked.lock t _ l hs rfl, (h.booked.holder t l).2 ⟨_, hs⟩⟩

/-- A slot for which somebody else loads stays empty. -/
theorem Changes.empty (h : Changes keep before m m') (seated : Seated m seats) {t : TaskId}
    {k : Lookup I} {x : Standing State I γ Outcome} (turn : m.turn ≠ some t)
    (hk : m.calls[t]? = some k) (hx : m.system.tasks[t]? = some x) (loading : Loading k x)
    (empty : m.system.state.cache.find? k.slot = none) :
    m'.system.state.cache.find? k.slot = none := by
  cases h with
  | prunes policy sub => exact find?_eq_none_of_subset empty sub
  | @keeps u k' q r e turn' call task owes own kept stored =>
    have ne : k.slot ≠ k'.slot := by
      intro same
      obtain ⟨l, lock, holder⟩ := seated.of_owes call task owes
      obtain ⟨l', lock', holder'⟩ := seated.of_loads ⟨k, x, hk, hx, same, loading⟩
      obtain rfl := Option.some.inj (lock.symm.trans lock')
      exact turn (turn'.trans (holder.symm.trans holder'))
    rw [stored]
    exact (Assoc.get?_put_of_ne ne ..).trans empty

/-- The lookup that has its turn knows of this moment. -/
theorem Steady.route (h : Steady keep before m) {t : TaskId} {k : Lookup I} {q : Task I}
    (turn : m.turn = some t) (hk : m.calls[t]? = some k)
    (hq : m.system.tasks[t]? = some (.ready q)) :
    Route k keep (story (m :: before) k.slot t) m.system.state.cache q ∧
      Noted k q (story (m :: before) k.slot t) := by
  obtain ⟨k', q', hk', hq', route⟩ := h.running t turn
  obtain rfl := Option.some.inj (hk'.symm.trans hk)
  obtain rfl := Standing.ready.inj (Option.some.inj (hq'.symm.trans hq))
  have after := after_story before turn hk hq
  exact ⟨route.noted after, after.noted⟩

/-- What is kept comes of the last loader, this moment included. -/
theorem Steady.entries_now (h : Steady keep before m) {p : Slot × Entry}
    (hp : p ∈ m.system.state.cache.entries) :
    ∃ r, Latest (m :: before) p.1 r ∧ Kept keep r p.2 := by
  obtain ⟨r, latest, kept⟩ := h.entries p hp
  refine ⟨r, latest.cons fun t r' begun finishes => ?_, kept⟩
  obtain ⟨turn, k, l, hk, slot, part, ht⟩ := finishes
  obtain ⟨k', q, hk', hq, route⟩ := h.running t turn
  obtain rfl := Option.some.inj (hk'.symm.trans hk)
  obtain rfl := Standing.ready.inj (Option.some.inj (hq.symm.trans ht))
  have started : (story before k'.slot t).begun := by
    rcases (after_story _ turn hk ht).begun.1 (slot ▸ begun) with begun | ⟨l', same⟩
    · exact begun
    · exact absurd (same ▸ marksMiss_missing keep k' l') (not_marksMiss_wrapUp _ _ l r')
  rcases route.of_finishing started with empty | latest'
  · rw [slot] at empty
    exact absurd (List.mem_map.2 ⟨p, hp, rfl⟩) (Assoc.get?_eq_none_iff.1 empty)
  · exact Latest.unique (slot ▸ latest') latest

theorem Steady.found (h : Steady keep before m) {s : Slot} {e : Entry}
    (he : m.system.state.cache.find? s = some e) :
    ∃ r, Latest (m :: before) s r ∧ Kept keep r e :=
  h.entries_now (Assoc.mem_of_get? he)

variable [DecidableEq γ]

/-- A lookup that has no turn before and after a step goes on resting. -/
theorem Steady.rests (h : Steady keep before m) (step : Step Lookup.program Foreign m m')
    (changes : Changes keep before m m') {t : TaskId} {k : Lookup I}
    {x : Standing State I γ Outcome} (turn : m.turn ≠ some t) (turn' : m'.turn ≠ some t)
    (hk : m'.calls[t]? = some k) (hx : m'.system.tasks[t]? = some x) :
    Paused k (story (m :: before) k.slot t) m'.system.state.cache x := by
  obtain ⟨seats, seated⟩ := h.seated
  obtain ⟨begun, ended⟩ := story_idle before k.slot turn
  cases hy : m.system.tasks[t]? with
  | none =>
    obtain ⟨-, ht, k', rfl, rfl⟩ := step.new hy hx
    obtain rfl : k' = k := by simpa [ht, ← seated.called] using hk
    refine .called fun ⟨m₀, mem, starts⟩ => ?_
    have called : m.calls[t]? = none := by simp [ht, ← seated.called]
    rcases List.mem_cons.1 mem with rfl | mem
    · exact turn starts.1
    · obtain ⟨-, k₀, -, hk₀, -⟩ := starts
      cases called.symm.trans (h.calls m₀ mem t k₀ hk₀)
  | some y =>
    obtain ⟨k', -, hk', -, -⟩ := seated.stands t y hy
    obtain rfl := Option.some.inj ((step.calls hk').symm.trans hk)
    obtain ⟨x', hx', goes⟩ := step.others turn turn' hy
    obtain rfl := Option.some.inj (hx'.symm.trans hx)
    exact ((h.resting t k' y turn hk' hy).mono begun ended
      (changes.empty seated turn hk' hy)).goes goes

/-- The invariant after a step, from what the step does to the cache and to the lookup that has its
turn. -/
theorem Steady.next (h : Steady keep before m) (step : Step Lookup.program Foreign m m')
    (changes : Changes keep before m m')
    (running : ∀ t, m'.turn = some t → ∃ k q, m'.calls[t]? = some k ∧
      m'.system.tasks[t]? = some (.ready q) ∧
      Route k keep (story (m :: before) k.slot t) m'.system.state.cache q)
    (stopped : ∀ (t : TaskId), m.turn = some t → m'.turn ≠ some t → ∃ k x, m'.calls[t]? = some k ∧
      m'.system.tasks[t]? = some x ∧
      Paused k (story (m :: before) k.slot t) m'.system.state.cache x) :
    Steady keep (m :: before) m' where
  seated := by
    obtain ⟨seats, seated⟩ := h.seated
    exact seated.step step
  calls m₀ mem t k hk := by
    rcases List.mem_cons.1 mem with rfl | mem
    · exact step.calls hk
    · exact step.calls (h.calls m₀ mem t k hk)
  policy := by
    cases changes with
    | prunes policy => exact policy.trans h.policy
    | keeps _ _ _ _ _ _ stored =>
      rw [stored]
      exact h.policy
  entries p hp := by
    cases changes with
    | prunes _ sub => exact h.entries_now (sub hp)
    | keeps _ _ _ _ own kept stored =>
      rw [stored] at hp
      rcases Assoc.mem_of_mem_put hp with rfl | old
      · exact ⟨_, own.latest, kept⟩
      · exact h.entries_now old
  running := running
  resting t k x turn hk hx := by
    by_cases turn₀ : m.turn = some t
    · obtain ⟨k', x', hk', hx', paused⟩ := stopped t turn₀ turn
      obtain rfl := Option.some.inj (hk'.symm.trans hk)
      obtain rfl := Option.some.inj (hx'.symm.trans hx)
      exact paused
    · exact h.rests step changes turn₀ turn hk hx

omit [DecidableEq γ] in
/-- The lookup that has its turn makes a step. -/
theorem Steady.took (h : Steady keep before m)
    (modest : m.Modest) {t : TaskId} {p : Task I}
    {x : Standing State I γ Outcome} (turn : m.turn = some t)
    (hp : m.system.tasks[t]? = some (.ready p))
    (took : Took m.system.state m'.system.state p x) :
    ∃ k, m.calls[t]? = some k ∧ Changes keep before m m' ∧
      Onward k keep (story (m :: before) k.slot t) m'.system.state.cache x := by
  obtain ⟨seats, seated⟩ := h.seated
  obtain ⟨k, -, hk, -, -⟩ := seated.at_turn hp
  obtain ⟨route, noted⟩ := h.route turn hk hp
  obtain ⟨alters, onward⟩ := route.took noted (modest k (List.mem_of_getElem? hk)) h.policy
    (fun e he => h.found he) (seated.leaves hp hk) took
  refine ⟨k, hk, ?_, onward⟩
  cases alters with
  | prunes policy sub => exact .prunes policy sub
  | keeps owes own kept stored => exact .keeps turn hk hp owes own kept stored

/-- What a step does to the cache. -/
theorem Steady.changes (h : Steady keep before m) (step : Step Lookup.program Foreign m m')
    (modest : m.Modest) : Changes keep before m m' := by
  cases step.kind with
  | between turn turn' state => exact .of_state state
  | outside foreign => exact .prunes foreign.policy foreign.subset
  | starts t p turn turn' ready calls task state => exact .of_state state
  | goesOn t p q turn turn' ready calls task took =>
    obtain ⟨k, -, changes, -⟩ := h.took modest turn ready took
    exact changes
  | stops t p x turn turn' ready calls task stopped took =>
    obtain ⟨k, -, changes, -⟩ := h.took modest turn ready took
    exact changes

/-- A step keeps the invariant. -/
theorem Steady.step (h : Steady keep before m) (step : Step Lookup.program Foreign m m')
    (modest : m.Modest) : Steady keep (m :: before) m' := by
  have changes := h.changes step modest
  cases step.kind with
  | between turn turn' state => exact h.next step changes (by simp [turn']) (by simp [turn])
  | outside foreign turn calls tasks =>
    refine h.next step changes (fun t ht => ?_) fun t ht ht' => ?_
    · rw [turn] at ht
      obtain ⟨k, q, hk, hq, -⟩ := h.running t ht
      refine ⟨k, q, calls ▸ hk, tasks ▸ hq, (h.route ht hk hq).1.prune fun empty => ?_⟩
      exact find?_eq_none_of_subset empty foreign.subset
    · exact absurd (turn.trans ht) ht'
  | starts t p turn turn' ready calls task state =>
    refine h.next step changes (fun u hu => ?_) (by simp [turn])
    obtain rfl := Option.some.inj (turn'.symm.trans hu)
    obtain ⟨seats, seated⟩ := h.seated
    obtain ⟨k, -, hk, -, -⟩ := seated.at_start ready
    have here := List.getElem?_eq_getElem (System.free_of_turn? ready).1
    have idle : m.turn ≠ some t := by simp [turn]
    obtain ⟨begun, ended⟩ := story_idle before k.slot idle
    have paused := (h.resting t k _ idle hk here).mono begun ended fun _ => id
    refine ⟨k, p, calls ▸ hk, task, ?_⟩
    rw [state]
    exact paused.route here ready
  | goesOn t p q turn turn' ready calls task took =>
    obtain ⟨k, hk, -, onward⟩ := h.took modest turn ready took
    refine h.next step changes (fun u hu => ?_) fun u hu hu' => ?_
    · obtain rfl := Option.some.inj (turn'.symm.trans hu)
      cases onward with
      | ready route => exact ⟨k, q, calls ▸ hk, task, route⟩
      | paused stopped => exact absurd rfl (stopped q)
    · exact absurd (turn'.trans (turn.symm.trans hu)) hu'
  | stops t p x turn turn' ready calls task stopped took =>
    obtain ⟨k, hk, -, onward⟩ := h.took modest turn ready took
    refine h.next step changes (by simp [turn']) fun u hu _ => ?_
    obtain rfl := Option.some.inj (turn.symm.trans hu)
    cases onward with
    | ready route => exact absurd rfl (stopped _)
    | paused _ paused => exact ⟨k, x, calls ▸ hk, task, paused⟩

end

/-! ## Whole runs -/

/-- The task `t`, which came for a slot, has its turn and is about to end with `r`. -/
def Gives (m : Flight I γ) (s : Slot) (t : TaskId) (r : Outcome) : Prop :=
  m.turn = some t ∧ ∃ k, m.calls[t]? = some k ∧ k.slot = s ∧
    m.system.tasks[t]? = some (.ready (.done r))

section

variable [DecidableEq γ] {threshold : Level} {keepRetriable : Bool} {m m' : Flight I γ}
  {before : List (Flight I γ)} {s : Slot} {t : TaskId} {r : Outcome}

omit [DecidableEq γ] in
theorem steady_initial : Steady keepRetriable []
    (⟨[], System.initial (State.initial threshold keepRetriable), none⟩ : Flight I γ) where
  seated := ⟨[], .initial ⟨_, _, rfl⟩⟩
  calls := by simp
  policy := rfl
  entries p hp := by simp [System.initial, State.initial, Cache.empty] at hp
  running t turn := by simp at turn
  resting t k x turn hk := by simp at hk

theorem Modest.of_step (h : Modest m') (step : Step Lookup.program Foreign m m') : Modest m := by
  intro k hk
  obtain ⟨t, ht⟩ := List.mem_iff_getElem?.1 hk
  exact h k (List.mem_of_getElem? (step.calls ht))

theorem Steady.of_run
    (run : Run Lookup.program Foreign (State.initial threshold keepRetriable) (m :: before))
    (modest : Modest m) : Steady keepRetriable before m := by
  generalize h : m :: before = ms at run
  induction run generalizing m before with
  | start =>
    cases h
    exact steady_initial
  | step run step ih =>
    cases h
    have modest' := modest.of_step step
    exact (ih modest' rfl).step step modest'

/-- The loaders have been as they are since the run began. -/
theorem Modest.of_suffix
    (run : Run Lookup.program Foreign (State.initial threshold keepRetriable) (m' :: before))
    (modest : Modest m') {past : List (Flight I γ)} (suffix : m :: past <:+ m' :: before) :
    Run Lookup.program Foreign (State.initial threshold keepRetriable) (m :: past) ∧ Modest m := by
  generalize h : m' :: before = ms at run
  induction run generalizing m' before with
  | start =>
    cases h
    rcases List.suffix_cons_iff.1 suffix with e | nothing
    · cases e
      exact ⟨.start, modest⟩
    · cases List.suffix_nil.1 nothing
  | step run step ih =>
    cases h
    rcases List.suffix_cons_iff.1 suffix with e | suffix
    · cases e
      exact ⟨run.step step, modest⟩
    · exact ih (modest.of_step step) suffix rfl

/-! ### What the invariant tells -/

omit [DecidableEq γ] in
/-- A lookup whose loader has ended has given that if it has no turn any more. -/
theorem Steady.returned (h : Steady keepRetriable before m) (ran : Ran (m :: before) s t r)
    (turn : m.turn ≠ some t) : m.Returned s t r := by
  obtain ⟨m₀, mem, turn₀, k, -, hk, rfl, -⟩ := ran.begun
  rcases List.mem_cons.1 mem with rfl | mem
  · exact absurd turn₀ turn
  · have hk := h.calls m₀ mem t k hk
    obtain ⟨seats, seated⟩ := h.seated
    have lt : t < m.system.tasks.length := by
      rw [← seated.called]
      exact (List.getElem?_eq_some_iff.1 hk).1
    have hx := List.getElem?_eq_getElem lt
    have ended := ((story_idle before k.slot turn).2 r).1 ran
    exact ⟨k, hk, rfl, hx.trans (congrArg some ((h.resting t k _ turn hk hx).of_ended ended))⟩

/-- A lookup whose loader has ended has its turn until it has given that. -/
theorem returned_or_turn
    (run : Run Lookup.program Foreign (State.initial threshold keepRetriable) (m :: before))
    (modest : Modest m) (ran : Ran (m :: before) s t r) :
    m.Returned s t r ∨ m.turn = some t ∧ ∃ p, m.system.tasks[t]? = some (.ready p) ∧
      ∀ {ε : Type} (env : Environment I ε γ) (e : ε),
        (m.system.turn env t p e).1.tasks[t]? = some (.ended r) := by
  have steady := Steady.of_run run modest
  by_cases turn : m.turn = some t
  · obtain ⟨k, p, -, hp, -⟩ := steady.running t turn
    refine .inr ⟨turn, p, hp, fun {ε} env e => ?_⟩
    obtain ⟨cs, sys, turn'⟩ := m
    obtain rfl : turn' = some t := turn
    obtain ⟨later, run', suffix⟩ := run.endTurn hp env e
    have modest' : Modest (⟨cs, (sys.turn env t p e).1, none⟩ : Flight I γ) := modest
    obtain ⟨-, -, -, ended⟩ :=
      (Steady.of_run run' modest').returned (ran.of_suffix suffix) (by simp)
    exact ended
  · exact .inl (steady.returned ran turn)

/-- Whoever has ended was about to end once. -/
theorem gives_of_returned
    (run : Run Lookup.program Foreign (State.initial threshold keepRetriable) (m' :: before))
    (returned : m'.Returned s t r) :
    ∃ m past, m :: past <:+ m' :: before ∧ m.Gives s t r := by
  generalize h : m' :: before = ms at run
  induction run generalizing m' before with
  | start =>
    cases h
    obtain ⟨k, -, -, ended⟩ := returned
    simp [System.initial] at ended
  | @step m₁ m₂ past run step ih =>
    cases h
    obtain ⟨k, hk, slot, ended⟩ := returned
    obtain ⟨seats, seated⟩ := Seated.of_reached run.reached
    rcases step.of_ended ended with ended' | ⟨turn, ready⟩
    · obtain ⟨k', -, hk', -, -⟩ := seated.stands t _ ended'
      obtain rfl := Option.some.inj ((step.calls hk').symm.trans hk)
      obtain ⟨m, past', suffix, gives⟩ := ih ⟨k', hk', slot, ended'⟩ rfl
      exact ⟨m, past', suffix.trans (List.suffix_cons ..), gives⟩
    · obtain ⟨k', -, hk', -, -⟩ := seated.at_turn ready
      obtain rfl := Option.some.inj ((step.calls hk').symm.trans hk)
      exact ⟨m₁, past, List.suffix_cons .., turn, k', hk', slot, ready⟩

omit [DecidableEq γ] in
/-- An error with which a lookup is about to end is that of its own loader, or the copy of the one
with which the last loader ended. -/
theorem Steady.gives (h : Steady keepRetriable before m) {f : ResolutionError}
    (gives : m.Gives s t (.error (.resolution f))) :
    Ran (m :: before) s t (.error (.resolution f)) ∨
      ∃ g, Latest (m :: before) s (.error (.resolution g)) ∧ f = g.intoCache := by
  obtain ⟨turn, k, hk, rfl, ready⟩ := gives
  obtain ⟨route, -⟩ := h.route turn hk ready
  generalize hr : (Except.error (Failure.resolution f) : Outcome) = r at route
  cases route.of_done with
  | loaded own =>
    subst hr
    exact .inl ((own.ended _).2 rfl)
  | @replayed r e fresh latest kept =>
    cases e with
    | schema x => cases hr
    | error f' =>
      cases hr
      obtain ⟨g, rfl, copy, -⟩ := kept.of_error rfl
      exact .inr ⟨g, latest, copy⟩
  | withdrawn => cases hr

/-- What a step adds to the cache is what is kept of the end of the loader that the lookup brought
whose turn it is. -/
theorem added
    (run : Run Lookup.program Foreign (State.initial threshold keepRetriable) (m' :: m :: before))
    (modest : Modest m') {p : Slot × Entry} (hp : p ∈ m'.system.state.cache.entries)
    (new : p ∉ m.system.state.cache.entries) :
    ∃ t r, m.turn = some t ∧ Ran (m :: before) p.1 t r ∧ Kept keepRetriable r p.2 := by
  cases run with
  | step run step =>
    have modest := modest.of_step step
    cases (Steady.of_run run modest).changes step modest with
    | prunes _ sub => exact absurd (sub hp) new
    | keeps turn call task owes own kept stored =>
      rw [stored] at hp
      rcases Assoc.mem_of_mem_put hp with rfl | old
      · exact ⟨_, _, turn, (own.ended _).2 rfl, kept⟩
      · exact absurd old new

/-- Every error that is kept says so, and a retry may not cure it unless the policy allows such
errors to be kept. The error with which a loader ends goes unchanged to the lookup that brought it,
at the latest when its turn is over. Whoever else ends with an error has been given, when it was
about to end, the copy of the error with which the loader ended that was then the last to end for
the slot. And a step adds to the cache only what is kept of the end of the loader of the lookup
whose turn it is, so nothing is kept at a slot after a loader that was cancelled, failed with an
error from outside or ended with one that is not to be kept. -/
theorem error_replay
    (run : Run Lookup.program Foreign (State.initial threshold keepRetriable) (m' :: before))
    (modest : Modest m') :
    (∀ p ∈ m'.system.state.cache.entries, ∀ f, p.2 = .error f →
      f.cached = true ∧ (keepRetriable = false → f.retriable = false)) ∧
    (∀ s t f, Ran (m' :: before) s t (.error (.resolution f)) →
      m'.Returned s t (.error (.resolution f)) ∨
        m'.turn = some t ∧ ∃ p, m'.system.tasks[t]? = some (.ready p) ∧
          ∀ {ε : Type} (env : Environment I ε γ) (e : ε),
            (m'.system.turn env t p e).1.tasks[t]? = some (.ended (.error (.resolution f)))) ∧
    (∀ s t f, m'.Returned s t (.error (.resolution f)) →
      Ran (m' :: before) s t (.error (.resolution f)) ∨
        ∃ m past g, m :: past <:+ m' :: before ∧ m.Gives s t (.error (.resolution f)) ∧
          Latest (m :: past) s (.error (.resolution g)) ∧ f = g.intoCache) ∧
    (∀ m₂ m₁ past, m₂ :: m₁ :: past <:+ m' :: before →
      ∀ p ∈ m₂.system.state.cache.entries, p ∉ m₁.system.state.cache.entries →
        ∃ t r, m₁.turn = some t ∧ Ran (m₁ :: past) p.1 t r ∧ Kept keepRetriable r p.2) ∧
    ∀ s r, Latest (m' :: before) s r →
      (r = .error .cancelled ∨ (∃ x, r = .error (.foreign x)) ∨
        ∃ f, r = .error (.resolution f) ∧ f.retriable = true ∧ keepRetriable = false) →
      m'.system.state.cache.find? s = none := by
  have steady := Steady.of_run run modest
  refine ⟨fun p hp f hf => ?_, fun s t f => returned_or_turn run modest, fun s t f returned => ?_,
    fun m₂ m₁ past suffix p hp new => ?_, fun s r latest unkept => ?_⟩
  · obtain ⟨r, -, kept⟩ := steady.entries p hp
    obtain ⟨g, -, rfl, allowed⟩ := kept.of_error hf
    exact ⟨rfl, fun strict => allowed.resolve_left (by simp [strict])⟩
  · obtain ⟨m, past, suffix, gives⟩ := gives_of_returned run returned
    obtain ⟨run', modest'⟩ := modest.of_suffix run suffix
    rcases (Steady.of_run run' modest').gives gives with ran | ⟨g, latest, copy⟩
    · exact .inl (ran.of_suffix suffix)
    · exact .inr ⟨m, past, g, suffix, gives, latest, copy⟩
  · obtain ⟨run', modest'⟩ := modest.of_suffix run suffix
    exact added run' modest' hp new
  · cases he : m'.system.state.cache.find? s with
    | none => rfl
    | some e =>
      obtain ⟨r', latest', kept⟩ := steady.found he
      obtain rfl := latest.unique latest'
      cases kept with
      | schema x => simp at unkept
      | @error f allowed => grind

end

/-! ### Two lookups of one slot -/

/-- With what the loader ends once the world has replied. -/
def refusal : ResolutionError := .parse "not found" none

/-- A lookup whose loader waits for the world and fails then. -/
def doomed : Lookup oracle :=
  ⟨.ofId 1, Routine.await (I := oracle) () >>= fun _ => Routine.fail refusal,
    (Routine.keeps_await (I := oracle) ()).bind fun _ => Routine.keeps_throw _⟩

/-- Gives a lookup a turn if it is ready for one. -/
def advance (t : TaskId) (s : System State oracle Unit Outcome) :
    System State oracle Unit Outcome :=
  match s.turn? t with
  | some p => (s.turn closed t p ()).1
  | none => s

theorem advance_steps {Outside : State → State → Prop} (cs : List (Lookup oracle)) (t : TaskId)
    (s : System State oracle Unit Outcome) :
    Steps Lookup.program Outside ⟨cs, s, none⟩ ⟨cs, advance t s, none⟩ := by
  unfold advance
  split
  · rename_i p ready
    exact System.turn_steps closed cs ready ()
  · exact .refl

def called : System State oracle Unit Outcome :=
  ((System.initial (State.initial Level.info false)).spawn doomed.program).spawn doomed.program

/-- The first of two such lookups has failed while the second one was waiting for the lock; then
the second one has had its turn. -/
def refused : Flight oracle Unit :=
  ⟨[doomed, doomed], advance 1 (advance 0 ((advance 1 (advance 0 called)).openGate ())), none⟩

theorem refused_reached {Outside : State → State → Prop} :
    Reached Lookup.program Outside (State.initial Level.info false) refused := by
  refine .head (.spawn [] _ doomed) (.head (.spawn [doomed] _ doomed) ?_)
  refine (advance_steps _ 0 called).trans ((advance_steps _ 1 _).trans ?_)
  exact .head (.openGate _ _ ()) ((advance_steps _ 0 _).trans (advance_steps _ 1 _))

theorem refused_returned :
    refused.Returned doomed.slot 0 (.error (.resolution refusal)) ∧
      refused.Returned doomed.slot 1 (.error (.resolution refusal.intoCache)) :=
  ⟨⟨doomed, rfl, rfl, rfl⟩, ⟨doomed, rfl, rfl, rfl⟩⟩

/-- The second lookup is given the copy of the error with which the loader of the first one has
ended. -/
theorem error_replay_of_two :
    ∃ before,
      Run Lookup.program Foreign (State.initial Level.info false) (refused :: before) ∧
      refused.Modest ∧
      refused.Returned doomed.slot 0 (.error (.resolution refusal)) ∧
      refused.Returned doomed.slot 1 (.error (.resolution refusal.intoCache)) ∧
      (∀ p ∈ refused.system.state.cache.entries, ∀ f, p.2 = .error f →
        f.cached = true ∧ f.retriable = false) ∧
      (Ran (refused :: before) doomed.slot 1 (.error (.resolution refusal.intoCache)) ∨
        ∃ m past g, m :: past <:+ refused :: before ∧
          m.Gives doomed.slot 1 (.error (.resolution refusal.intoCache)) ∧
          Latest (m :: past) doomed.slot (.error (.resolution g)) ∧
          refusal.intoCache = g.intoCache) := by
  obtain ⟨before, run⟩ := refused_reached.run
  have modest : refused.Modest := by
    intro k hk
    change k ∈ [doomed, doomed] at hk
    obtain rfl : k = doomed := by simpa using hk
    exact (Routine.keeps_await (I := oracle) ()).bind fun _ => Routine.keeps_throw _
  obtain ⟨first, second⟩ := refused_returned
  obtain ⟨stored, -, others, -⟩ := error_replay run modest
  refine ⟨before, run, modest, first, second, fun p hp f hf => ?_, others _ 1 _ second⟩
  obtain ⟨copy, permanent⟩ := stored p hp f hf
  exact ⟨copy, permanent rfl⟩

end Flight

end Registrar.Cache
