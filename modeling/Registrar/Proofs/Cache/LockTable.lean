import Mathlib.Data.Set.Card
import Registrar.Proofs.Cache.Replay

/-!
# The table of locks

The cache keeps a lock for a slot and the number of its users exactly as long as some lookup is at
the lock: from the step with which it joins up to the one with which it leaves, however it got from
one to the other. `Engaged` says what such a lookup does, as far as the tasks show it: it waits or
holds the lock, and besides it may have been cancelled while it waited, or have its turn right after
joining or right before leaving.

That nothing else makes a lookup a user comes of `Idle`, the places at which a lookup without a turn
can be: whoever has stopped inside the lock still owes it.
-/

namespace Registrar

/-- A table in which nothing is found is empty. -/
theorem Assoc.eq_nil_of_get? {κ ν : Type} [DecidableEq κ] {m : Assoc κ ν}
    (h : ∀ key, get? key m = none) : m = [] := by
  cases m with
  | nil => rfl
  | cons p m => simpa [get?] using h p.1

namespace Cache

open Lookup Moment

variable {I : Interface} {γ : Type}

/-- What is counted in a list are the positions at which it stands. -/
theorem countP_eq_ncard {α : Type} (p : α → Bool) (xs : List α) :
    xs.countP p = {t : Nat | ∃ x, xs[t]? = some x ∧ p x = true}.ncard := by
  induction xs using List.reverseRecOn with
  | nil => simp
  | append_singleton xs a ih =>
    let before : Set Nat := {t | ∃ x, xs[t]? = some x ∧ p x = true}
    have bounded : ∀ t ∈ before, t < xs.length := by
      rintro t ⟨x, hx, -⟩
      exact (List.getElem?_eq_some_iff.1 hx).1
    have finite : before.Finite := (Set.finite_lt_nat xs.length).subset bounded
    have new : xs.length ∉ before := fun mem => Nat.lt_irrefl _ (bounded _ mem)
    have last {t : Nat} : (∃ x, (xs ++ [a])[t]? = some x ∧ p x = true) ↔
        t ∈ before ∨ t = xs.length ∧ p a = true := by
      rcases Nat.lt_trichotomy t xs.length with lt | rfl | gt
      · simp [List.getElem?_append_left lt, before, Nat.ne_of_lt lt]
      · simp [before]
      · have beyond : (xs ++ [a])[t]? = none := by
          rw [List.getElem?_eq_none_iff]
          simpa using gt
        simp [beyond, before, List.getElem?_eq_none (Nat.le_of_lt gt), Nat.ne_of_gt gt]
    simp only [List.countP_append, List.countP_singleton, ih, last]
    by_cases ha : p a = true
    · have : {t | t ∈ before ∨ t = xs.length ∧ p a = true} = insert xs.length before := by
        ext t
        simp [ha, or_comm]
      rw [this, Set.ncard_insert_of_notMem new finite, if_pos ha]
    · simp [ha, before]

namespace Lookup

section

variable {k : Lookup I} {pos : Position} {p : Task I}

/-! ## Points before joining and after leaving -/

/-- Where a lookup may be no user of the lock, it is none. -/
theorem At.away_of_away (away : At k .away p) (h : At k pos p) : pos = .away := by
  cases h with
  | taking l => cases away.of_acquire.1
  | working l outside =>
    obtain ⟨l', same⟩ := away.holding_of_owes (owes_bind outside fun _ => trivial)
    cases same
  | departing r => exact away.of_depart.symm
  | _ => rfl

/-- Who waits for the world owes a lock. -/
theorem At.owes_of_await {c : I.Call} {next : Wake (I.Reply c) → Task I}
    (h : At k pos (.await c next)) (w : Wake (I.Reply c)) : Owes (next w) := by
  generalize hp : Program.await c next = q at h
  cases h with
  | called => rw [program_eq] at hp; cases hp
  | found e => cases e <;> cases hp
  | @working l q outside =>
    cases q <;> cases hp
    exact owes_bind (outside w) fun _ => trivial
  | _ => cases hp

/-- A lookup that has not gone past its first look at the cache, or that has ceased to be a user of
the lock since. -/
inductive Clear (k : Lookup I) : Standing State I γ Outcome → Prop where
  | called : Clear k (.ready k.program)
  | found (e : Entry) : Clear k (.ready (found k.slot e))
  | entering : Clear k (.ready k.enter)
  | ending (r : Outcome) : Clear k (.ready (.done r))
  | ended (r : Outcome) : Clear k (.ended r)

/-- Such a lookup is no user. -/
theorem Clear.away {x : Standing State I γ Outcome} (clear : Clear k x) (h : Stands k pos x) :
    pos = .away := by
  cases clear with
  | called => cases h with | ready hp => exact At.called.away_of_away hp
  | found e => cases h with | ready hp => exact (At.found e).away_of_away hp
  | entering => cases h with | ready hp => exact At.entering.away_of_away hp
  | ending r => cases h with | ready hp => exact hp.of_done
  | ended r => cases h with | ended => rfl

theorem owes_inside (k : Lookup I) (l : LockId) : Owes (k.inside l) :=
  owes_bind (keeps_replayOrLoad k) fun _ => trivial

/-- A change of the state concerns the tables of locks only when the lookup joins or leaves. -/
theorem At.locks_of_update {f : State → State} {next : State → Task I}
    (h : At k pos (.update f next)) (st : State) :
    SameLocks st.cache (f st).cache ∨
      .update f next = k.enter ∧ (f st).cache = st.cache.join k.slot ∨
      ∃ r, .update f next = (depart k.slot r : Task I) := by
  generalize hp : Program.update f next = q at h
  cases h with
  | called =>
    rw [program_eq] at hp
    cases hp
    exact .inl ⟨rfl, rfl, rfl⟩
  | found e =>
    left
    cases e <;> cases hp <;> exact ⟨rfl, rfl, rfl⟩
  | entering =>
    cases hp
    exact .inr (.inl ⟨rfl, rfl⟩)
  | departing r => exact .inr (.inr ⟨r, rfl⟩)
  | @working l q outside =>
    cases q <;> cases hp
    exact .inl (outside.1 st)
  | _ => cases hp

/-! ## Lookups without a turn -/

/-- Where a lookup stands that has no turn. -/
inductive Idle (k : Lookup I) : Standing State I γ Outcome → Prop where
  | called : Idle k (.ready k.program)
  | waiting (l : LockId) :
    Idle k (.waiting l (k.inside l) (depart k.slot (.error .cancelled)))
  | held (g : γ) {p q : Task I} (owes : Owes p) (owes' : Owes q) : Idle k (.held g p q)
  | awake (lock : Option LockId) {p q : Task I} (owes : Owes p)
    (owes' : Owes (System.yielding lock q)) : Idle k (.awake lock p q)
  | ready {p : Task I} (owes : Owes p) : Idle k (.ready p)
  | departing : Idle k (.ready (depart k.slot (.error .cancelled)))
  | ended (r : Outcome) : Idle k (.ended r)

/-- Where a step of somebody else leaves it. -/
theorem Idle.goes {m m' : Flight I γ} {t : TaskId} {x y : Standing State I γ Outcome}
    (h : Idle k x) (goes : Goes m m' t x y) : Idle k y := by
  cases goes with
  | stays => exact h
  | opened =>
    cases h with
    | held g owes owes' => exact .awake none owes owes'
  | granted l =>
    cases h with
    | waiting => exact .awake (some l) (owes_inside k l) trivial
  | cancelled hy =>
    cases h with
    | waiting l => cases hy; exact .departing
    | held g owes owes' => cases hy; exact .ready owes'
    | awake lock owes owes' => cases hy; exact .ready owes'
    | _ => cases hy

/-- Where its own last step of a turn leaves it. -/
theorem Idle.of_stop {st st' : State} {x : Standing State I γ Outcome} (h : At k pos p)
    (took : Took st st' p x) (stopped : ∀ q, x ≠ .ready q) : Idle k x := by
  cases took with
  | hold r g => exact .held g (h.owes_of_await _) (h.owes_of_await _)
  | wait =>
    obtain ⟨-, inside, departs⟩ := h.of_acquire
    rw [inside, departs]
    exact .waiting _
  | done => exact .ended _
  | _ => exact absurd rfl (stopped _)

/-- A user without a turn that waits for nothing holds the lock, or was cancelled while it waited. -/
theorem Idle.of_user (h : Idle k (.ready p : Standing State I γ Outcome)) (hp : At k pos p)
    (user : pos.isUser = true) :
    (∃ l, pos = .holding l) ∨ p = depart k.slot (.error .cancelled) := by
  cases h with
  | called =>
    rw [At.called.away_of_away hp] at user
    cases user
  | ready owes => exact .inl (hp.holding_of_owes owes)
  | departing => exact .inr rfl

end

end Lookup

namespace Flight

/-- The task `t`, which came for the slot `s`, is at the lock of the slot. -/
inductive Engaged (m : Flight I γ) (s : Slot) (t : TaskId) : Prop where
  | waits {k : Lookup I} {l : LockId} {p q : Task I} (call : m.calls[t]? = some k)
    (slot : k.slot = s) (task : m.system.tasks[t]? = some (.waiting l p q))
  | holds {k : Lookup I} {l : LockId} (call : m.calls[t]? = some k) (slot : k.slot = s)
    (lock : Assoc.get? l m.system.locks = some t)
  /-- It was cancelled while it waited and has not had its turn since. -/
  | withdrawn {k : Lookup I} (call : m.calls[t]? = some k) (slot : k.slot = s)
    (idle : m.turn ≠ some t)
    (task : m.system.tasks[t]? = some (.ready (depart s (.error .cancelled))))
  /-- It has just joined and is about to take the lock, or to wait for it. -/
  | taking {k : Lookup I} {l : LockId} (call : m.calls[t]? = some k) (slot : k.slot = s)
    (turn : m.turn = some t) (task : m.system.tasks[t]? = some (.ready (k.take l)))
  /-- It has no use for the lock any more and is about to leave. -/
  | leaving {k : Lookup I} {r : Outcome} (call : m.calls[t]? = some k) (slot : k.slot = s)
    (turn : m.turn = some t) (task : m.system.tasks[t]? = some (.ready (depart s r)))

/-- What a step does to the tables of locks. Who leaves finds itself counted and the lock there,
and goes on to end as it would have. -/
inductive Turnover (m m' : Flight I γ) : Prop where
  | same (h : SameLocks m.system.state.cache m'.system.state.cache)
  | joins {t : TaskId} {k : Lookup I} (turn : m.turn = some t) (call : m.calls[t]? = some k)
    (task : m.system.tasks[t]? = some (.ready k.enter))
    (joined : m'.system.state.cache = m.system.state.cache.join k.slot)
  | leaves {t : TaskId} {k : Lookup I} {r : Outcome} {n : Nat} (turn : m.turn = some t)
    (call : m.calls[t]? = some k)
    (task : m.system.tasks[t]? = some (.ready (depart k.slot r)))
    (counted : Assoc.get? k.slot m.system.state.cache.users = some (n + 1))
    (locked : (Assoc.get? k.slot m.system.state.cache.locks).isSome = true)
    (left : m.system.state.cache.leave? k.slot = some m'.system.state.cache)
    (after : m'.system.tasks[t]? = some (.ready (.done r)))

/-- No call is between joining and leaving. -/
def Clear (m : Flight I γ) : Prop :=
  ∀ (t : TaskId) k x, m.calls[t]? = some k → m.system.tasks[t]? = some x → k.Clear x

section

variable {m m' : Flight I γ} {seats : List Seat} {s : Slot} {t : TaskId} {k : Lookup I}

/-- A lookup that is there has a seat for its slot. -/
theorem Seated.seat (h : Seated m seats) (hk : m.calls[t]? = some k) :
    ∃ pos x, seats[t]? = some ⟨k.slot, pos⟩ ∧ m.system.tasks[t]? = some x ∧ Stands k pos x := by
  have lt : t < m.system.tasks.length := by
    rw [← h.called]
    exact (List.getElem?_eq_some_iff.1 hk).1
  obtain ⟨k', pos, hk', hs, stands⟩ := h.stands t _ (List.getElem?_eq_getElem lt)
  obtain rfl := Option.some.inj (hk'.symm.trans hk)
  exact ⟨pos, _, hs, List.getElem?_eq_getElem lt, stands⟩

/-- A seat is that of a lookup. -/
theorem Seated.occupant (h : Seated m seats) {x : Seat} (hx : seats[t]? = some x) :
    ∃ k y, m.calls[t]? = some k ∧ k.slot = x.slot ∧ m.system.tasks[t]? = some y ∧
      Stands k x.position y := by
  have lt : t < m.system.tasks.length := by
    rw [← h.complete]
    exact (List.getElem?_eq_some_iff.1 hx).1
  obtain ⟨k, pos, hk, hs, stands⟩ := h.stands t _ (List.getElem?_eq_getElem lt)
  obtain rfl := Option.some.inj (hs.symm.trans hx)
  exact ⟨k, _, hk, rfl, List.getElem?_eq_getElem lt, stands⟩

/-- A lookup that is ready is at a point of its program. -/
theorem Seated.at_ready (h : Seated m seats) (hk : m.calls[t]? = some k) {p : Task I}
    (hp : m.system.tasks[t]? = some (.ready p)) :
    ∃ pos, seats[t]? = some ⟨k.slot, pos⟩ ∧ At k pos p := by
  obtain ⟨k', pos, hk', hs, hat⟩ := h.at_turn hp
  obtain rfl := Option.some.inj (hk'.symm.trans hk)
  exact ⟨pos, hs, hat⟩

/-- Whoever is at the lock is a user. -/
theorem Seated.of_engaged (h : Seated m seats) (engaged : m.Engaged s t) :
    ∃ x, seats[t]? = some x ∧ x.uses s = true := by
  cases engaged with
  | waits call slot task =>
    subst slot
    obtain ⟨k', hk', hs, -, -⟩ := h.at_wait task
    obtain rfl := Option.some.inj (hk'.symm.trans call)
    exact ⟨_, hs, by simp [Seat.uses, Position.isUser]⟩
  | holds call slot lock =>
    subst slot
    obtain ⟨s', holding⟩ := (h.booked.holder _ _).1 lock
    obtain ⟨pos, -, hs, -, -⟩ := h.seat call
    obtain ⟨rfl, rfl⟩ := by simpa using hs.symm.trans holding
    exact ⟨_, hs, by simp [Seat.uses, Position.isUser]⟩
  | taking call slot turn task =>
    subst slot
    obtain ⟨pos, hs, hat⟩ := h.at_ready call task
    obtain ⟨rfl, -⟩ := hat.of_acquire
    exact ⟨_, hs, by simp [Seat.uses, Position.isUser]⟩
  | withdrawn call slot idle task =>
    subst slot
    obtain ⟨pos, hs, hat⟩ := h.at_ready call task
    obtain rfl := hat.of_depart
    exact ⟨_, hs, by simp [Seat.uses, Position.isUser]⟩
  | leaving call slot turn task =>
    subst slot
    obtain ⟨pos, hs, hat⟩ := h.at_ready call task
    obtain rfl := hat.of_depart
    exact ⟨_, hs, by simp [Seat.uses, Position.isUser]⟩

/-- Whoever is a user and is at a point of its program is at the lock. -/
theorem Engaged.of_at {pos : Position} {p : Task I} (hk : m.calls[t]? = some k)
    (task : m.system.tasks[t]? = some (.ready p)) (h : At k pos p) (user : pos.isUser = true)
    (idle : m.turn ≠ some t → Idle k (.ready p : Standing State I γ Outcome))
    (holder : ∀ l, pos = .holding l → Assoc.get? l m.system.locks = some t) :
    m.Engaged k.slot t := by
  by_cases turn : m.turn = some t
  · cases h with
    | taking l => exact .taking hk rfl turn task
    | working l outside => exact .holds hk rfl (holder l rfl)
    | departing r => exact .leaving hk rfl turn task
    | _ => cases user
  · rcases (idle turn).of_user h user with ⟨l, holding⟩ | rfl
    · exact .holds hk rfl (holder l holding)
    · exact .withdrawn hk rfl turn task

/-- A lookup without a turn. -/
def Rest (m : Flight I γ) : Prop := ∀ (t : TaskId) k x,
  m.turn ≠ some t → m.calls[t]? = some k → m.system.tasks[t]? = some x → Idle k x

/-- Whoever is a user is at the lock. -/
theorem Seated.engaged (h : Seated m seats) (rest : m.Rest)
    (ready : m.turn = some t → ∃ p, m.system.tasks[t]? = some (.ready p))
    {x : Seat} (hx : seats[t]? = some x) (uses : x.uses s = true) : m.Engaged s t := by
  obtain ⟨k, y, hk, slot, task, stands⟩ := h.occupant hx
  obtain ⟨s', pos⟩ := x
  obtain rfl : k.slot = s' := slot
  obtain ⟨rfl, user⟩ := by simpa [Seat.uses] using uses
  have holder (l : LockId) (holding : pos = .holding l) :
      Assoc.get? l m.system.locks = some t :=
    (h.booked.holder t l).2 ⟨k.slot, by rw [hx, holding]⟩
  have idle {y : Standing State I γ Outcome} (hy : m.system.tasks[t]? = some y)
      (stopped : ∀ p, y ≠ .ready p) : Idle k y := by
    refine rest t k y (fun turn => ?_) hk hy
    obtain ⟨p, hp⟩ := ready turn
    exact stopped p (Option.some.inj (hy.symm.trans hp))
  cases stands with
  | ready hp => exact .of_at hk task hp user (fun turn => rest t k _ turn hk task) holder
  | awake lock hp =>
    cases idle task (by simp) with
    | awake _ owes =>
      obtain ⟨l, rfl⟩ := hp.holding_of_owes owes
      exact .holds hk rfl (holder l rfl)
  | held g hp =>
    cases idle task (by simp) with
    | held _ owes =>
      obtain ⟨l, rfl⟩ := hp.holding_of_owes owes
      exact .holds hk rfl (holder l rfl)
  | waiting l => exact .waits hk rfl task
  | ended r => cases user

variable [DecidableEq γ] {threshold : Level} {keepRetriable : Bool}

/-- A lookup without a turn owes the lock, or waits for it, or has nothing to do with it but to
leave. -/
theorem Rest.of_reached
    (h : Reached Lookup.program Foreign (State.initial threshold keepRetriable) m) : m.Rest := by
  induction h with
  | refl =>
    intro t k x _ hk
    simp at hk
  | @tail m m' reached step ih =>
    intro t k x turn' hk hx
    obtain ⟨seats, seated⟩ := Seated.of_reached reached
    by_cases turn : m.turn = some t
    · cases step.kind with
      | between idle => simp [turn] at idle
      | outside _ same => exact absurd (same.trans turn) turn'
      | starts u p idle => simp [turn] at idle
      | goesOn u p q before after =>
        exact absurd (after.trans (before.symm.trans turn)) turn'
      | stops u p y before after ready calls task stopped took =>
        obtain rfl := Option.some.inj (before.symm.trans turn)
        obtain rfl := Option.some.inj (task.symm.trans hx)
        obtain ⟨pos, -, hat⟩ := seated.at_ready (calls ▸ hk) ready
        exact .of_stop hat took stopped
    · cases hy : m.system.tasks[t]? with
      | none =>
        obtain ⟨-, ht, k', rfl, rfl⟩ := step.new hy hx
        obtain rfl : k' = k := by simpa [ht, ← seated.called] using hk
        exact .called
      | some y =>
        obtain ⟨k', -, hk', -, -⟩ := seated.stands t y hy
        obtain rfl := Option.some.inj ((step.calls hk').symm.trans hk)
        obtain ⟨x', hx', goes⟩ := step.others turn turn' hy
        obtain rfl := Option.some.inj (hx'.symm.trans hx)
        exact (ih t k' y turn hk' hy).goes goes

omit [DecidableEq γ] in
/-- Where every lookup is away from its lock, no lock and no user is kept. -/
theorem Seated.empty_of_clear (h : Seated m seats) (clear : m.Clear) :
    m.system.state.cache.locks = [] ∧ m.system.state.cache.users = [] := by
  have unused (s : Slot) : seats.countP (Seat.uses s) = 0 := by
    apply List.countP_eq_zero.2
    intro x mem uses
    obtain ⟨t, hx⟩ := List.mem_iff_getElem?.1 mem
    obtain ⟨k, y, hk, -, task, stands⟩ := h.occupant hx
    have away := (clear t k y hk task).away stands
    simp [Seat.uses, away, Position.isUser] at uses
  have users (s : Slot) : Assoc.get? s m.system.state.cache.users = none := by
    have none := h.booked.count s
    have positive := h.booked.positive s
    rw [unused] at none
    cases hn : Assoc.get? s m.system.state.cache.users <;> simp_all
  have locks (s : Slot) : Assoc.get? s m.system.state.cache.locks = none := by
    have together := h.booked.together s
    simpa [users s] using together
  exact ⟨Assoc.eq_nil_of_get? locks, Assoc.eq_nil_of_get? users⟩

/-- A step adds a user only where a lookup joins and removes one only where a lookup leaves. -/
theorem Seated.turnover (h : Seated m seats) (step : Step Lookup.program Foreign m m') :
    m.Turnover m' := by
  have same (state : m'.system.state = m.system.state) : m.Turnover m' :=
    .same (state ▸ ⟨rfl, rfl, rfl⟩)
  cases step.kind with
  | between _ _ state => exact same state
  | outside others => exact .same others.locksKept
  | starts t p _ _ _ _ _ state => exact same state
  | stops t p x _ _ _ _ _ stopped took =>
    cases took with
    | hold _ _ state => exact same state
    | wait state => exact same state
    | done state => exact same state
    | _ => exact absurd rfl (stopped _)
  | goesOn t p q turn turn' ready calls task took =>
    cases took with
    | @update f next state =>
      obtain ⟨k, pos, hk, hs, hat⟩ := h.at_turn ready
      rcases hat.locks_of_update m.system.state with kept | ⟨enters, joined⟩ | ⟨r, departs⟩
      · exact .same (state ▸ kept)
      · exact .joins turn hk (enters ▸ ready) (state ▸ joined)
      · rw [departs] at ready hat
        obtain rfl := hat.of_depart
        obtain ⟨c, left, -⟩ := h.booked.leave hs
        obtain ⟨n, counted, locked⟩ := h.booked.of_user hs rfl
        cases departs
        have after : m'.system.state.cache = c := by simp [state, changing, left]
        refine .leaves turn hk ready counted locked (after ▸ left) ?_
        simpa [left] using task
    | ask _ state => exact same state
    | await _ state => exact same state
    | acquire state => exact same state
    | release state => exact same state

/-- At every moment that is reached the cache keeps a lock for a slot exactly when it keeps a number
of users, and that number is the number of calls that are at the lock, which is positive. No step
takes a user or a lock away that is not there. So both tables are empty when no call is between
joining and leaving. -/
theorem lock_table
    (h : Reached Lookup.program Foreign (State.initial threshold keepRetriable) m) :
    (∀ s, s ∈ Assoc.keys m.system.state.cache.locks ↔
      s ∈ Assoc.keys m.system.state.cache.users) ∧
    (∀ s n, Assoc.get? s m.system.state.cache.users = some n →
      0 < n ∧ n = {t | m.Engaged s t}.ncard) ∧
    (∀ s, Assoc.get? s m.system.state.cache.users = none → ∀ t, ¬ m.Engaged s t) ∧
    (∀ m', Step Lookup.program Foreign m m' → m.Turnover m') ∧
    (m.Clear → m.system.state.cache.locks = [] ∧ m.system.state.cache.users = []) := by
  obtain ⟨seats, seated⟩ := Seated.of_reached h
  have booked := seated.booked
  have engaged (s : Slot) : {t | m.Engaged s t} = {t | ∃ x, seats[t]? = some x ∧ x.uses s = true} := by
    ext t
    refine ⟨seated.of_engaged, ?_⟩
    rintro ⟨x, hx, uses⟩
    exact seated.engaged (.of_reached h) h.ready_of_turn hx uses
  have counted (s : Slot) :
      (Assoc.get? s m.system.state.cache.users).getD 0 = {t | m.Engaged s t}.ncard := by
    rw [booked.count, countP_eq_ncard, engaged]
  have keys (s : Slot) : s ∈ Assoc.keys m.system.state.cache.locks ↔
      s ∈ Assoc.keys m.system.state.cache.users := by
    rw [← not_iff_not, ← Assoc.get?_eq_none_iff, ← Assoc.get?_eq_none_iff,
      ← Option.isNone_iff_eq_none, ← Option.isNone_iff_eq_none, ← Option.not_isSome,
      ← Option.not_isSome, booked.together]
  refine ⟨keys, fun s n hn => ?_, fun s none t here => ?_, fun m' step => seated.turnover step,
    seated.empty_of_clear⟩
  · refine ⟨Nat.pos_of_ne_zero ?_, by simpa [hn] using counted s⟩
    rintro rfl
    exact booked.positive s hn
  · obtain ⟨x, hx, uses⟩ := seated.of_engaged here
    have pos : 0 < seats.countP (Seat.uses s) :=
      List.countP_pos_iff.2 ⟨x, List.mem_of_getElem? hx, uses⟩
    simp [← booked.count, none] at pos

end

/-! ### Two lookups of one slot -/

theorem crowd_engaged : crowd.Engaged patient.slot 0 ∧ crowd.Engaged patient.slot 1 :=
  ⟨.holds (l := 1) rfl rfl rfl, .waits rfl rfl rfl⟩

theorem refused_clear : refused.Clear := by
  intro t k x hk hx
  match t with
  | 0 =>
    cases hx
    exact .ended _
  | 1 =>
    cases hx
    exact .ended _
  | t + 2 => cases hx

/-- While the first of two lookups loads, both are counted; when both have ended nothing is left. -/
theorem lock_table_of_two :
    crowd.Engaged patient.slot 0 ∧ crowd.Engaged patient.slot 1 ∧
      2 = {t | crowd.Engaged patient.slot t}.ncard ∧
      patient.slot ∈ Assoc.keys crowd.system.state.cache.locks ∧
      refused.Clear ∧ refused.system.state.cache.locks = [] ∧
      refused.system.state.cache.users = [] := by
  obtain ⟨keys, counted, -⟩ := lock_table crowd_reached
  obtain ⟨-, -, -, -, emptied⟩ := lock_table refused_reached
  have known : patient.slot ∈ Assoc.keys crowd.system.state.cache.users := .head _
  exact ⟨crowd_engaged.1, crowd_engaged.2, (counted patient.slot 2 rfl).2, (keys _).2 known,
    refused_clear, emptied refused_clear⟩

end Flight

end Cache

end Registrar
