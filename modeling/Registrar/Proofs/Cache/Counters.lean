import Mathlib.Algebra.BigOperators.Group.Finset.Basic
import Mathlib.Data.Set.Card
import Registrar.Proofs.Cache.LockTable
import Registrar.Proofs.Cache.Trails

/-!
# The counters of the cache add up

Any number of lookups are under way in one cache. What a lookup adds to a counter is what the tally
gains by the steps of its task. These parts make up the counter, and each is one or none: a lookup
counts once for its map, as a hit, an error served again or a miss, unless it was cancelled before
it got the lock. The misses are the loaders that were started, and the errors that are counted are
those with which loaders ended.

`Counted` is the invariant. It says of every task that it is on a trail whose marks are what it has
added, so that a step adds just the mark of the point at which the task is whose turn it is.
-/

namespace Registrar.Cache

open Lookup Moment

variable {I : Interface} {γ : Type}

namespace Flight

/-! ## What has happened -/

/-- The number of marks. -/
def marks (m : Flight I γ) (y : Mark) : Nat := m.system.state.tally.count y

/-- The marks by which the tally has grown in the steps of the task `t`. -/
def gained (t : TaskId) (y : Mark) : List (Flight I γ) → Nat
  | m' :: m :: past =>
    gained t y (m :: past) + if m.turn = some t then m'.marks y - m.marks y else 0
  | _ => 0

/-- The task `t`, which came for a slot, has its turn where it has found the entry `e`. -/
def Serves (m : Flight I γ) (s : Slot) (t : TaskId) (e : Entry) : Prop :=
  m.turn = some t ∧ ∃ k, m.calls[t]? = some k ∧ k.slot = s ∧
    (m.system.tasks[t]? = some (.ready (found k.slot e)) ∨
      ∃ l, m.system.tasks[t]? = some (.ready ((found k.slot e).bind (giveBack k.slot l))))

/-- The task `t` has its turn at a point at which it makes the mark. -/
def Emitting (m : Flight I γ) (t : TaskId) (y : Mark) : Prop :=
  m.turn = some t ∧ ∃ k q, m.calls[t]? = some k ∧ m.system.tasks[t]? = some (.ready q) ∧ k.Emits q y

open Classical in
/-- How many steps of tasks there were from moments at which `E` held. -/
noncomputable def times (E : Flight I γ → Prop) : List (Flight I γ) → Nat
  | m' :: m :: past =>
    times E (m :: past) + if E m ∧ m'.system.tasks ≠ m.system.tasks then 1 else 0
  | _ => 0

/-- A step of the run is as `P` says. -/
def Occurs (P : Flight I γ → Flight I γ → Prop) (run : List (Flight I γ)) : Prop :=
  ∃ m' m past, m' :: m :: past <:+ run ∧ P m m'

section

variable (run : List (Flight I γ))

/-- The task `t`, which came for a slot, was served the entry `e`. -/
def Served (s : Slot) (t : TaskId) (e : Entry) : Prop :=
  Occurs (fun m m' => m.Serves s t e ∧ m'.system.tasks ≠ m.system.tasks) run

/-- The task `t` was cancelled while it waited for the lock, or had been given it and had not had
its turn since. -/
def Balked (t : TaskId) : Prop :=
  Occurs (fun m m' => m.Cancels m' t ∧ ∃ x, m.system.tasks[t]? = some x ∧ Balks x) run

/-- The entry was kept at the slot. -/
def Held (s : Slot) (e : Entry) : Prop := ∃ m ∈ run, m.system.state.cache.find? s = some e

/-- What has happened to the task `t`, which came for a slot. -/
def lore (s : Slot) (t : TaskId) : Lore := ⟨Balked run t, Held run s⟩

end

section

variable {run before : List (Flight I γ)} {m m' : Flight I γ} {s : Slot} {t : TaskId} {y : Mark}

theorem occurs_cons {P : Flight I γ → Flight I γ → Prop} :
    Occurs P (m' :: m :: before) ↔ P m m' ∨ Occurs P (m :: before) := by
  constructor
  · rintro ⟨m₁, m₀, past, suffix, here⟩
    rcases List.suffix_cons_iff.1 suffix with e | suffix
    · obtain ⟨rfl, rfl, rfl⟩ := by simpa using e
      exact .inl here
    · exact .inr ⟨m₁, m₀, past, suffix, here⟩
  · rintro (here | ⟨m₁, m₀, past, suffix, here⟩)
    · exact ⟨m', m, before, List.suffix_refl _, here⟩
    · exact ⟨m₁, m₀, past, suffix.trans (List.suffix_cons ..), here⟩

/-- Nothing has happened in a run that has just begun. -/
theorem not_occurs {P : Flight I γ → Flight I γ → Prop} (short : run.length ≤ 1) :
    ¬ Occurs P run := by
  rintro ⟨m₁, m₀, past, suffix, -⟩
  have long := suffix.length_le
  simp only [List.length_cons] at long
  omega

theorem times_congr {E E' : Flight I γ → Prop} (h : ∀ m, E m ↔ E' m) : times E run = times E' run :=
  congrArg (times · run) (funext fun m => propext (h m))

/-- What is counted has happened. -/
theorem times_pos {E : Flight I γ → Prop} :
    0 < times E run ↔ Occurs (fun m m' => E m ∧ m'.system.tasks ≠ m.system.tasks) run := by
  fun_induction times E run with
  | case1 m' m past ih =>
    rw [occurs_cons, ← ih]
    by_cases now : E m ∧ m'.system.tasks ≠ m.system.tasks
    · simp [now]
    · simp only [now, if_false, false_or, Nat.add_zero]
  | case2 run short =>
    simp only [Nat.lt_irrefl, false_iff]
    apply not_occurs
    rcases run with _ | ⟨m', _ | ⟨m, past⟩⟩
    · exact Nat.zero_le 1
    · exact Nat.le_refl 1
    · exact absurd rfl (short m' m past)

theorem Held.cons {e : Entry} (h : Held before s e) (m : Flight I γ) : Held (m :: before) s e :=
  let ⟨m', mem, found⟩ := h
  ⟨m', .tail _ mem, found⟩

/-- Unless a task is cancelled, nothing happens to it that its trail would have to tell. -/
theorem lore_grows (spared : ¬ m.Cancels m' t) :
    (lore (m :: before) s t).Grows (lore (m' :: m :: before) s t) where
  balked := by
    show Balked (m :: before) t ↔ Balked (m' :: m :: before) t
    simp [Balked, occurs_cons, spared]
  kept _ h := h.cons m'

end

/-! ## The invariant -/

/-- The task `t`, which brought `k` and stands at `x`, is on a trail whose marks it has added. -/
structure Accounted (run : List (Flight I γ)) (t : TaskId) (k : Lookup I)
    (x : Standing State I γ Outcome) (ms : List Mark) : Prop where
  tracks : Tracks k (lore run k.slot t) ms x
  adds : ∀ y : Mark, y.OfCache → gained t y run = ms.count y

/-- Every task is accounted for, and together they have made the marks of the cache. -/
structure Counted (run : List (Flight I γ)) (m : Flight I γ) : Prop where
  accounted : ∀ (t : TaskId) k x, m.calls[t]? = some k → m.system.tasks[t]? = some x →
    ∃ ms, Accounted run t k x ms
  absent : ∀ t : TaskId, m.calls[t]? = none →
    ¬ Balked run t ∧ ∀ y, gained t y run = 0
  total : ∀ y : Mark, y.OfCache →
    m.marks y = ∑ t ∈ Finset.range m.calls.length, gained t y run

/-- The loaders leave the marks of the cache alone. -/
def Discreet (m : Flight I γ) : Prop := ∀ k ∈ m.calls, Routine.Keeps SameMarks k.loader

section

variable {run before : List (Flight I γ)} {m m' : Flight I γ} {s : Slot} {t : TaskId} {y : Mark}
  {k : Lookup I} {x x' : Standing State I γ Outcome} {ms new : List Mark} {q : Task I}

/-- A task is accounted for after a step in which it has made the marks `new`. -/
theorem Accounted.next (h : Accounted (m :: before) t k x ms)
    (tracks : Tracks k (lore (m' :: m :: before) k.slot t) (ms ++ new) x')
    (adds : ∀ y : Mark, y.OfCache →
      (if m.turn = some t then m'.marks y - m.marks y else 0) = new.count y) :
    Accounted (m' :: m :: before) t k x' (ms ++ new) where
  tracks := tracks
  adds y hy := by rw [gained, h.adds y hy, adds y hy, List.count_append]

/-- A task without a turn makes no mark. -/
theorem Accounted.rests (h : Accounted (m :: before) t k x ms) (turn : m.turn ≠ some t)
    (tracks : Tracks k (lore (m' :: m :: before) k.slot t) ms x') :
    Accounted (m' :: m :: before) t k x' ms := by
  have next : Accounted (m' :: m :: before) t k x' (ms ++ []) :=
    h.next (by simpa using tracks) fun y _ => by simp [turn]
  simpa using next

/-- Nor does anybody while others change the state. -/
theorem Accounted.outside (h : Accounted (m :: before) t k x ms)
    (others : SameMarks m.system.state m'.system.state)
    (tasks : m'.system.tasks = m.system.tasks) :
    Accounted (m' :: m :: before) t k x ms := by
  have spared : ¬ m.Cancels m' t := fun cancels => cancels.tasks_ne tasks
  have next : Accounted (m' :: m :: before) t k x (ms ++ []) :=
    h.next (by simpa using h.tracks.mono (lore_grows spared)) fun y hy => by
      simp [marks, others y hy]
  simpa using next

/-- A task that has its turn makes the marks of the point at which it is. -/
theorem Accounted.took (h : Accounted (m :: before) t k (.ready q) ms) (turn : m.turn = some t)
    (discreet : Routine.Keeps SameMarks k.loader)
    (leaves : ∀ r, q = depart k.slot r → ∃ c, m.system.state.cache.leave? k.slot = some c)
    (took : Took m.system.state m'.system.state q x) :
    ∃ new, Marks k q new m.system.state m'.system.state ∧
      Accounted (m' :: m :: before) t k x (ms ++ new) := by
  obtain ⟨trail⟩ := h.tracks
  obtain ⟨new, made, tracks⟩ := trail.took discreet (fun e he => ⟨m, .head _, he⟩) leaves took
  have spared : ¬ m.Cancels m' t := by
    intro cancels
    have between := cancels.between
    simp [turn] at between
  refine ⟨new, made, h.next (tracks.mono (lore_grows spared)) fun y hy => ?_⟩
  have count := made.count y hy
  simp [turn, marks]
  omega

variable [DecidableEq γ]

/-- A task that has no turn before and after a step. -/
theorem Accounted.idle (h : Accounted (m :: before) t k x ms)
    (step : Step Lookup.program Aloof m m') (turn : m.turn ≠ some t) (turn' : m'.turn ≠ some t)
    (hx : m.system.tasks[t]? = some x) (hx' : m'.system.tasks[t]? = some x') :
    Accounted (m' :: m :: before) t k x' ms := by
  apply h.rests turn
  by_cases cancels : m.Cancels m' t
  · obtain ⟨y, hy, here⟩ := cancels.withdraws hx
    obtain rfl := Option.some.inj (here.symm.trans hx')
    have lore : Lore.Grows ⟨Balked (m :: before) t, Held (m :: before) k.slot⟩
        ⟨Balked (m :: before) t, Held (m' :: m :: before) k.slot⟩ :=
      ⟨.rfl, fun _ held => held.cons m'⟩
    refine (h.tracks.mono lore).withdrawn hy ?_
    show Balked (m' :: m :: before) t ↔ Balked (m :: before) t ∨ Balks x
    simp [Balked, occurs_cons, cancels, hx, or_comm]
  · obtain ⟨y, hy, goes⟩ := step.others turn turn' hx
    obtain rfl := Option.some.inj (hy.symm.trans hx')
    exact (h.tracks.mono (lore_grows cancels)).goes goes cancels

/-- Every task is accounted for after a step. -/
theorem Counted.accounts (h : Counted (m :: before) m) {seats : List Seat} (seated : Seated m seats)
    (step : Step Lookup.program Aloof m m') (discreet : Discreet m) (hk : m'.calls[t]? = some k)
    (hx' : m'.system.tasks[t]? = some x') :
    ∃ ms, Accounted (m' :: m :: before) t k x' ms := by
  cases hx : m.system.tasks[t]? with
  | none =>
    obtain ⟨turn, ht, k', same, rfl⟩ := step.new hx hx'
    have absent : m.calls[t]? = none := by simp [ht, ← seated.called]
    obtain rfl : k' = k := by
      subst same
      simpa [ht, ← seated.called] using hk
    obtain ⟨fresh, nothing⟩ := h.absent t absent
    have idle : m.turn ≠ some t := by simp [turn]
    have start : Accounted (m :: before) t k' (.ready k'.program : Standing State I γ Outcome) [] :=
      ⟨.ready (.called fresh), fun y _ => by simpa using nothing y⟩
    refine ⟨[], start.rests idle (.ready (.called ?_))⟩
    show ¬ Balked (m' :: m :: before) t
    simpa [Balked, occurs_cons, hx] using fresh
  | some x =>
    obtain ⟨k', -, hk', -, -⟩ := seated.stands t x hx
    obtain rfl := Option.some.inj ((step.calls hk').symm.trans hk)
    obtain ⟨ms, here⟩ := h.accounted t k' x hk' hx
    have quiet := discreet k' (List.mem_of_getElem? hk')
    have idle (turn : m.turn ≠ some t) (turn' : m'.turn ≠ some t) :
        ∃ ms, Accounted (m' :: m :: before) t k' x' ms :=
      ⟨ms, here.idle step turn turn' hx hx'⟩
    have takes {p : Task I} {y : Standing State I γ Outcome} (turn : m.turn = some t)
        (ready : m.system.tasks[t]? = some (.ready p)) (task : m'.system.tasks[t]? = some y)
        (took : Took m.system.state m'.system.state p y) :
        ∃ ms, Accounted (m' :: m :: before) t k' x' ms := by
      obtain rfl := Option.some.inj (ready.symm.trans hx)
      obtain rfl := Option.some.inj (task.symm.trans hx')
      obtain ⟨new, -, there⟩ := here.took turn quiet (seated.leaves ready hk') took
      exact ⟨_, there⟩
    cases step.kind with
    | between turn turn' => exact idle (by simp [turn]) (by simp [turn'])
    | outside others _ _ tasks =>
      rw [tasks, hx] at hx'
      cases hx'
      exact ⟨ms, here.outside others.marks tasks⟩
    | starts u p turn turn' ready calls task =>
      by_cases mine : u = t
      · subst mine
        obtain rfl := Option.some.inj (task.symm.trans hx')
        have spared : ¬ m.Cancels m' u := by
          intro cancels
          have after := congrArg Moment.turn cancels.after
          simp [turn'] at after
        have trail := here.tracks.trail hx ready
        exact ⟨ms, here.rests (by simp [turn]) (.ready (trail.mono (lore_grows spared)))⟩
      · exact idle (by simp [turn]) (by simpa [turn'] using mine)
    | goesOn u p q turn turn' ready calls task took =>
      by_cases mine : u = t
      · subst mine
        exact takes turn ready task took
      · exact idle (by simpa [turn] using mine) (by simpa [turn'] using mine)
    | stops u p y turn turn' ready calls task stopped took =>
      by_cases mine : u = t
      · subst mine
        exact takes turn ready task took
      · exact idle (by simpa [turn] using mine) (by simp [turn'])

open Classical in
/-- A step adds the mark of the point at which the task is whose turn it is. -/
theorem Counted.makes (h : Counted (m :: before) m) {seats : List Seat} (seated : Seated m seats)
    (step : Step Lookup.program Aloof m m') (discreet : Discreet m) (hy : y.OfCache) :
    m'.marks y = m.marks y +
      if (∃ t, m.Emitting t y) ∧ m'.system.tasks ≠ m.system.tasks then 1 else 0 := by
  have idle (turn : m.turn = none) (state : m'.system.state = m.system.state) :
      m'.marks y = m.marks y +
        if (∃ t, m.Emitting t y) ∧ m'.system.tasks ≠ m.system.tasks then 1 else 0 := by
    simp [marks, state, Emitting, turn]
  have took {u : TaskId} {p : Task I} {x : Standing State I γ Outcome} (turn : m.turn = some u)
      (ready : m.system.tasks[u]? = some (.ready p)) (task : m'.system.tasks[u]? = some x)
      (took : Took m.system.state m'.system.state p x) :
      m'.marks y = m.marks y +
        if (∃ t, m.Emitting t y) ∧ m'.system.tasks ≠ m.system.tasks then 1 else 0 := by
    obtain ⟨k, -, hk, -, -⟩ := seated.at_turn ready
    obtain ⟨ms, here⟩ := h.accounted u k _ hk ready
    obtain ⟨new, made, -⟩ :=
      here.took turn (discreet k (List.mem_of_getElem? hk)) (seated.leaves ready hk) took
    have moved : m'.system.tasks ≠ m.system.tasks := by
      intro same
      rw [same] at task
      exact took.moves (Option.some.inj (task.symm.trans ready))
    have emitting : (∃ t, m.Emitting t y) ↔ y ∈ new := by
      rw [← made.emits_iff took]
      constructor
      · rintro ⟨t, turn', k', q, hk', hq, emits⟩
        obtain rfl := Option.some.inj (turn'.symm.trans turn)
        obtain rfl := Option.some.inj (hk'.symm.trans hk)
        obtain rfl := Standing.ready.inj (Option.some.inj (hq.symm.trans ready))
        exact emits
      · exact fun emits => ⟨u, turn, k, p, hk, ready, emits⟩
    have count := made.count y hy
    rw [made.once.count] at count
    simpa [marks, emitting, moved] using count
  cases step.kind with
  | between turn _ state => exact idle turn state
  | outside others _ _ tasks =>
    have count := others.marks y hy
    simpa [marks, tasks] using count
  | starts _ _ turn _ _ _ _ state => exact idle turn state
  | goesOn u p q turn _ ready _ task step => exact took turn ready task step
  | stops u p x turn _ ready _ task _ step => exact took turn ready task step

/-- What a step adds to the tally is added by the task whose turn it is. -/
theorem Counted.totals (h : Counted (m :: before) m) {seats : List Seat} (seated : Seated m seats)
    (reached : m.turn = none ∨ ∃ t, m.turn = some t ∧ t < m.calls.length)
    (step : Step Lookup.program Aloof m m') (discreet : Discreet m) (hy : y.OfCache) :
    m'.marks y = ∑ t ∈ Finset.range m'.calls.length, gained t y (m' :: m :: before) := by
  have le := step.length_calls
  have old : ∑ t ∈ Finset.range m'.calls.length, gained t y (m :: before) = m.marks y := by
    rw [h.total y hy]
    symm
    apply Finset.sum_subset (Finset.range_subset_range.2 le)
    intro t _ new
    have absent : m.calls[t]? = none := by simpa using new
    exact (h.absent t absent).2 y
  have makes := h.makes seated step discreet hy
  simp only [gained, Finset.sum_add_distrib, old]
  obtain turn | ⟨u, turn, lt⟩ := reached
  · simpa [turn, Emitting] using makes
  · have more : m.marks y ≤ m'.marks y := by
      rw [makes]
      exact Nat.le_add_right _ _
    have lt' : u < m'.calls.length := Nat.lt_of_lt_of_le lt le
    simp only [turn, Option.some.injEq, Finset.sum_ite_eq, Finset.mem_range, lt', if_true]
    exact (Nat.add_sub_cancel' more).symm

/-- A step keeps the invariant if the loaders leave the marks of the cache alone. -/
theorem Counted.step (h : Counted (m :: before) m) {seats : List Seat} (seated : Seated m seats)
    (mine : ∀ u, m.turn = some u → ∃ q, m.system.tasks[u]? = some (.ready q))
    (step : Step Lookup.program Aloof m m') (discreet : Discreet m) :
    Counted (m' :: m :: before) m' where
  accounted _ _ _ hk hx := h.accounts seated step discreet hk hx
  absent t ht := by
    have absent : m.calls[t]? = none := by
      rw [List.getElem?_eq_none_iff] at ht ⊢
      exact step.length_calls.trans ht
    have nobody : m.system.tasks[t]? = none := by
      rw [List.getElem?_eq_none_iff] at absent ⊢
      exact seated.called ▸ absent
    obtain ⟨fresh, nothing⟩ := h.absent t absent
    have turn : m.turn ≠ some t := by
      intro turn
      obtain ⟨q, hq⟩ := mine t turn
      simp [nobody] at hq
    refine ⟨?_, fun y => by simp [gained, turn, nothing y]⟩
    simpa [Balked, occurs_cons, nobody] using fresh
  total y hy := by
    apply h.totals seated _ step discreet hy
    cases turn : m.turn with
    | none => exact .inl rfl
    | some u =>
      obtain ⟨q, hq⟩ := mine u turn
      refine .inr ⟨u, rfl, ?_⟩
      rw [seated.called]
      exact (List.getElem?_eq_some_iff.1 hq).1

/-! ## Whole runs -/

variable {threshold : Level} {keepRetriable : Bool}

theorem Reached.foreign
    (h : Reached Lookup.program Aloof (State.initial threshold keepRetriable) m) :
    Reached Lookup.program Foreign (State.initial threshold keepRetriable) m := by
  induction h with
  | refl => exact .refl
  | tail _ step ih => exact ih.tail (step.mono fun _ _ h => h.foreign)

/-- What holds of a run that has just begun and of every next step holds of every run. -/
theorem Counted.of_run
    (run : Run Lookup.program Aloof (State.initial threshold keepRetriable) (m :: before))
    (discreet : Discreet m) : Counted (m :: before) m := by
  generalize h : m :: before = ms at run
  induction run generalizing m before with
  | start =>
    cases h
    exact ⟨fun t k x hk => by simp at hk, fun t _ => ⟨not_occurs (Nat.le_refl 1), fun y => rfl⟩,
      fun y _ => rfl⟩
  | step run step ih =>
    cases h
    have discreet' : Discreet _ := fun k hk => discreet k (step.mem_calls hk)
    have reached := Reached.foreign run.reached
    obtain ⟨seats, seated⟩ := Seated.of_reached reached
    exact (ih discreet' rfl).step seated (fun _ => reached.ready_of_turn) step discreet'

variable {μ : CacheMap} {c : Category}

omit [DecidableEq γ] in
theorem emitting_iff (turn : m.turn = some t) : (∃ u, m.Emitting u y) ↔ m.Emitting t y := by
  refine ⟨fun ⟨u, emitting⟩ => ?_, fun emitting => ⟨t, emitting⟩⟩
  obtain rfl := Option.some.inj (emitting.1.symm.trans turn)
  exact emitting

/-- A counter shows how often a task was at a point at which it makes the mark, and what a task has
added is how often it was itself. -/
theorem marks_eq_times
    (run : Run Lookup.program Aloof (State.initial threshold keepRetriable) (m :: before))
    (discreet : Discreet m) (hy : y.OfCache) :
    m.marks y = times (fun m => ∃ t, m.Emitting t y) (m :: before) ∧
      ∀ t, gained t y (m :: before) = times (·.Emitting t y) (m :: before) := by
  generalize h : m :: before = ms at run
  induction run generalizing m before with
  | start =>
    cases h
    exact ⟨rfl, fun _ => rfl⟩
  | @step m' m past run step ih =>
    cases h
    have discreet' : Discreet m' := fun k hk => discreet k (step.mem_calls hk)
    obtain ⟨seats, seated⟩ := Seated.of_reached (Reached.foreign run.reached)
    have makes := (Counted.of_run run discreet').makes seated step discreet' hy
    obtain ⟨total, own⟩ := ih discreet' rfl
    refine ⟨by rw [makes, total, times], fun t => ?_⟩
    rw [gained, times, own t]
    by_cases turn : m'.turn = some t
    · have mine := emitting_iff (y := y) turn
      rw [if_pos turn, makes, Nat.add_sub_cancel_left]
      grind
    · simp [turn, Emitting]

omit [DecidableEq γ] in
/-- What a call adds to a counter is one or none. -/
theorem Counted.gained_le_one (h : Counted (m :: before) m) {seats : List Seat}
    (seated : Seated m seats) (hy : y.OfCache) (t : TaskId) : gained t y (m :: before) ≤ 1 := by
  cases hk : m.calls[t]? with
  | none =>
    rw [(h.absent t hk).2 y]
    exact Nat.zero_le 1
  | some k =>
    obtain ⟨pos, x, -, hx, -⟩ := seated.seat hk
    obtain ⟨ms, here⟩ := h.accounted t k x hk hx
    rw [here.adds y hy]
    apply List.nodup_iff_count_le_one.1
    obtain rfl | ⟨e, rfl⟩ | ⟨c, rfl⟩ := here.tracks.shape <;> simp

omit [DecidableEq γ] in
/-- So a counter shows how many calls have added to it. -/
theorem Counted.marks_eq_ncard (h : Counted (m :: before) m) {seats : List Seat}
    (seated : Seated m seats) (hy : y.OfCache) :
    m.marks y = {t | 0 < gained t y (m :: before)}.ncard := by
  have some : {t : TaskId | 0 < gained t y (m :: before)} =
      ((Finset.range m.calls.length).filter (0 < gained · y (m :: before)) : Finset TaskId) := by
    ext t
    by_cases lt : t < m.calls.length
    · simp [lt]
    · simp [lt, (h.absent t (List.getElem?_eq_none (Nat.le_of_not_lt lt))).2 y]
  rw [h.total y hy, some, Set.ncard_coe_finset, Finset.card_filter]
  apply Finset.sum_congr rfl
  intro t _
  have le := h.gained_le_one seated hy t
  split <;> omega

/-! ### What the marks tell -/

omit [DecidableEq γ] in
theorem emitting_miss :
    (∃ t, m.Emitting t (.lookup μ .miss)) ↔ ∃ s t, s.map = μ ∧ m.Starts s t := by
  constructor
  · rintro ⟨t, turn, k, q, hk, hq, emits⟩
    generalize hy : Mark.lookup μ .miss = y at emits
    cases emits with
    | missing l =>
      cases hy
      exact ⟨k.slot, t, rfl, turn, k, l, hk, rfl, hq⟩
    | failure l part => cases hy
    | _ => rename_i e; cases e <;> cases hy
  · rintro ⟨s, t, rfl, turn, k, l, hk, rfl, hq⟩
    exact ⟨t, turn, k, _, hk, hq, .missing l⟩

omit [DecidableEq γ] in
theorem emitting_served {d : LookupEnd} (found : d ≠ .miss) :
    m.Emitting t (.lookup μ d) ↔ ∃ s e, s.map = μ ∧ e.ending = d ∧ m.Serves s t e := by
  constructor
  · rintro ⟨turn, k, q, hk, hq, emits⟩
    generalize hy : Mark.lookup μ d = y at emits
    cases emits with
    | missing l =>
      cases hy
      exact absurd rfl found
    | found e =>
      cases hy
      exact ⟨k.slot, e, rfl, rfl, turn, k, hk, rfl, .inl hq⟩
    | foundInside l e =>
      cases hy
      exact ⟨k.slot, e, rfl, rfl, turn, k, hk, rfl, .inr ⟨l, hq⟩⟩
    | failure l part => cases hy
  · rintro ⟨s, e, rfl, rfl, turn, k, hk, rfl, hq | ⟨l, hq⟩⟩
    · exact ⟨turn, k, _, hk, hq, .found e⟩
    · exact ⟨turn, k, _, hk, hq, .foundInside l e⟩

omit [DecidableEq γ] in
theorem emitting_failure :
    (∃ t, m.Emitting t (.failure c)) ↔
      ∃ s t f, m.Finishes s t (.error (.resolution f)) ∧ f.category = c := by
  constructor
  · rintro ⟨t, turn, k, q, hk, hq, emits⟩
    generalize hy : Mark.failure c = y at emits
    cases emits with
    | @failure l f part =>
      cases hy
      exact ⟨k.slot, t, f, ⟨turn, k, l, hk, rfl, part, hq⟩, rfl⟩
    | _ => cases hy
  · rintro ⟨s, t, f, ⟨turn, k, l, hk, rfl, part, hq⟩, rfl⟩
    exact ⟨t, turn, k, _, hk, hq, .failure l part⟩

/-- The counters of the cache after a run. -/
structure Balanced (run : List (Flight I γ)) (m : Flight I γ) : Prop where
  /-- A counter is made up by what the calls have added. -/
  total : ∀ y : Mark, y.OfCache → m.marks y = ∑ t ∈ Finset.range m.calls.length, gained t y run
  /-- A call has added one to the lookups of its map, or nothing yet, and besides it at most one to
  the errors, and nothing at all if it was cancelled before it got the lock. What it has added in
  the end goes with its outcome. -/
  calls : ∀ (t : TaskId) k x, m.calls[t]? = some k → m.system.tasks[t]? = some x →
    ∃ ms, (∀ y : Mark, y.OfCache → gained t y run = ms.count y) ∧ k.Shape ms ∧
      (Balked run t → ms = []) ∧ ∀ r, x = .ended r → Closed k (lore run k.slot t) ms r
  /-- The misses of a map are the starts of loaders for it. -/
  misses : ∀ μ, m.marks (.lookup μ .miss) =
    times (fun m => ∃ s t, s.map = μ ∧ m.Starts s t) run
  /-- The other lookups of a map are the calls that were served what was kept. -/
  served : ∀ μ d, d ≠ .miss → m.marks (.lookup μ d) =
    {t | ∃ s e, s.map = μ ∧ e.ending = d ∧ Served run s t e}.ncard
  /-- The errors are the ends of loaders with an error, by whether a retry may cure it. -/
  failures : ∀ c, m.marks (.failure c) =
    times (fun m => ∃ s t f, m.Finishes s t (.error (.resolution f)) ∧
      (f.retriable = true ↔ c = .transient)) run

/-- Whatever calls run together, fail, are cancelled or find errors dropped, the counters of the
cache add up. -/
theorem balanced
    (run : Run Lookup.program Aloof (State.initial threshold keepRetriable) (m :: before))
    (discreet : Discreet m) : Balanced (m :: before) m := by
  have counted := Counted.of_run run discreet
  obtain ⟨seats, seated⟩ := Seated.of_reached (Reached.foreign run.reached)
  refine ⟨counted.total, fun t k x hk hx => ?_, fun μ => ?_, fun μ d found => ?_, fun c => ?_⟩
  · obtain ⟨ms, here⟩ := counted.accounted t k x hk hx
    refine ⟨ms, here.adds, here.tracks.shape, here.tracks.of_balked, ?_⟩
    rintro r rfl
    cases here.tracks with
    | ended closed => exact closed
  · rw [(marks_eq_times (y := .lookup μ .miss) run discreet trivial).1]
    exact times_congr fun m => emitting_miss
  · rw [counted.marks_eq_ncard (y := .lookup μ d) seated trivial]
    congr 1
    ext t
    have once : 0 < gained t (.lookup μ d) (m :: before) ↔
        Occurs (fun m m' => m.Emitting t (.lookup μ d) ∧ m'.system.tasks ≠ m.system.tasks)
          (m :: before) := by
      rw [(marks_eq_times (y := .lookup μ d) run discreet trivial).2 t, times_pos]
    simp only [Set.mem_ofPred_eq, once, emitting_served found, Served, Occurs]
    grind
  · rw [(marks_eq_times (y := .failure c) run discreet trivial).1]
    refine times_congr fun m => emitting_failure.trans ?_
    have sorted (f : ResolutionError) :
        f.category = c ↔ (f.retriable = true ↔ c = .transient) := by
      unfold ResolutionError.category
      cases c <;> simp
    simp only [sorted]

end

end Flight

end Registrar.Cache
