import Mathlib.Data.List.Basic
import Registrar.Proofs.Schedule.Turnstile

/-!
# Calls that queue before a turnstile

`Queued` says how the scene stands after the calls of some tasks, its `past`, have been made. Those
who asked for the lock and were not cancelled since are the past, whoever has the lock, and those
who wait for it, in this order. What happens between turns keeps it so: a task is spawned, a gate
opens, or a call is cancelled that waits for the lock or has just got it.
-/

namespace Registrar

variable {κ σ : Type} {I : Interface} {γ ε α : Type}

namespace Turnstile

/-! ## Who stands where -/

section

variable (T : Turnstile κ σ I α) (w : Program.World I ε) (m : Scene κ σ I γ ε α)

/-- The task neither has the lock nor has had it for its call `k`. -/
inductive Aside (t : TaskId) (k : κ) : Prop where
  | asking (stands : m.system.tasks[t]? = some (.ready (T.program k)))
    (fresh : ∀ ev ∈ m.history, ev.task ≠ t) (new : t ∉ m.system.line)
  | waiting (stands : m.system.tasks[t]? = some (.waiting T.lock (T.inside k) (.done T.refused)))
    (asked : t ∈ Event.admitted m.history)
  | withdrawn (stands : m.system.tasks[t]? = some (.ready (.done T.refused)))
    (cancelled : .cancel t ∈ m.history)
  | dropped (stands : m.system.tasks[t]? = some (.ended T.refused))
    (cancelled : .cancel t ∈ m.history)

/-- A task that has stopped inside the lock and still has to do `p`. -/
inductive Inward (p : Program σ I α) : Standing σ I γ α → Prop where
  | held (g : γ) (q : Program σ I α) : Inward p (.held g (p.bind T.leave) q)
  | awake (q : Program σ I α) : Inward p (.awake none (p.bind T.leave) q)

/-- Who has the lock, if anyone does. Until its call is made, the state and the world are `S` and
`E`; what is left of a call leads where the whole call leads from there. -/
inductive Front (S : σ) (E : ε) : Option TaskId → Prop where
  | free (locks : ∀ l, Assoc.get? l m.system.locks = none) (empty : T.waiting m.system = [])
    (state : m.system.state = S) (world : m.world = E) : Front S E none
  /-- A task that was cancelled when it had got the lock, and has yet to give it back. -/
  | revoked (t : TaskId) (stands : m.system.tasks[t]? = some (.ready (T.leave T.refused)))
    (holds : T.Holds t none m.system.locks) (cancelled : .cancel t ∈ m.history)
    (state : m.system.state = S) (world : m.world = E) : Front S E none
  | granted (t : TaskId) (k : κ) (call : m.calls[t]? = some k)
    (stands : m.system.tasks[t]? =
      some (.awake (some T.lock) (T.inside k) (.done T.refused)))
    (holds : T.Holds t none m.system.locks) (state : m.system.state = S) (world : m.world = E) :
    Front S E (some t)
  | inside (t : TaskId) (k : κ) (held : Option LockId) (p : Program σ I α)
    (x : Standing σ I γ α) (call : m.calls[t]? = some k) (stands : m.system.tasks[t]? = some x)
    (inward : T.Inward p x) (holds : T.Holds t held m.system.locks)
    (apart : p.Apart T.lock T.Fit held)
    (runs : (T.body k).run w S E = p.run w m.system.state m.world) : Front S E (some t)

variable (start : σ) (e : ε)

/-- The calls of the tasks are made one after another. -/
def served (ts : List TaskId) : List α × σ × ε :=
  Program.runEach w T.body (ts.filterMap fun t => m.calls[t]?) start e

/-- The calls of the tasks `past` were made as if one after another, and `front` is the task that
has the lock for its call. -/
structure Queued (past : List TaskId) (front : Option TaskId) : Prop where
  called : m.calls.length = m.system.tasks.length
  known : ∀ ev ∈ m.history, ev.task < m.calls.length
  lined : ∀ t ∈ m.system.line, t < m.calls.length
  fit : T.Fit m.system.state
  admitted : Event.admitted m.history = past ++ (front.toList ++ T.waiting m.system)
  passed : (past.map fun t => m.system.tasks[t]?) =
    (T.served w m start e past).1.map fun a => some (.ended a)
  /-- The tasks ended in the order of their calls. -/
  ended : (m.system.results.map Prod.fst).filter (fun t => .cancel t ∉ m.history) = past
  front : T.Front w m (T.served w m start e past).2.1 (T.served w m start e past).2.2 front
  others : ∀ t k, m.calls[t]? = some k → t ∉ past →
    Assoc.get? T.lock m.system.locks ≠ some t → T.Aside m t k

end

variable {T : Turnstile κ σ I α} {w : Program.World I ε} {start : σ} {e : ε}
  {m m' : Scene κ σ I γ ε α} {past : List TaskId} {front : Option TaskId} {t u : TaskId} {k : κ}

theorem Aside.keep (h : T.Aside m t k) (tasks : m'.system.tasks[t]? = m.system.tasks[t]?)
    (line : t ∈ m'.system.line → t ∈ m.system.line)
    (events : ∀ ev, ev.task = t → (ev ∈ m'.history ↔ ev ∈ m.history)) : T.Aside m' t k := by
  cases h with
  | asking stands fresh new =>
    exact .asking (tasks.trans stands) (fun ev hev here => fresh ev ((events ev here).1 hev) here)
      (mt line new)
  | waiting stands asked =>
    rw [Event.mem_admitted, ← events (.turn t) rfl, ← events (.cancel t) rfl] at asked
    exact .waiting (tasks.trans stands) (Event.mem_admitted.2 asked)
  | withdrawn stands cancelled =>
    exact .withdrawn (tasks.trans stands) ((events (.cancel t) rfl).2 cancelled)
  | dropped stands cancelled =>
    exact .dropped (tasks.trans stands) ((events (.cancel t) rfl).2 cancelled)

/-- Such a task is ready, waits for the lock or has ended. -/
theorem Aside.stands (h : T.Aside m t k) :
    (∃ p, m.system.tasks[t]? = some (.ready p)) ∨
      (∃ p q, m.system.tasks[t]? = some (.waiting T.lock p q)) ∨
        ∃ a, m.system.tasks[t]? = some (.ended a) := by
  cases h with
  | asking stands => exact .inl ⟨_, stands⟩
  | waiting stands => exact .inr (.inl ⟨_, _, stands⟩)
  | withdrawn stands => exact .inl ⟨_, stands⟩
  | dropped stands => exact .inr (.inr ⟨_, stands⟩)

theorem Front.holder {S : σ} {E : ε} (h : T.Front w m S E (some t)) :
    Assoc.get? T.lock m.system.locks = some t := by
  cases h with
  | granted _ k call stands holds => exact holds.holder
  | inside _ k held p x call stands inward holds => exact holds.holder

/-- The holder of the lock neither waits nor has ended. -/
theorem Front.stands {S : σ} {E : ε} (h : T.Front w m S E front)
    (holder : Assoc.get? T.lock m.system.locks = some t) :
    ∃ x, m.system.tasks[t]? = some x ∧ x.result? = none ∧ ∀ l p q, x ≠ .waiting l p q := by
  cases h with
  | free locks => simp [locks] at holder
  | revoked u stands holds =>
    obtain rfl := Option.some.inj (holds.holder.symm.trans holder)
    exact ⟨_, stands, rfl, by simp⟩
  | granted u k call stands holds =>
    obtain rfl := Option.some.inj (holds.holder.symm.trans holder)
    exact ⟨_, stands, rfl, by simp⟩
  | inside u k held p x call stands inward holds =>
    obtain rfl := Option.some.inj (holds.holder.symm.trans holder)
    cases inward <;> exact ⟨_, stands, rfl, by simp⟩

theorem Front.free_of_none {S : σ} {E : ε} (h : T.Front w m S E front)
    (none : Assoc.get? T.lock m.system.locks = none) :
    front = .none ∧ (∀ l, Assoc.get? l m.system.locks = .none) ∧ T.waiting m.system = [] ∧
      m.system.state = S ∧ m.world = E := by
  cases h with
  | free locks empty state world => exact ⟨rfl, locks, empty, state, world⟩
  | revoked u stands holds => simp [holds.holder] at none
  | granted u k call stands holds => simp [holds.holder] at none
  | inside u k held p x call stands inward holds => simp [holds.holder] at none

theorem Front.granted_of_awake {S : σ} {E : ε} (h : T.Front w m S E front)
    (holder : Assoc.get? T.lock m.system.locks = some t) {l : LockId} {p q : Program σ I α}
    (hw : m.system.tasks[t]? = some (.awake (some l) p q)) :
    front = some t ∧ l = T.lock ∧ q = .done T.refused ∧ T.Holds t none m.system.locks ∧
      m.system.state = S ∧ m.world = E := by
  cases h with
  | free locks => simp [locks] at holder
  | revoked u stands holds =>
    obtain rfl := Option.some.inj (holds.holder.symm.trans holder)
    cases stands.symm.trans hw
  | granted u k call stands holds state world =>
    obtain rfl := Option.some.inj (holds.holder.symm.trans holder)
    cases stands.symm.trans hw
    exact ⟨rfl, rfl, rfl, holds, state, world⟩
  | inside u k held p x call stands inward holds =>
    obtain rfl := Option.some.inj (holds.holder.symm.trans holder)
    cases inward <;> cases stands.symm.trans hw

/-- Nothing that the lock protects has changed, and whoever has it or is among `past` has not moved,
unless a gate was opened. -/
structure Quiet (T : Turnstile κ σ I α) (past : List TaskId) (m m' : Scene κ σ I γ ε α) :
    Prop where
  state : m'.system.state = m.system.state
  world : m'.world = m.world
  locks : m'.system.locks = m.system.locks
  calls : ∀ (t : TaskId) k, m.calls[t]? = some k → m'.calls[t]? = some k
  history : m.history ⊆ m'.history
  tasks : ∀ (t : TaskId) x, m.system.tasks[t]? = some x →
    (t ∈ past ∨ Assoc.get? T.lock m.system.locks = some t) →
    m'.system.tasks[t]? = some x ∨
      ∃ g p q, x = .held g p q ∧ m'.system.tasks[t]? = some (.awake none p q)

theorem Front.of_quiet {S : σ} {E : ε} (h : T.Front w m S E front) (quiet : Quiet T past m m')
    (empty : (∀ l, Assoc.get? l m.system.locks = none) → T.waiting m.system = [] →
      T.waiting m'.system = []) : T.Front w m' S E front := by
  cases h with
  | free locks none state world =>
    exact .free (quiet.locks ▸ locks) (empty locks none) (quiet.state.trans state)
      (quiet.world.trans world)
  | revoked t stands holds cancelled state world =>
    have stands' := (quiet.tasks t _ stands (.inr holds.holder)).resolve_right (by simp)
    exact .revoked t stands' (quiet.locks ▸ holds) (quiet.history cancelled)
      (quiet.state.trans state) (quiet.world.trans world)
  | granted t k hk stands holds state world =>
    have stands' := (quiet.tasks t _ stands (.inr holds.holder)).resolve_right (by simp)
    exact .granted t k (quiet.calls t k hk) stands' (quiet.locks ▸ holds) (quiet.state.trans state)
      (quiet.world.trans world)
  | inside t k held p x hk stands inward holds apart runs =>
    rw [← quiet.state, ← quiet.world] at runs
    rcases quiet.tasks t _ stands (.inr holds.holder) with same | ⟨g, p', q, rfl, awake⟩
    · exact .inside t k held p x (quiet.calls t k hk) same inward (quiet.locks ▸ holds) apart runs
    · cases inward
      exact .inside t k held p _ (quiet.calls t k hk) awake (.awake q) (quiet.locks ▸ holds) apart
        runs

namespace Queued

section

variable (h : T.Queued w m start e past front)

include h

theorem nodup_waiting : (T.waiting m.system).Nodup := by
  have all := h.admitted ▸ Event.nodup_admitted m.history
  exact (List.nodup_append.1 (List.nodup_append.1 all).2.1).2.1

theorem ended_of_mem (ht : t ∈ past) : ∃ a, m.system.tasks[t]? = some (.ended a) := by
  have mem := List.mem_map_of_mem (f := fun t => m.system.tasks[t]?) ht
  rw [h.passed] at mem
  obtain ⟨a, -, ha⟩ := List.mem_map.1 mem
  exact ⟨a, ha.symm⟩

theorem not_mem_of_stands {x : Standing σ I γ α} (hx : m.system.tasks[t]? = some x)
    (going : x.result? = none) : t ∉ past := by
  intro ht
  obtain ⟨a, ha⟩ := h.ended_of_mem ht
  obtain rfl := Option.some.inj (ha.symm.trans hx)
  cases going

/-- Each task is one whose call was made, the holder of the lock or one aside. -/
theorem place (hk : m.calls[t]? = some k) :
    t ∈ past ∨ Assoc.get? T.lock m.system.locks = some t ∨ T.Aside m t k := by
  by_cases passed : t ∈ past
  · exact .inl passed
  · by_cases holder : Assoc.get? T.lock m.system.locks = some t
    · exact .inr (.inl holder)
    · exact .inr (.inr (h.others t k hk passed holder))

theorem call_of_lt (lt : t < m.system.tasks.length) : ∃ k, m.calls[t]? = some k :=
  ⟨_, List.getElem?_eq_getElem (h.called.symm ▸ lt)⟩

/-- Who waits for a lock waits for this one, to make its call. -/
theorem waits {l : LockId} {p q : Program σ I α}
    (hw : m.system.tasks[t]? = some (.waiting l p q)) :
    l = T.lock ∧ ∃ k, m.calls[t]? = some k ∧ p = T.inside k ∧ q = .done T.refused := by
  obtain ⟨k, hk⟩ := h.call_of_lt (List.getElem?_eq_some_iff.1 hw).1
  rcases h.place hk with passed | holder | aside
  · exact absurd passed (h.not_mem_of_stands hw rfl)
  · obtain ⟨x, hx, -, waits⟩ := h.front.stands holder
    exact absurd (Option.some.inj (hx.symm.trans hw)) (waits _ _ _)
  · cases aside with
    | waiting stands =>
      cases stands.symm.trans hw
      exact ⟨rfl, k, hk, rfl, rfl⟩
    | asking stands => cases stands.symm.trans hw
    | withdrawn stands => cases stands.symm.trans hw
    | dropped stands => cases stands.symm.trans hw

theorem only : T.Only m.system := fun _ _ _ _ hw => (h.waits hw).1

theorem event_of_mem (ht : t ∈ past ++ (front.toList ++ T.waiting m.system)) :
    .turn t ∈ m.history ∧ .cancel t ∉ m.history :=
  Event.mem_admitted.1 (h.admitted ▸ ht)

theorem lt_of_mem (ht : t ∈ past) : t < m.calls.length :=
  h.known _ (h.event_of_mem (List.mem_append_left _ ht)).1

end

/-! ### Between turns -/

theorem initial (fit : T.Fit start) :
    T.Queued w (.initial start e : Scene κ σ I γ ε α) start e [] none where
  called := rfl
  known := by simp [Scene.initial]
  lined := by simp [Scene.initial, System.initial]
  fit := fit
  admitted := rfl
  passed := rfl
  ended := rfl
  front := .free (fun _ => rfl) rfl rfl rfl
  others t k hk := by simp [Scene.initial] at hk

theorem served_of_calls (h : T.Queued w m start e past front)
    (calls : ∀ (t : TaskId) k, m.calls[t]? = some k → m'.calls[t]? = some k) :
    T.served w m' start e past = T.served w m start e past := by
  unfold served
  rw [List.filterMap_congr fun t ht => ?_]
  have hk := List.getElem?_eq_getElem (h.lt_of_mem ht)
  exact (calls t _ hk).trans hk.symm

theorem quiet (h : T.Queued w m start e past front) (quiet : Quiet T past m m')
    (called : m'.calls.length = m'.system.tasks.length)
    (known : ∀ ev ∈ m'.history, ev.task < m'.calls.length)
    (lined : ∀ t ∈ m'.system.line, t < m'.calls.length)
    (empty : (∀ l, Assoc.get? l m.system.locks = none) → T.waiting m.system = [] →
      T.waiting m'.system = [])
    (admitted : Event.admitted m'.history = past ++ (front.toList ++ T.waiting m'.system))
    (ended : (m'.system.results.map Prod.fst).filter (fun t => .cancel t ∉ m'.history) = past)
    (others : ∀ t k, m'.calls[t]? = some k → t ∉ past →
      Assoc.get? T.lock m.system.locks ≠ some t → T.Aside m' t k) :
    T.Queued w m' start e past front where
  called := called
  known := known
  lined := lined
  fit := quiet.state ▸ h.fit
  admitted := admitted
  passed := by
    rw [served_of_calls h quiet.calls, ← h.passed]
    refine List.map_congr_left fun t ht => ?_
    obtain ⟨a, ha⟩ := h.ended_of_mem ht
    rw [ha]
    exact (quiet.tasks t _ ha (.inl ht)).resolve_right (by simp)
  ended := ended
  front := by
    rw [served_of_calls h quiet.calls]
    exact h.front.of_quiet quiet empty
  others t k hk new holder := others t k hk new (quiet.locks ▸ holder)

theorem spawn (h : T.Queued w m start e past front) (k : κ) :
    T.Queued w (m.enter T.program k) start e past front := by
  have quiet : Quiet T past m (m.enter T.program k) := {
    state := rfl
    world := rfl
    locks := rfl
    calls := fun t j hj =>
      (List.getElem?_append_left (List.getElem?_eq_some_iff.1 hj).1).trans hj
    history := fun _ hev => hev
    tasks := fun t x hx _ => .inl <|
      (List.getElem?_append_left (List.getElem?_eq_some_iff.1 hx).1).trans hx }
  have waits : T.waiting (m.enter T.program k).system = T.waiting m.system := waiting_spawn _ _
  refine h.quiet quiet (by simp [Scene.enter, System.spawn, h.called]) (fun ev hev => ?_)
    (fun t ht => ?_) (fun _ empty => waits.trans empty) (waits ▸ h.admitted) h.ended
    fun t j hj new holder => ?_
  · simpa using Nat.lt_succ_of_lt (h.known ev hev)
  · simpa using Nat.lt_succ_of_lt (h.lined t ht)
  rw [Scene.enter_calls] at hj
  by_cases lt : t < m.calls.length
  · rw [List.getElem?_append_left lt] at hj
    refine (h.others t j hj new holder).keep ?_ (fun ht => ht) fun ev _ => Iff.rfl
    exact List.getElem?_append_left (h.called ▸ lt)
  · have ge := Nat.le_of_not_lt lt
    rw [List.getElem?_append_right ge] at hj
    obtain ⟨last, rfl⟩ := by simpa [List.getElem?_singleton] using hj
    obtain rfl : t = m.calls.length := Nat.le_antisymm (Nat.sub_eq_zero_iff_le.1 last) ge
    refine .asking ?_ (fun ev hev here => ?_) fun ht => ?_
    · simp [Scene.enter, System.spawn, h.called]
    · exact absurd (h.known ev hev) (here ▸ Nat.lt_irrefl _)
    · exact absurd (h.lined _ ht) (Nat.lt_irrefl _)

/-- Tasks were awakened inside the lock. -/
structure Opens (T : Turnstile κ σ I α) (s s' : System σ I γ α) : Prop where
  state : s'.state = s.state
  locks : s'.locks = s.locks
  results : s'.results = s.results
  length : s'.tasks.length = s.tasks.length
  line : ∀ t ∈ s'.line, t ∈ s.line
  waiting : T.waiting s' = T.waiting s
  tasks : ∀ t : TaskId, s'.tasks[t]? = s.tasks[t]? ∨
    ∃ g p q, s.tasks[t]? = some (.held g p q) ∧ s'.tasks[t]? = some (.awake none p q)

theorem Opens.awaken {s s' : System σ I γ α} (h : Opens T s s') {g : γ} {p q : Program σ I α}
    (held : s.tasks[t]? = some (.held g p q)) : Opens T s (s'.awaken t (.awake none p q)) := by
  have moves := moves_awaken s' t (.awake none p q)
  have lt : t < s'.tasks.length := h.length ▸ (List.getElem?_eq_some_iff.1 held).1
  have awake : (s'.awaken t (.awake none p q)).tasks[t]? = some (.awake none p q) := by
    simp [System.awaken, lt]
  have outside (p' q') : s'.tasks[t]? ≠ some (.waiting T.lock p' q') := by
    intro waits
    rcases h.tasks t with same | ⟨_, _, _, _, awake'⟩
    · cases (waits.symm.trans same).trans held
    · cases waits.symm.trans awake'
  exact {
    state := h.state
    locks := h.locks
    results := h.results
    length := moves.length.trans h.length
    line := fun u hu => h.line u (List.mem_of_mem_erase hu)
    waiting := (waiting_of_moves_outside moves outside (by simp [awake])).trans h.waiting
    tasks := fun u => by
      by_cases e : u = t
      · subst e
        exact .inr ⟨g, p, q, held, awake⟩
      · rw [moves.others u e]
        exact h.tasks u }

theorem opens_openGate [DecidableEq γ] (g : γ) (s : System σ I γ α) : Opens T s (s.openGate g) :=
  System.openGate_induction ⟨rfl, rfl, rfl, rfl, fun _ h => h, rfl, fun _ => .inl rfl⟩
    fun _ _ _ _ h held => h.awaken held

theorem opens (h : T.Queued w m start e past front) {s : System σ I γ α}
    (opens : Opens T m.system s) :
    T.Queued w ⟨m.calls, s, m.world, m.history⟩ start e past front := by
  have quiet : Quiet T past m ⟨m.calls, s, m.world, m.history⟩ := {
    state := opens.state
    world := rfl
    locks := opens.locks
    calls := fun _ _ hk => hk
    history := fun _ hev => hev
    tasks := fun t x hx _ => (opens.tasks t).imp (·.trans hx) fun ⟨g, p, q, held, awake⟩ =>
      ⟨g, p, q, Option.some.inj (hx.symm.trans held), awake⟩ }
  refine h.quiet quiet (h.called.trans opens.length.symm) h.known
    (fun t ht => h.lined t (opens.line t ht)) (fun _ empty => opens.waiting.trans empty)
    (opens.waiting ▸ h.admitted) (opens.results ▸ h.ended) fun t k hk new holder => ?_
  have aside := h.others t k hk new holder
  refine aside.keep ?_ (opens.line t) fun ev _ => Iff.rfl
  rcases opens.tasks t with same | ⟨g, p, q, held, awake⟩
  · exact same
  · rcases aside.stands with ⟨_, hx⟩ | ⟨_, _, hx⟩ | ⟨_, hx⟩ <;> cases hx.symm.trans held

/-- The task of the event moves, and so may the one that has the lock afterwards. -/
theorem advance (h : T.Queued w m start e past front) {s : System σ I γ α} {E : ε} (ev : Event)
    {past' : List TaskId} {front' : Option TaskId} (lt : ev.task < m.calls.length)
    (length : s.tasks.length = m.system.tasks.length)
    (tasks : ∀ u, u ≠ ev.task → Assoc.get? T.lock s.locks ≠ some u →
      s.tasks[u]? = m.system.tasks[u]?)
    (line : ∀ u, u ≠ ev.task → u ∈ s.line → u ∈ m.system.line) (fit : T.Fit s.state)
    (admitted : Event.admitted (m.history ++ [ev]) = past' ++ (front'.toList ++ T.waiting s))
    (passed : (past'.map fun t => s.tasks[t]?) =
      (T.served w m start e past').1.map fun a => some (.ended a))
    (ended : (s.results.map Prod.fst).filter (fun t => .cancel t ∉ m.history ++ [ev]) = past')
    (front : T.Front w ⟨m.calls, s, E, m.history ++ [ev]⟩ (T.served w m start e past').2.1
      (T.served w m start e past').2.2 front')
    (others : ∀ u j, m.calls[u]? = some j → u ∉ past' → Assoc.get? T.lock s.locks ≠ some u →
      u ≠ ev.task → T.Aside m u j)
    (itself : ∀ j, m.calls[ev.task]? = some j → ev.task ∉ past' →
      Assoc.get? T.lock s.locks ≠ some ev.task →
      T.Aside ⟨m.calls, s, E, m.history ++ [ev]⟩ ev.task j) :
    T.Queued w ⟨m.calls, s, E, m.history ++ [ev]⟩ start e past' front' where
  called := h.called.trans length.symm
  known ev' hev := by
    rcases List.mem_append.1 hev with old | here
    · exact h.known ev' old
    · exact List.mem_singleton.1 here ▸ lt
  lined u hu := by
    by_cases here : u = ev.task
    · exact here ▸ lt
    · exact h.lined u (line u here hu)
  fit := fit
  admitted := admitted
  passed := passed
  ended := ended
  front := front
  others u j hj new outside := by
    by_cases here : u = ev.task
    · subst here
      exact itself j hj new outside
    · exact (others u j hj new outside here).keep (tasks u here outside) (line u here)
        fun ev' hev => Event.mem_concat (hev ▸ here)

/-- A task that is aside moves and stays aside. -/
theorem moves (h : T.Queued w m start e past front) {s : System σ I γ α} (ev : Event)
    (moves : Moves m.system s ev.task) (hk : m.calls[ev.task]? = some k) (new : ev.task ∉ past)
    (outside : Assoc.get? T.lock m.system.locks ≠ some ev.task)
    (state : s.state = m.system.state) (locks : s.locks = m.system.locks)
    (empty : (∀ l, Assoc.get? l m.system.locks = none) → T.waiting m.system = [] →
      T.waiting s = [])
    (admitted : Event.admitted (m.history ++ [ev]) = past ++ (front.toList ++ T.waiting s))
    (ended : (s.results.map Prod.fst).filter (fun t => .cancel t ∉ m.history ++ [ev]) = past)
    (aside : T.Aside ⟨m.calls, s, m.world, m.history ++ [ev]⟩ ev.task k) :
    T.Queued w ⟨m.calls, s, m.world, m.history ++ [ev]⟩ start e past front := by
  have still (t : TaskId) (which : t ∈ past ∨ Assoc.get? T.lock m.system.locks = some t) :
      s.tasks[t]? = m.system.tasks[t]? := by
    refine moves.others t ?_
    rintro rfl
    exact which.elim new outside
  have quiet : Quiet T past m ⟨m.calls, s, m.world, m.history ++ [ev]⟩ := {
    state := state
    world := rfl
    locks := locks
    calls := fun _ _ hk => hk
    history := List.subset_append_left _ _
    tasks := fun t x hx which => .inl ((still t which).trans hx) }
  refine h.advance ev (List.getElem?_eq_some_iff.1 hk).1 moves.length
    (fun u ne _ => moves.others u ne) (fun u ne => (moves.mem_line ne).1) (state ▸ h.fit) admitted
    ?_ ended (h.front.of_quiet quiet empty) ?_ ?_
  · exact (List.map_congr_left fun u hu => still u (.inl hu)).trans h.passed
  · exact fun u j hj new' outside' _ => h.others u j hj new' (locks ▸ outside')
  · intro j hj _ _
    obtain rfl := Option.some.inj (hk.symm.trans hj)
    exact aside

theorem ended_cancel (h : T.Queued w m start e past front) (new : t ∉ past) :
    (m.system.results.map Prod.fst).filter (fun u => .cancel u ∉ m.history ++ [.cancel t]) =
      past := by
  have split : (fun u : TaskId => decide (Event.cancel u ∉ m.history ++ [.cancel t])) =
      fun u => decide (u ≠ t) && decide (Event.cancel u ∉ m.history) := by
    funext u
    simp [and_comm]
  rw [split, ← List.filter_filter, h.ended, filter_ne_self new]

theorem cancel_waiting (h : T.Queued w m start e past front) {l : LockId} {p q : Program σ I α}
    (hw : m.system.tasks[t]? = some (.waiting l p q)) :
    T.Queued w ⟨m.calls, m.system.cancel t, m.world, m.history ++ [.cancel t]⟩ start e
      past front := by
  obtain ⟨rfl, k, hk, rfl, rfl⟩ := h.waits hw
  have new := h.not_mem_of_stands hw rfl
  have outside : Assoc.get? T.lock m.system.locks ≠ some t := by
    intro holder
    obtain ⟨x, hx, -, waits⟩ := h.front.stands holder
    exact waits _ _ _ (Option.some.inj (hx.symm.trans hw))
  have ahead : front ≠ some t := fun e => outside (e ▸ h.front).holder
  have next : m.system.cancel t = m.system.awaken t (.ready (.done T.refused)) := by
    simp [System.cancel, hw]
  have moves : Moves m.system (m.system.cancel t) t := next ▸ moves_awaken _ _ _
  have stands : (m.system.cancel t).tasks[t]? = some (.ready (.done T.refused)) := by
    rw [next]
    exact List.getElem?_set_self (List.getElem?_eq_some_iff.1 hw).1
  have waiting := waiting_of_moves (T := T) moves (by simp [stands])
  refine h.moves (.cancel t) moves hk new outside (by simp) ?_ ?_ ?_ ?_ ?_
  · simp [next, System.awaken]
  · intro _ empty
    rw [waiting, empty]
    rfl
  · rw [Event.admitted_cancel, h.admitted, waiting, List.filter_append, List.filter_append,
      filter_ne_self new, filter_ne_self (by simpa [eq_comm] using ahead)]
  · rw [next]
    exact h.ended_cancel new
  · exact .withdrawn stands (by simp [Event.task])

theorem cancel_awake (h : T.Queued w m start e past front) {l : LockId} {p q : Program σ I α}
    (hw : m.system.tasks[t]? = some (.awake (some l) p q)) :
    T.Queued w ⟨m.calls, m.system.cancel t, m.world, m.history ++ [.cancel t]⟩ start e
      past none := by
  have new := h.not_mem_of_stands hw rfl
  have lt := (List.getElem?_eq_some_iff.1 hw).1
  obtain ⟨k, hk⟩ := h.call_of_lt lt
  have holder : Assoc.get? T.lock m.system.locks = some t := by
    refine ((h.place hk).resolve_left new).resolve_right fun aside => ?_
    rcases aside.stands with ⟨_, hx⟩ | ⟨_, _, hx⟩ | ⟨_, hx⟩ <;> cases hx.symm.trans hw
  obtain ⟨rfl, rfl, rfl, holds, state, world⟩ := h.front.granted_of_awake holder hw
  have next : m.system.cancel t =
      { m.system with tasks := m.system.tasks.set t (.ready (T.leave T.refused)) } := by
    simp [System.cancel, hw]
    rfl
  have moves : Moves m.system (m.system.cancel t) t := next ▸ moves_of_set rfl rfl
  have stands : (m.system.cancel t).tasks[t]? = some (.ready (T.leave T.refused)) := by
    rw [next]
    exact List.getElem?_set_self lt
  have waiting := waiting_of_moves_outside (T := T) moves (by simp [hw]) (by simp [stands])
  have locks : (m.system.cancel t).locks = m.system.locks := next ▸ rfl
  have last : t ∉ T.waiting m.system := by
    intro ht
    obtain ⟨-, p', q', waits⟩ := mem_waiting.1 ht
    cases waits.symm.trans hw
  refine h.advance (.cancel t) (h.called ▸ lt) moves.length (fun u ne _ => moves.others u ne)
    (fun u ne => (moves.mem_line ne).1) (by simpa using h.fit) ?_ ?_ ?_ ?_ ?_ ?_
  · rw [Event.admitted_cancel, h.admitted, waiting, List.filter_append, List.filter_append,
      filter_ne_self new, filter_ne_self last]
    simp
  · refine (List.map_congr_left fun u hu => ?_).trans h.passed
    exact moves.others u fun e => new (e ▸ hu)
  · rw [next]
    exact h.ended_cancel new
  · exact .revoked t stands (locks ▸ holds) (by simp) ((System.cancel_state _ _).trans state) world
  · intro u j hj new' outside ne
    exact h.others u j hj new' (locks ▸ outside)
  · intro j _ _ outside
    exact absurd (locks ▸ holder) outside

/-- A call is cancelled that waits for the lock, or has just got it. -/
theorem cancel (h : T.Queued w m start e past front) (waits : m.system.Waits T.lock t) :
    ∃ front', T.Queued w ⟨m.calls, m.system.cancel t, m.world, m.history ++ [.cancel t]⟩
      start e past front' := by
  obtain ⟨p, q, waits | awake⟩ := waits
  · exact ⟨front, h.cancel_waiting waits⟩
  · exact ⟨none, h.cancel_awake awake⟩

end Queued

end Turnstile

end Registrar
