import Registrar.Proofs.Schedule.Turns

/-!
# Passing a turnstile

Of the calls that queue before a turnstile at most one is inside at a time. Only the turns of calls
that go inside change anything, and such a call is never cancelled. When nobody has a turn and
nobody is held back inside, no call is left.
-/

namespace Registrar.Turnstile

variable {κ σ : Type} {I : Interface} {γ ε α : Type} {T : Turnstile κ σ I α}
  {w : Program.World I ε} {start : σ} {e : ε} {m m' : Scene κ σ I γ ε α} {past : List TaskId}
  {front : Option TaskId} {t u : TaskId}

/-- A task that is not cancelled and has stopped inside the lock or ended. -/
structure Entered (T : Turnstile κ σ I α) (m : Scene κ σ I γ ε α) (t : TaskId) : Prop where
  alive : .cancel t ∉ m.history
  stands : m.system.Inside T.lock t ∨ ∃ a, m.system.tasks[t]? = some (.ended a)

theorem Aside.not_inside {k : κ} (h : T.Aside m t k) : ¬m.system.Inside T.lock t := by
  rcases h.stands with ⟨_, hx⟩ | ⟨_, _, hx⟩ | ⟨_, hx⟩ <;> simp [System.Inside, hx]

namespace Queued

variable (h : T.Queued w m start e past front)

include h

theorem call_of_inside (inside : m.system.Inside T.lock t) :
    ∃ k x, m.calls[t]? = some k ∧ m.system.tasks[t]? = some x ∧ x.result? = none := by
  unfold System.Inside at inside
  cases hx : m.system.tasks[t]? with
  | none => simp [hx] at inside
  | some x =>
    obtain ⟨k, hk⟩ := h.call_of_lt (List.getElem?_eq_some_iff.1 hx).1
    refine ⟨k, x, hk, rfl, ?_⟩
    cases x <;> simp_all [Standing.result?]

/-- Only the holder of the lock is inside. -/
theorem holder_of_inside (inside : m.system.Inside T.lock t) :
    Assoc.get? T.lock m.system.locks = some t := by
  obtain ⟨k, x, hk, hx, going⟩ := h.call_of_inside inside
  rcases h.place hk with passed | holder | aside
  · exact absurd passed (h.not_mem_of_stands hx going)
  · exact holder
  · exact absurd inside aside.not_inside

/-- At most one task is inside. -/
theorem inside_unique (ht : m.system.Inside T.lock t) (hu : m.system.Inside T.lock u) : t = u :=
  Option.some.inj ((h.holder_of_inside ht).symm.trans (h.holder_of_inside hu))

/-- When nobody is inside, the calls of the past have left the state and the world. -/
theorem settled (outside : ∀ t, ¬m.system.Inside T.lock t) :
    m.system.state = (T.served w m start e past).2.1 ∧
      m.world = (T.served w m start e past).2.2 := by
  cases h.front with
  | free _ _ state world => exact ⟨state, world⟩
  | revoked _ _ _ _ state world => exact ⟨state, world⟩
  | granted _ _ _ _ _ state world => exact ⟨state, world⟩
  | inside t k held p x call stands inward =>
    refine absurd ?_ (outside t)
    cases inward <;> simp [System.Inside, stands]

/-- When all tasks have ended, nobody is left. -/
theorem nobody_left (ended : ∀ x ∈ m.system.tasks, ∃ a, x = .ended a) :
    front.toList ++ T.waiting m.system = [] := by
  have going {t : TaskId} {x : Standing σ I γ α} (hx : m.system.tasks[t]? = some x)
      (going : x.result? = none) : False := by
    obtain ⟨a, rfl⟩ := ended x (List.mem_of_getElem? hx)
    cases going
  cases h.front with
  | free _ empty => simp [empty]
  | revoked t stands => exact (going stands rfl).elim
  | granted t k call stands => exact (going stands rfl).elim
  | inside t k held p x call stands inward =>
    refine (going stands ?_).elim
    cases inward <;> rfl

/-- When no task has a turn and none is held back inside, all have ended: the lock is never lost. -/
theorem progress (idle : ∀ t, m.system.turn? t = none)
    (gates : ∀ (t : TaskId) g p q, m.system.tasks[t]? ≠ some (.held g p q))
    {x : Standing σ I γ α} (hx : x ∈ m.system.tasks) : ∃ a, x = .ended a := by
  have ready {t : TaskId} {p : Program σ I α} (hp : m.system.tasks[t]? = some (.ready p)) :
      False := by
    simpa [System.turn?, hp] using idle t
  have awake {t : TaskId} {l : Option LockId} {p q : Program σ I α}
      (hp : m.system.tasks[t]? = some (.awake l p q)) : False := by
    simpa [System.turn?, hp] using idle t
  have free : (∀ l, Assoc.get? l m.system.locks = none) ∧ Event.admitted m.history = past := by
    have admitted := h.admitted
    cases h.front with
    | free locks empty => exact ⟨locks, by simpa [empty] using admitted⟩
    | revoked t stands => exact (ready stands).elim
    | granted t k call stands => exact (awake stands).elim
    | inside t k held p x call stands inward =>
      cases inward with
      | held => exact absurd stands (gates _ _ _ _)
      | awake => exact (awake stands).elim
  obtain ⟨t, ht⟩ := List.mem_iff_getElem?.1 hx
  obtain ⟨k, hk⟩ := h.call_of_lt (List.getElem?_eq_some_iff.1 ht).1
  rcases h.place hk with passed | holder | aside
  · obtain ⟨a, ha⟩ := h.ended_of_mem passed
    exact ⟨a, Option.some.inj (ht.symm.trans ha)⟩
  · simp [free.1] at holder
  · cases aside with
    | asking stands => exact (ready stands).elim
    | waiting stands asked => exact absurd (free.2 ▸ asked) (h.not_mem_of_stands stands rfl)
    | withdrawn stands => exact (ready stands).elim
    | dropped stands => exact ⟨_, Option.some.inj (ht.symm.trans stands)⟩

/-- Whoever ended without having made its call was cancelled. -/
theorem refused {a : α} (ended : m.system.tasks[t]? = some (.ended a)) (new : t ∉ past) :
    a = T.refused ∧ .cancel t ∈ m.history := by
  obtain ⟨k, hk⟩ := h.call_of_lt (List.getElem?_eq_some_iff.1 ended).1
  rcases h.place hk with passed | holder | aside
  · exact absurd passed new
  · obtain ⟨x, hx, going, -⟩ := h.front.stands holder
    obtain rfl := Option.some.inj (hx.symm.trans ended)
    cases going
  · cases aside with
    | asking stands => cases stands.symm.trans ended
    | waiting stands => cases stands.symm.trans ended
    | withdrawn stands => cases stands.symm.trans ended
    | dropped stands cancelled =>
      cases stands.symm.trans ended
      exact ⟨rfl, cancelled⟩

omit h in
theorem entered_of_turned {p : Program σ I α} {s : System σ I γ α} {E : ε}
    {out : System σ I γ α × ε} (lt : t < s.tasks.length) (turned : T.Turned w t p s E out) :
    out.1.Inside T.lock t ∨ ∃ a, out.1.tasks[t]? = some (.ended a) := by
  cases turned with
  | through s' E' a same =>
    refine .inr ⟨a, List.getElem?_set_self ?_⟩
    simpa [same.tasks] using lt
  | stopped s' E' g p' q held same =>
    refine .inl ?_
    have : t < s'.tasks.length := same.tasks ▸ lt
    simp [System.Inside, System.stop, this]

/-- A turn changes nothing, or its task is inside or ends, and nobody else was inside. -/
theorem turn_quiet (gate : I.Call → ε → Option γ) {p : Program σ I α}
    (ready : m.system.turn? t = some p) :
    ((m.system.turn ⟨w, gate⟩ t p m.world).1.state = m.system.state ∧
        (m.system.turn ⟨w, gate⟩ t p m.world).2 = m.world) ∨
      ((∀ u, m.system.Inside T.lock u → u = t) ∧
        T.Entered ⟨m.calls, (m.system.turn ⟨w, gate⟩ t p m.world).1,
          (m.system.turn ⟨w, gate⟩ t p m.world).2, m.history ++ [.turn t]⟩ t) := by
  have lt := (System.free_of_turn? ready).1
  have acts := h.acts gate ready
  generalize m.system.turn ⟨w, gate⟩ t p m.world = out at acts
  cases acts with
  | enters k p call new admitted others runs turned =>
    refine .inr ⟨fun u inside => ?_, ?_, entered_of_turned lt turned⟩
    · obtain ⟨j, x, hj, hx, going⟩ := h.call_of_inside inside
      by_contra ne
      exact (others u j hj (h.not_mem_of_stands hx going) ne).not_inside inside
    · have : t ∈ Event.admitted (m.history ++ [.turn t]) := by simp [admitted]
      exact (Event.mem_admitted.1 this).2
  | asks => exact .inl ⟨rfl, rfl⟩
  | leaves => exact .inl ⟨System.release_state _ _, rfl⟩
  | drops => exact .inl ⟨rfl, rfl⟩

end Queued

/-! ## What is inside stays so until it ends -/

theorem Entered.keep (h : T.Entered m t) (tasks : m'.system.tasks[t]? = m.system.tasks[t]?)
    (alive : .cancel t ∉ m'.history) : T.Entered m' t where
  alive := alive
  stands := by
    unfold System.Inside
    rw [tasks]
    exact h.stands

theorem Entered.not_waits (h : T.Entered m t) : ¬m.system.Waits T.lock t := by
  rintro ⟨p, q, hx | hx⟩ <;> rcases h.stands with inside | ⟨a, ended⟩
  · simp [System.Inside, hx] at inside
  · cases hx.symm.trans ended
  · simp [System.Inside, hx] at inside
  · cases hx.symm.trans ended

/-- A task that has ended has no turn, so its turn is one inside the lock. -/
theorem Entered.turn (entered : T.Entered m t) (h : T.Queued w m start e past front)
    (gate : I.Call → ε → Option γ) {p : Program σ I α} (ready : m.system.turn? t = some p) :
    T.Entered ⟨m.calls, (m.system.turn ⟨w, gate⟩ t p m.world).1,
      (m.system.turn ⟨w, gate⟩ t p m.world).2, m.history ++ [.turn t]⟩ t := by
  have lt := (System.free_of_turn? ready).1
  have inside : m.system.Inside T.lock t := by
    refine entered.stands.resolve_right ?_
    rintro ⟨a, ended⟩
    simpa [ended] using System.stands_of_turn? ready
  have acts := h.acts gate ready
  generalize m.system.turn ⟨w, gate⟩ t p m.world = out at acts
  cases acts with
  | enters k p call new admitted others runs turned =>
    exact ⟨by simpa using entered.alive, Queued.entered_of_turned lt turned⟩
  | asks k call new stands => simp [System.Inside, stands] at inside
  | leaves stands => simp [System.Inside, stands] at inside
  | drops k call new stands => simp [System.Inside, stands] at inside

variable [DecidableEq γ]

theorem Entered.step (entered : T.Entered m t) (h : T.Queued w m start e past front)
    (step : Scene.Step T.program w (·.Waits T.lock) m m') : T.Entered m' t := by
  have lt : t < m.system.tasks.length := by
    rcases entered.stands with inside | ⟨a, ended⟩
    · obtain ⟨k, x, -, hx, -⟩ := h.call_of_inside inside
      exact (List.getElem?_eq_some_iff.1 hx).1
    · exact (List.getElem?_eq_some_iff.1 ended).1
  have free : m.system.Free t := by
    intro l p q waits
    refine entered.not_waits ⟨p, q, .inl ?_⟩
    rw [waits, (h.waits waits).1]
  cases step with
  | spawn cs s E history k => exact entered.keep (List.getElem?_append_left lt) entered.alive
  | reorder cs s E history queue => exact entered.keep rfl entered.alive
  | openGate cs s E history g =>
    rcases (Queued.opens_openGate (T := T) g s).tasks t with same | ⟨_, p, q, held, awake⟩
    · exact entered.keep same entered.alive
    · exact ⟨entered.alive, .inl (by simp [System.Inside, awake])⟩
  | cancel cs s E history may =>
    rename_i u
    have ne : t ≠ u := fun same => entered.not_waits (same ▸ may)
    exact entered.keep (System.cancel_tasks_of_ne s ne) (by simpa [ne] using entered.alive)
  | turn cs s E history gate ready =>
    rename_i u p
    by_cases same : t = u
    · subst same
      exact entered.turn h gate ready
    · exact entered.keep (System.turn_tasks_of_free _ same free) (by simpa using entered.alive)

/-- Such a task is never cancelled. -/
theorem Entered.steps (entered : T.Entered m t) (h : T.Queued w m start e past front)
    (steps : Relation.ReflTransGen (Scene.Step T.program w (·.Waits T.lock)) m m') :
    T.Entered m' t := by
  suffices T.Entered m' t ∧ ∃ past front, T.Queued w m' start e past front from this.1
  induction steps with
  | refl => exact ⟨entered, past, front, h⟩
  | tail _ step ih =>
    obtain ⟨entered', _, _, h'⟩ := ih
    exact ⟨entered'.step h' step, h'.step step⟩

/-- A turn changes nothing, or nobody else was inside and its call is never cancelled. -/
theorem Queued.advance_quiet (h : T.Queued w m start e past front) (gate : I.Call → ε → Option γ)
    (t : TaskId) :
    ((m.advance w gate t).system.state = m.system.state ∧ (m.advance w gate t).world = m.world) ∨
      (∀ u, m.system.Inside T.lock u → u = t) ∧
        ∀ m', Relation.ReflTransGen (Scene.Step T.program w (·.Waits T.lock))
          (m.advance w gate t) m' → .cancel t ∉ m'.history := by
  unfold Scene.advance
  split
  · rename_i p ready
    refine (h.turn_quiet gate ready).imp_right fun ⟨alone, entered⟩ => ⟨alone, fun m' steps => ?_⟩
    obtain ⟨past', front', h'⟩ := h.turn gate ready
    exact (entered.steps h' steps).alive
  · exact .inl ⟨rfl, rfl⟩

end Registrar.Turnstile
