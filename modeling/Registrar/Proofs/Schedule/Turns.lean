import Registrar.Proofs.Schedule.Queued

/-!
# Turns before a turnstile

`Queued.acts` says what the turn of a task is: its call goes on inside the lock, it asks for the
lock in vain, or it was cancelled and gives the lock back or ends. Each leaves the calls queued, and
so do all steps of a scene.
-/

namespace Registrar.Turnstile

variable {κ σ : Type} {I : Interface} {γ ε α : Type} {T : Turnstile κ σ I α}
  {w : Program.World I ε} {start : σ} {e : ε} {m m' : Scene κ σ I γ ε α} {past : List TaskId}
  {front : Option TaskId} {t u : TaskId} {k : κ}

/-! ## What a turn is -/

section

variable (T : Turnstile κ σ I α) (w : Program.World I ε) (start : σ) (e : ε)
  (m : Scene κ σ I γ ε α) (past : List TaskId) (front : Option TaskId) (t : TaskId)

/-- What the turn of the task comes to. -/
inductive Acts : System σ I γ α × ε → Prop where
  /-- The call goes on inside the lock, which it has or takes. -/
  | enters (k : κ) (p : Program σ I α) {out : System σ I γ α × ε} (call : m.calls[t]? = some k)
    (new : t ∉ past)
    (admitted : Event.admitted (m.history ++ [.turn t]) = past ++ t :: T.waiting m.system)
    (others : ∀ u j, m.calls[u]? = some j → u ∉ past → u ≠ t → T.Aside m u j)
    (runs : (T.body k).run w (T.served w m start e past).2.1 (T.served w m start e past).2.2 =
      p.run w m.system.state m.world)
    (turned : T.Turned w t p m.system m.world out) : Acts out
  /-- The call asks for the lock, which another one has. -/
  | asks (k : κ) (call : m.calls[t]? = some k) (new : t ∉ past)
    (stands : m.system.tasks[t]? = some (.ready (T.program k)))
    (fresh : ∀ ev ∈ m.history, ev.task ≠ t) (line : t ∉ m.system.line)
    (outside : Assoc.get? T.lock m.system.locks ≠ some t)
    (taken : Assoc.get? T.lock m.system.locks ≠ none) :
    Acts (m.system.stop t (.waiting T.lock (T.inside k) (.done T.refused)), m.world)
  /-- The call was cancelled when it had got the lock. -/
  | leaves (stands : m.system.tasks[t]? = some (.ready (T.leave T.refused))) (nobody : front = none)
    (holds : T.Holds t none m.system.locks) (cancelled : .cancel t ∈ m.history)
    (state : m.system.state = (T.served w m start e past).2.1)
    (world : m.world = (T.served w m start e past).2.2) :
    Acts ((m.system.release T.lock).finish t T.refused, m.world)
  /-- The call was cancelled while it waited for the lock. -/
  | drops (k : κ) (call : m.calls[t]? = some k) (new : t ∉ past)
    (stands : m.system.tasks[t]? = some (.ready (.done T.refused)))
    (cancelled : .cancel t ∈ m.history) (outside : Assoc.get? T.lock m.system.locks ≠ some t) :
    Acts (m.system.finish t T.refused, m.world)

end

namespace Queued

/-- The task that has the lock goes on. -/
theorem acts_of_holder (h : T.Queued w m start e past front) (gate : I.Call → ε → Option γ)
    {p : Program σ I α} (ready : m.system.turn? t = some p) (new : t ∉ past)
    (holder : Assoc.get? T.lock m.system.locks = some t) :
    T.Acts w start e m past front t (m.system.turn ⟨w, gate⟩ t p m.world) := by
  have stood := System.stands_of_turn? ready
  have others (u : TaskId) (j : κ) (hj : m.calls[u]? = some j) (hu : u ∉ past) (ne : u ≠ t) :
      T.Aside m u j :=
    h.others u j hj hu (by simpa [holder] using Ne.symm ne)
  have admitted (ahead : front = some t) :
      Event.admitted (m.history ++ [.turn t]) = past ++ t :: T.waiting m.system := by
    subst ahead
    rw [Event.admitted_turn_of_mem (h.event_of_mem (by simp)).1, h.admitted]
    rfl
  cases hf : h.front with
  | free locks => simp [locks] at holder
  | revoked u stands holds cancelled state world =>
    obtain rfl := Option.some.inj (holds.holder.symm.trans holder)
    obtain rfl : T.leave T.refused = p := by simpa [stands] using stood
    exact .leaves stands rfl holds cancelled state world
  | granted u k call stands holds state world =>
    obtain rfl := Option.some.inj (holds.holder.symm.trans holder)
    obtain rfl : T.inside k = p := by simpa [stands] using stood
    refine .enters k (T.body k) call new (admitted rfl) others (by rw [state, world]) ?_
    exact turned gate (T.apart k) h.fit holds h.only
  | inside u k held q x call stands inward holds apart runs =>
    obtain rfl := Option.some.inj (holds.holder.symm.trans holder)
    cases inward with
    | held => simp [stands] at stood
    | awake =>
      obtain rfl : q.bind T.leave = p := by simpa [stands] using stood
      exact .enters k q call new (admitted rfl) others runs (turned gate apart h.fit holds h.only)

/-- A task that is aside asks for the lock, which it gets if nobody has it, or ends. -/
theorem acts_of_aside (h : T.Queued w m start e past front) (gate : I.Call → ε → Option γ)
    {p : Program σ I α} (ready : m.system.turn? t = some p) (hk : m.calls[t]? = some k)
    (new : t ∉ past) (outside : Assoc.get? T.lock m.system.locks ≠ some t)
    (aside : T.Aside m t k) :
    T.Acts w start e m past front t (m.system.turn ⟨w, gate⟩ t p m.world) := by
  have stood := System.stands_of_turn? ready
  cases aside with
  | waiting stands => simp [stands] at stood
  | dropped stands cancelled => simp [stands] at stood
  | withdrawn stands cancelled =>
    obtain rfl : .done T.refused = p := by simpa [stands] using stood
    exact .drops k hk new stands cancelled outside
  | asking stands fresh line =>
    obtain rfl : T.program k = p := by simpa [stands] using stood
    unfold program System.turn
    split
    · rename_i free
      obtain ⟨rfl, locks, empty, state, world⟩ := h.front.free_of_none (by simpa using free)
      refine .enters k (T.body k) hk new ?_ (fun u j hj hu _ => ?_) (by rw [state, world]) ?_
      · rw [Event.admitted_turn_of_new (fun he => fresh _ he rfl) (fun he => fresh _ he rfl),
          h.admitted, empty]
        simp
      · exact h.others u j hj hu (by simp [locks])
      · have rest := turned (w := w) (e := m.world)
          (s := { m.system with locks := Assoc.put T.lock t m.system.locks }) gate (T.apart k)
          h.fit (holds_put t fun l _ => locks l) h.only
        exact rest.of_same ⟨rfl, rfl, rfl⟩ rfl
    · rename_i taken
      exact .asks k hk new stands fresh line outside (by simpa using taken)

theorem acts (h : T.Queued w m start e past front) (gate : I.Call → ε → Option γ)
    {p : Program σ I α} (ready : m.system.turn? t = some p) :
    T.Acts w start e m past front t (m.system.turn ⟨w, gate⟩ t p m.world) := by
  obtain ⟨k, hk⟩ := h.call_of_lt (System.free_of_turn? ready).1
  have new : t ∉ past := by
    intro ht
    obtain ⟨a, ha⟩ := h.ended_of_mem ht
    simpa [ha] using System.stands_of_turn? ready
  by_cases holder : Assoc.get? T.lock m.system.locks = some t
  · exact h.acts_of_holder gate ready new holder
  · exact h.acts_of_aside gate ready hk new holder (h.others t k hk new holder)

/-- A call stops inside the lock. -/
theorem stops (h : T.Queued w m start e past front) (free : m.system.Free t)
    (hk : m.calls[t]? = some k) (new : t ∉ past)
    (admitted : Event.admitted (m.history ++ [.turn t]) = past ++ t :: T.waiting m.system)
    (others : ∀ u j, m.calls[u]? = some j → u ∉ past → u ≠ t → T.Aside m u j)
    {s : System σ I γ α} {E : ε} {p q : Program σ I α} {held : Option LockId} (g : γ)
    (same : SameTasks m.system s) (holds : T.Holds t held s.locks) (fit : T.Fit s.state)
    (apart : p.Apart T.lock T.Fit held)
    (runs : (T.body k).run w (T.served w m start e past).2.1 (T.served w m start e past).2.2 =
      p.run w s.state E) :
    T.Queued w ⟨m.calls, s.stop t (.held g (p.bind T.leave) q), E, m.history ++ [.turn t]⟩
      start e past (some t) := by
  have lt : t < m.calls.length := (List.getElem?_eq_some_iff.1 hk).1
  have moves : Moves m.system (s.stop t (.held g (p.bind T.leave) q)) t :=
    same.moves (moves_stop s t _)
  have stands : (s.stop t (.held g (p.bind T.leave) q)).tasks[t]? =
      some (.held g (p.bind T.leave) q) :=
    List.getElem?_set_self (same.tasks ▸ h.called ▸ lt)
  have waiting := waiting_of_moves_outside (T := T) moves (free T.lock) (by simp [stands])
  refine h.advance (.turn t) lt moves.length (fun u ne _ => moves.others u ne)
    (fun u ne => (moves.mem_line ne).1) fit (waiting ▸ admitted) ?_ ?_ ?_ ?_ ?_
  · refine (List.map_congr_left fun u hu => ?_).trans h.passed
    exact moves.others u fun here => new (here ▸ hu)
  · simpa [System.stop, same.results] using h.ended
  · exact .inside t k held p _ hk stands (.held g q) holds apart runs
  · exact fun u j hj hu _ ne => others u j hj hu ne
  · exact fun _ _ _ outside => absurd holds.holder outside

end Queued

/-- The task ends with `a` and leaves the state and the world at `S` and `E`: its call was made, or
it was cancelled. -/
inductive Ends (T : Turnstile κ σ I α) (w : Program.World I ε) (start : σ) (e : ε)
    (m : Scene κ σ I γ ε α) (past : List TaskId) (t : TaskId) (a : α) (S : σ) (E : ε) :
    List TaskId → Prop where
  | made (k : κ) (call : m.calls[t]? = some k) (alive : .cancel t ∉ m.history)
    (runs : (T.body k).run w (T.served w m start e past).2.1 (T.served w m start e past).2.2 =
      (a, S, E)) : Ends T w start e m past t a S E (past ++ [t])
  | refused (cancelled : .cancel t ∈ m.history) (result : a = T.refused)
    (state : S = (T.served w m start e past).2.1) (world : E = (T.served w m start e past).2.2) :
    Ends T w start e m past t a S E past

namespace Ends

variable {a : α} {S : σ} {E : ε} {past' : List TaskId}
  (h : T.Ends w start e m past t a S E past')

theorem served_append (call : m.calls[t]? = some k) :
    T.served w m start e (past ++ [t]) =
      let before := T.served w m start e past
      let last := (T.body k).run w before.2.1 before.2.2
      (before.1 ++ [last.1], last.2) := by
  unfold served
  rw [List.filterMap_append]
  simp only [List.filterMap_cons, call, List.filterMap_nil]
  exact Program.runEach_append w T.body _ k start e

include h

theorem served_snd : (T.served w m start e past').2 = (S, E) := by
  cases h with
  | made k call alive runs => simp only [served_append call, runs]
  | refused cancelled result state world => rw [state, world]

theorem passed (queued : T.Queued w m start e past front) {s : System σ I γ α}
    (others : ∀ u ∈ past, s.tasks[u]? = m.system.tasks[u]?)
    (itself : s.tasks[t]? = some (.ended a)) :
    (past'.map fun u => s.tasks[u]?) =
      (T.served w m start e past').1.map fun a => some (.ended a) := by
  have before := (List.map_congr_left others).trans queued.passed
  cases h with
  | made k call alive runs =>
    simp only [served_append call, runs, List.map_append, List.map_cons, List.map_nil, itself]
    rw [before]
  | refused => exact before

theorem ended (queued : T.Queued w m start e past front) :
    (((m.system.results ++ [(t, a)]).map Prod.fst).filter
      fun u => .cancel u ∉ m.history ++ [.turn t]) = past' := by
  have before := queued.ended
  cases h with
  | made k call alive runs => simp_all
  | refused cancelled => simp_all

theorem refused_of_not_mem (new : t ∉ past') : a = T.refused ∧ .cancel t ∈ m.history := by
  cases h with
  | made => simp at new
  | refused cancelled result => exact ⟨result, cancelled⟩

theorem mem_past (u : TaskId) (hu : u ∈ past) : u ∈ past' := by
  cases h with
  | made => exact List.mem_append_left _ hu
  | refused => exact hu

end Ends

namespace Queued

/-- The task that has the lock ends, and hands the lock over to the one that waits longest. -/
theorem release_finish (h : T.Queued w m start e past front) (lt : t < m.system.tasks.length)
    (free : m.system.Free t) (new : t ∉ past) {s : System σ I γ α} {E : ε} {a : α}
    {past' : List TaskId} (same : SameTasks m.system s) (holds : T.Holds t none s.locks)
    (fit : T.Fit s.state) (ends : T.Ends w start e m past t a s.state E past')
    (admitted : Event.admitted (m.history ++ [.turn t]) = past' ++ T.waiting m.system)
    (others : ∀ u j, m.calls[u]? = some j → u ∉ past → u ≠ t → T.Aside m u j) :
    ∃ front', T.Queued w
      ⟨m.calls, (s.release T.lock).finish t a, E, m.history ++ [.turn t]⟩ start e past' front' := by
  have handed := handsOver holds a
  have state : ((s.release T.lock).finish t a).state = s.state := System.release_state s T.lock
  have results : ((s.release T.lock).finish t a).results = m.system.results ++ [(t, a)] := by
    simp [System.finish, same.results]
  have lt' : t < s.tasks.length := same.tasks ▸ lt
  generalize (s.release T.lock).finish t a = s' at handed state results
  have ended := results ▸ ends.ended h
  have after : s'.state = (T.served w m start e past').2.1 ∧
      E = (T.served w m start e past').2.2 := by
    simp [ends.served_snd, state]
  have itself (stands : s'.tasks[t]? = some (.ended a)) (j : κ) (hj : m.calls[t]? = some j)
      (new' : t ∉ past') : T.Aside ⟨m.calls, s', E, m.history ++ [.turn t]⟩ t j := by
    obtain ⟨rfl, cancelled⟩ := ends.refused_of_not_mem new'
    exact .dropped stands (List.mem_append_left _ cancelled)
  cases handed with
  | free tasks line locks none =>
    have moves : Moves m.system s' t := same.moves (moves_of_set tasks (by rw [line]))
    have stands : s'.tasks[t]? = some (.ended a) := by rw [tasks, List.getElem?_set_self lt']
    have waiting := waiting_of_moves_outside (T := T) moves (free T.lock) (by simp [stands])
    have empty : T.waiting s' = [] := waiting.trans (same.waiting.symm.trans none)
    refine ⟨.none, h.advance (.turn t) (h.called ▸ lt) moves.length
      (fun u ne _ => moves.others u ne)
      (fun u ne => (moves.mem_line ne).1) (state ▸ fit) (waiting ▸ admitted) ?_ ended
      (.free locks empty after.1 after.2) ?_ fun j hj new' _ => itself stands j hj new'⟩
    · exact ends.passed h (fun u hu => moves.others u fun here => new (here ▸ hu)) stands
    · exact fun u j hj hu _ ne => others u j hj (mt (ends.mem_past u) hu) ne
  | next u p q rest waits tasks line holds' first =>
    rw [same.tasks] at waits
    obtain ⟨-, k, hk, rfl, rfl⟩ := h.waits waits
    have ne : u ≠ t := fun e => free _ _ _ (e ▸ waits)
    have gets := moves_awaken s u (.awake (some T.lock) (T.inside k) (.done T.refused))
    have goes : Moves (s.awaken u (.awake (some T.lock) (T.inside k) (.done T.refused))) s' t :=
      moves_of_set tasks (by rw [line]; rfl)
    have stands : s'.tasks[t]? = some (.ended a) := by
      rw [tasks]
      exact List.getElem?_set_self (by simpa using lt')
    have got : (s.awaken u (.awake (some T.lock) (T.inside k) (.done T.refused))).tasks[u]? =
        some (.awake (some T.lock) (T.inside k) (.done T.refused)) :=
      List.getElem?_set_self (same.tasks ▸ (List.getElem?_eq_some_iff.1 waits).1)
    have awake := (goes.others u ne).trans got
    have before : ∀ p q, (s.awaken u
        (.awake (some T.lock) (T.inside k) (.done T.refused))).tasks[t]? ≠
          some (.waiting T.lock p q) := by
      rw [gets.others t (Ne.symm ne), same.tasks]
      exact free T.lock
    have waiting : T.waiting s' = rest := by
      have unique := h.nodup_waiting
      rw [← same.waiting, first] at unique
      rw [waiting_of_moves_outside goes before (by simp [stands]),
        waiting_of_moves gets (by simp [got]), first, List.filter_cons_of_neg (by simp),
        filter_ne_self (List.nodup_cons.1 unique).1]
    refine ⟨some u, h.advance (.turn t) (h.called ▸ lt) ?_ ?_ ?_ (state ▸ fit) ?_ ?_ ended
      (.granted u k hk awake holds' after.1 after.2) ?_ fun j hj new' _ => itself stands j hj new'⟩
    · exact (goes.length.trans gets.length).trans (congrArg List.length same.tasks)
    · intro v hv notFirst
      have : v ≠ u := fun e => notFirst (e ▸ holds'.holder)
      rw [goes.others v hv, gets.others v this, same.tasks]
    · intro v _ hv
      rw [line, same.line] at hv
      exact List.mem_of_mem_erase hv
    · rw [admitted, ← same.waiting, first, waiting]
      rfl
    · refine ends.passed h (fun v hv => ?_) stands
      have : v ≠ u := fun e => h.not_mem_of_stands waits rfl (e ▸ hv)
      rw [goes.others v fun e => new (e ▸ hv), gets.others v this, same.tasks]
    · exact fun u j hj hu _ ne => others u j hj (mt (ends.mem_past u) hu) ne

theorem turn (h : T.Queued w m start e past front) (gate : I.Call → ε → Option γ)
    {p : Program σ I α} (ready : m.system.turn? t = some p) :
    ∃ past' front', T.Queued w ⟨m.calls, (m.system.turn ⟨w, gate⟩ t p m.world).1,
      (m.system.turn ⟨w, gate⟩ t p m.world).2, m.history ++ [.turn t]⟩ start e past' front' := by
  obtain ⟨lt, free⟩ := System.free_of_turn? ready
  have acts := h.acts gate ready
  generalize m.system.turn ⟨w, gate⟩ t p m.world = out at acts
  cases acts with
  | enters k p call new admitted others runs turned =>
    have alive : .cancel t ∉ m.history := by
      have : t ∈ Event.admitted (m.history ++ [.turn t]) := by simp [admitted]
      simpa using (Event.mem_admitted.1 this).2
    cases turned with
    | through s E a same holds fit runs' =>
      have ends : T.Ends w start e m past t a s.state E (past ++ [t]) :=
        .made k call alive (runs.trans runs')
      exact ⟨_, h.release_finish lt free new same holds fit ends (by simp [admitted]) others⟩
    | stopped s E g p q held same holds fit apart runs' =>
      exact ⟨past, some t, h.stops free call new admitted others g same holds fit apart
        (runs.trans runs')⟩
  | asks k call new stands fresh line outside taken =>
    have moves := moves_stop m.system t (.waiting T.lock (T.inside k) (.done T.refused))
    have stands' : (m.system.stop t (.waiting T.lock (T.inside k) (.done T.refused))).tasks[t]? =
        some (.waiting T.lock (T.inside k) (.done T.refused)) := List.getElem?_set_self lt
    have waiting := waiting_of_joins (T := T) moves.others rfl line stands'
    have admitted := Event.admitted_turn_of_new (t := t) (fun he => fresh _ he rfl)
      (fun he => fresh _ he rfl)
    refine ⟨past, front, h.moves (.turn t) moves call new outside rfl rfl ?_ ?_ ?_ ?_⟩
    · exact fun locks _ => absurd (locks T.lock) taken
    · rw [admitted, h.admitted, waiting, List.append_assoc, List.append_assoc]
    · simpa [System.stop] using h.ended
    · exact .waiting stands' (by simp [admitted, Event.task])
  | leaves stands nobody holds cancelled state world =>
    subst nobody
    have new := h.not_mem_of_stands stands rfl
    have ends : T.Ends w start e m past t T.refused m.system.state m.world past :=
      .refused cancelled rfl state world
    refine ⟨past, h.release_finish lt free new (.refl _) holds h.fit ends ?_ fun u j hj hu ne => ?_⟩
    · rw [Event.admitted_turn_of_cancelled cancelled, h.admitted]
      rfl
    · exact h.others u j hj hu (by simpa [holds.holder] using Ne.symm ne)
  | drops k call new stands cancelled outside =>
    have moves := moves_finish m.system t T.refused
    have stands' : (m.system.finish t T.refused).tasks[t]? = some (.ended T.refused) :=
      List.getElem?_set_self lt
    have waiting := waiting_of_moves_outside (T := T) moves (free T.lock) (by simp [stands'])
    refine ⟨past, front, h.moves (.turn t) moves call new outside rfl rfl ?_ ?_ ?_ ?_⟩
    · exact fun _ empty => waiting.trans empty
    · rw [Event.admitted_turn_of_cancelled cancelled, h.admitted, waiting]
    · simpa [System.finish, cancelled] using h.ended
    · exact .dropped stands' (List.mem_append_left _ cancelled)

/-! ### All steps -/

variable [DecidableEq γ]

theorem step (h : T.Queued w m start e past front)
    (step : Scene.Step T.program w (·.Waits T.lock) m m') :
    ∃ past' front', T.Queued w m' start e past' front' := by
  cases step with
  | spawn cs s E history k => exact ⟨past, front, h.spawn k⟩
  | reorder cs s E history queue =>
    exact ⟨past, front, h.opens ⟨rfl, rfl, rfl, rfl, fun _ h => h, rfl, fun _ => .inl rfl⟩⟩
  | openGate cs s E history g => exact ⟨past, front, h.opens (opens_openGate g s)⟩
  | cancel cs s E history may => exact ⟨past, h.cancel may⟩
  | turn cs s E history gate ready => exact h.turn gate ready

/-- Whatever is reached, the calls queue. -/
theorem of_reached (fit : T.Fit start) (h : m.Reached T.program w (·.Waits T.lock) start e) :
    ∃ past front, T.Queued w m start e past front := by
  induction h with
  | refl => exact ⟨[], none, initial fit⟩
  | tail _ step ih =>
    obtain ⟨past, front, h⟩ := ih
    exact h.step step

end Queued

end Registrar.Turnstile
