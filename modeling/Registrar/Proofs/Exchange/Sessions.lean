import Registrar.Proofs.Exchange.Stages
import Registrar.Proofs.Program.Equations
import Registrar.Proofs.Schedule.Runs

/-!
# Sessions that are left open

A session that is started while some `close` waits is a stray: that `close` drops whatever session
is held when it goes on (`close_drops`). Every other open session is the one that is held
(`open_session_held`), so that a last `close` leaves none of them open. A stray may stay open for
ever (`stray_left_open`).

What a turn does is said once, by `Effect`. The invariant of all stages is `Sound`; what carries it
is that, while a `close` waits, the session which is held is the one that is being closed, or a
stray, or closed.
-/

namespace Registrar.Session

/-! ## Turns -/

/-- A program that ends without a call and leaves the session that is held. -/
def Parting {α : Type} : Program State interface α → Prop
  | .done _ => True
  | .update f next => (∀ s, (f s).session = s.session) ∧ ∀ s, Parting (next s)
  | _ => False

/-- What is left of `close` when the session is closed. -/
def clearing : Program State interface Outcome :=
  .update (fun s => { s with session := none }) fun _ => .done (.ok none)

/-- What is left of a task that is cancelled while it waits. -/
def withdrawn : Program State interface Outcome := .done (.error .cancelled)

/-- What `close` does with the session that is held. -/
def closing : Option SessionId → Program State interface Outcome
  | none => clearing
  | some id => .ask (.isClosed id) fun
    | true => clearing
    | false => .await (.close id) fun
      | .value () => clearing
      | .cancelled => withdrawn

/-- Where a task stands that has nothing more to do with sessions. -/
inductive Parts : Standing State interface Gate Outcome → Prop where
  | ready {p} (h : Parting p) : Parts (.ready p)
  | awake {p q} (hp : Parting p) (hq : Parting q) : Parts (.awake none p q)
  | held (g : Gate) {p q} (hp : Parting p) (hq : Parting q) : Parts (.held g p q)
  | ended (r : Outcome) : Parts (.ended r)

/-- What a turn of a task that was spawned for `k` does: where it leaves the task, the session that
is held, and the sessions. -/
inductive Effect (m : Stage) (t : TaskId) (k : Demand) :
    Standing State interface Gate Outcome → Option SessionId → Pool → Prop where
  /-- A request uses the session that is held, or a task parts. -/
  | keeps {x e'} (parts : Parts x) (wanes : m.pool.Wanes e')
    (cancelled : k = .close → x = .ended (.error .cancelled)) :
    Effect m t k x m.system.state.session e'
  /-- A request that finds no open session starts one. -/
  | starts {x e'} (request : k ≠ .close) (new : t ∉ m.begun) (parts : Parts x)
    (lacking : ∀ s, m.system.state.session = some s → ¬m.pool.Open s)
    (wanes : m.pool.start.Wanes e') : Effect m t k x (some m.pool.started) e'
  /-- A `close` waits until the session that is held is closed. -/
  | closes {s e'} (close : k = .close) (held : m.system.state.session = some s)
    (wanes : m.pool.Wanes e') :
    Effect m t k (.held (.closing s) clearing withdrawn) (some s) e'
  /-- What a `close` drops is closed or a stray. -/
  | clears {e'} (close : k = .close) (wanes : m.pool.Wanes e')
    (dropped : ∀ s, m.system.state.session = some s → e'.Open s → s ∈ m.strays) :
    Effect m t k (.ended (.ok none)) none e'

/-- A turn of a task that was spawned for `k` leaves the system and the sessions so. -/
def Leaves (m : Stage) (t : TaskId) (k : Demand)
    (out : System State interface Gate Outcome × Pool) : Prop :=
  ∃ x, out.1.tasks = m.system.tasks.set t x ∧ Effect m t k x out.1.state.session out.2

section

variable {env : Environment interface Pool Gate} {login : Option Login} {timeout : Option Number}
  {m : Stage} {t : TaskId} {k : Demand} {α : Type}

theorem run_close : Demand.program login timeout .close =
    .update id fun st => closing st.session := by
  show Program.update id _ = _
  congr 1
  funext st
  obtain ⟨journal, tally, cache, session⟩ := st
  cases session with
  | none => rfl
  | some id =>
    show Program.ask _ _ = _
    congr 1
    funext b
    cases b with
    | true => rfl
    | false =>
      show Program.await _ _ = _
      congr 1
      funext w
      cases w <;> rfl

theorem run_ensure : (ensure direct login).run =
    .update id fun st =>
      match st.session with
      | none => (start direct login).run
      | some id => .ask (.isClosed id) fun
        | true => (start direct login).run
        | false => .done (.ok id) := by
  show Program.update id _ = _
  congr 1
  funext st
  obtain ⟨journal, tally, cache, session⟩ := st
  cases session with
  | none => rfl
  | some id =>
    show Program.ask _ _ = _
    congr 1
    funext b
    cases b <;> rfl

/-- A parting program ends with its turn. -/
theorem turn_parting (env : Environment interface Pool Gate) (t : TaskId)
    {p : Program State interface Outcome} (h : Parting p)
    (s : System State interface Gate Outcome) (e : Pool) :
    ∃ st r, s.turn env t p e = (System.finish { s with state := st } t r, e) ∧
      st.session = s.state.session := by
  induction p generalizing s with
  | done r => exact ⟨s.state, r, rfl, rfl⟩
  | update f next ih =>
    obtain ⟨st, r, turn, same⟩ := ih s.state (h.2 s.state) { s with state := f s.state }
    exact ⟨st, r, turn, same.trans (h.1 s.state)⟩
  | ask | await | acquire | release => exact h.elim

/-- A program that sends a request and then parts. -/
def Sends (p : Program State interface Outcome) : Prop :=
  ∃ r next, p = .await (.send r) next ∧ ∀ w, Parting (next w)

theorem run_request (verb : Verb) (url : Text) (body : Option Bytes) (headers : Option Headers) :
    ∃ f, (do return some (← request direct login timeout verb url body headers) :
        Routine interface (Option Response)).run = (ensure direct login).run.bind f ∧
      ∀ id, Sends (f (.ok id)) := by
  unfold request
  rw [bind_assoc, Routine.run_bind]
  refine ⟨_, rfl, fun id => ⟨⟨id, verb, url, body, headers, timeout⟩, _, rfl, fun w => ?_⟩⟩
  rcases w with (fault | response) | _
  · rcases fault with _ | message | failure
    · exact ⟨fun _ => rfl, fun _ => trivial⟩
    · exact ⟨fun _ => rfl, fun _ => trivial⟩
    · trivial
  · trivial
  · trivial

theorem program_of_ne_close (request : k ≠ .close) :
    ∃ f, k.program login timeout = (ensure direct login).run.bind f ∧
      ∀ id, Sends (f (.ok id)) := by
  cases k with
  | get url => exact run_request .get url none none
  | post url body => exact run_request .post url (some body) (some bodyHeaders)
  | close => exact absurd rfl request

variable (faithful : Faithful env)

include faithful

/-- A session that is started is held. -/
theorem turn_start (login : Option Login) (t : TaskId)
    (f : Except Failure SessionId → Program State interface α)
    (s : System State interface Gate α) (e : Pool) :
    ∃ st, s.turn env t ((start direct login).run.bind f) e =
        System.turn env t (f (.ok e.started)) { s with state := st } e.start ∧
      st.session = some e.started := by
  refine ⟨{ s.state with session := some e.started }, ?_, rfl⟩
  show System.turn env t (f (.ok _)) _ _ = _
  rw [faithful.start]

/-- A request uses the session that is held, if that one is open, and starts one otherwise. -/
theorem turn_ensure (f : Except Failure SessionId → Program State interface α)
    (s : System State interface Gate α) (e : Pool) :
    ∃ id st e', s.turn env t ((ensure direct login).run.bind f) e =
        System.turn env t (f (.ok id)) { s with state := st } e' ∧
      (st = s.state ∧ e' = e ∨
        st.session = some e.started ∧ e' = e.start ∧
          ∀ id, s.state.session = some id → ¬e.Open id) := by
  rw [run_ensure]
  -- The session that is held is read before anything is asked: the cases are those of this state.
  show ∃ id st e', s.turn env t (Program.bind (match s.state.session with
    | none => (start direct login).run
    | some id => _) f) e = _ ∧ _
  cases held : s.state.session with
  | none =>
    obtain ⟨st, turn, holds⟩ := turn_start faithful login t f s e
    exact ⟨e.started, st, e.start, turn, .inr ⟨holds, rfl, nofun⟩⟩
  | some id =>
    dsimp only [Program.bind, System.turn]
    rw [faithful.isClosed]
    by_cases alive : e.Open id
    · refine ⟨id, s.state, e, ?_, .inl ⟨rfl, rfl⟩⟩
      simp only [alive, decide_true, Bool.not_true]
      rfl
    · obtain ⟨st, turn, holds⟩ := turn_start faithful login t f s e
      refine ⟨e.started, st, e.start, ?_, .inr ⟨holds, rfl, ?_⟩⟩
      · simp only [alive, decide_false, Bool.not_false]
        exact turn
      · rintro _ ⟨⟩
        exact alive

/-- When the session is there, the request is sent. -/
theorem turn_send {r : Request}
    {next : Wake (interface.Reply (.send r)) → Program State interface Outcome}
    (parts : ∀ w, Parting (next w)) (s : System State interface Gate Outcome) (e : Pool) :
    ∃ x, (s.turn env t (.await (.send r) next) e).1.tasks = s.tasks.set t x ∧ Parts x ∧
      (s.turn env t (.await (.send r) next) e).1.state.session = s.state.session ∧
      e.Wanes (s.turn env t (.await (.send r) next) e).2 := by
  unfold System.turn
  split
  · obtain ⟨st, result, turn, same⟩ := turn_parting env t
      (parts (.value (env.reply (.send r) e).1)) s (env.reply (.send r) e).2
    rw [turn]
    exact ⟨_, rfl, .ended result, same, faithful.send r e⟩
  · exact ⟨_, rfl, .held _ (parts _) (parts _), rfl, faithful.send r e⟩

/-- The first turn of a request. -/
theorem leaves_request (request : k ≠ .close) (new : t ∉ m.begun)
    {f : Except Failure SessionId → Program State interface Outcome}
    (sends : ∀ id, Sends (f (.ok id))) :
    Leaves m t k (m.system.turn env t ((ensure direct login).run.bind f) m.pool) := by
  obtain ⟨id, st, e, turn, ensured⟩ := turn_ensure faithful f m.system m.pool
  rw [turn]
  obtain ⟨r, next, program, parting⟩ := sends id
  rw [program]
  obtain ⟨x, tasks, parts, same, wanes⟩ :=
    turn_send faithful parting { m.system with state := st } e
  refine ⟨x, tasks, ?_⟩
  rw [same]
  obtain ⟨rfl, rfl⟩ | ⟨holds, rfl, lacking⟩ := ensured
  · exact .keeps parts wanes fun close => absurd close request
  · exact holds ▸ .starts request new parts lacking wanes

/-- The first turn of a `close`. -/
theorem leaves_close (close : k = .close) {session : Option SessionId}
    (held : m.system.state.session = session) :
    Leaves m t k (m.system.turn env t (closing session) m.pool) := by
  cases session with
  | none => exact ⟨_, rfl, .clears close (.refl _) (by simp [held])⟩
  | some id =>
    dsimp only [System.turn, closing]
    rw [faithful.isClosed]
    by_cases alive : m.pool.Open id
    · simp only [alive, decide_true, Bool.not_true]
      unfold System.turn
      split
      · rename_i prompt
        refine ⟨_, rfl, .clears close (faithful.close id m.pool) ?_⟩
        rintro s hs stillOpen
        obtain rfl := Option.some.inj (held.symm.trans hs)
        exact absurd stillOpen (faithful.prompt id m.pool prompt)
      · rename_i g delayed
        obtain rfl := faithful.delayed id m.pool g delayed
        refine ⟨_, rfl, ?_⟩
        exact held ▸ .closes close held (faithful.close id m.pool)
    · simp only [alive, decide_false, Bool.not_false]
      refine ⟨_, rfl, .clears close (.refl _) ?_⟩
      rintro s hs stillOpen
      obtain rfl := Option.some.inj (held.symm.trans hs)
      exact absurd stillOpen alive

end

/-! ## Where the tasks stand -/

section

variable (login : Option Login) (timeout : Option Number)

/-- Where a task stands that was spawned for `k`. While a `close` waits, every other session that is
held and open is a stray. -/
inductive Stands (m : Stage) (t : TaskId) (k : Demand) :
    Standing State interface Gate Outcome → Prop where
  | fresh (new : t ∉ m.begun) : Stands m t k (.ready (k.program login timeout))
  | parting {x} (request : k ≠ .close) (parts : Parts x) : Stands m t k x
  | closing (s : SessionId) (close : k = .close)
    (others : ∀ x, m.system.state.session = some x → m.pool.Open x → x = s ∨ x ∈ m.strays) :
    Stands m t k (.held (.closing s) clearing withdrawn)
  | closed (close : k = .close)
    (others : ∀ x, m.system.state.session = some x → m.pool.Open x → x ∈ m.strays) :
    Stands m t k (.awake none clearing withdrawn)
  | withdrawn (close : k = .close) : Stands m t k (.ready withdrawn)
  | ended (r : Outcome) : Stands m t k (.ended r)

/-- What holds of every stage that is reached. -/
structure Sound (m : Stage) : Prop where
  called : m.calls.length = m.system.tasks.length
  begun : ∀ t ∈ m.begun, t < m.calls.length
  stands : ∀ (t : TaskId) k x, m.calls[t]? = some k → m.system.tasks[t]? = some x →
    Stands login timeout m t k x
  /-- Every open session that is no stray is held. -/
  held : ∀ s, m.pool.Open s → s ∉ m.strays → m.system.state.session = some s
  /-- After a last `close` no session is held. -/
  last : ∀ (t : TaskId) r, m.begun.getLast? = some t → m.calls[t]? = some .close →
    m.system.tasks[t]? = some (.ended r) → r ≠ .error .cancelled → m.system.state.session = none

end

variable {login : Option Login} {timeout : Option Number} {m m' : Stage} {t : TaskId} {k : Demand}
  {x : Standing State interface Gate Outcome}

/-- A task stands where it stood while others have their turns. -/
theorem Stands.mono (h : Stands login timeout m t k x) (begun : t ∈ m'.begun → t ∈ m.begun)
    (strays : ∀ s ∈ m.strays, s ∈ m'.strays)
    (drift : k = .close → x.suspended → ∀ s, m'.system.state.session = some s → m'.pool.Open s →
      m.system.state.session = some s ∧ m.pool.Open s ∨ s ∈ m'.strays) :
    Stands login timeout m' t k x := by
  cases h with
  | fresh new => exact .fresh (mt begun new)
  | parting request parts => exact .parting request parts
  | closing s close others =>
    refine .closing s close fun y hy alive => ?_
    rcases drift close rfl y hy alive with ⟨hy, alive⟩ | stray
    · exact (others y hy alive).imp_right (strays y)
    · exact .inr stray
  | closed close others =>
    refine .closed close fun y hy alive => ?_
    rcases drift close rfl y hy alive with ⟨hy, alive⟩ | stray
    · exact strays y (others y hy alive)
    · exact stray
  | withdrawn close => exact .withdrawn close
  | ended r => exact .ended r

/-- The gate opens behind which a task waits. -/
theorem Stands.opened {g : Gate} {p q : Program State interface Outcome}
    (h : Stands login timeout m t k (.held g p q))
    (done : ∀ s, g = .closing s → ¬m.pool.Open s) :
    Stands login timeout m t k (.awake none p q) := by
  cases h with
  | parting request parts =>
    cases parts with
    | held g hp hq => exact .parting request (.awake hp hq)
  | closing s close others =>
    refine .closed close fun y hy alive => (others y hy alive).resolve_left ?_
    rintro rfl
    exact done y rfl alive

/-- A task is cancelled. -/
theorem Stands.withdraws {y : Standing State interface Gate Outcome}
    (h : Stands login timeout m t k x) (hy : x.withdrawn? = some y) :
    Stands login timeout m t k y := by
  cases h with
  | fresh new => cases hy
  | parting request parts =>
    cases parts with
    | ready h => cases hy
    | awake hp hq => exact Option.some.inj hy ▸ .parting request (.ready hq)
    | held g hp hq => exact Option.some.inj hy ▸ .parting request (.ready hq)
    | ended r => cases hy
  | closing s close others => exact Option.some.inj hy ▸ .withdrawn close
  | closed close others => exact Option.some.inj hy ▸ .withdrawn close
  | withdrawn close => cases hy
  | ended r => cases hy

/-- The turn of a task that stands where it may. -/
theorem Stands.turns {env : Environment interface Pool Gate} (faithful : Faithful env)
    (h : Stands login timeout m t k x) (hx : m.system.tasks[t]? = some x)
    {p : Program State interface Outcome} (ready : m.system.turn? t = some p) :
    Leaves m t k (m.system.turn env t p m.pool) := by
  simp only [System.turn?, hx] at ready
  cases h with
  | fresh new =>
    cases ready
    by_cases close : k = .close
    · subst close
      exact run_close ▸ leaves_close faithful rfl rfl
    · obtain ⟨f, program, sends⟩ : ∃ f, k.program login timeout = _ ∧ _ :=
        program_of_ne_close close
      rw [program]
      exact leaves_request faithful close new sends
  | parting request parts =>
    have keeps {p} (parting : Parting p) : Leaves m t k (m.system.turn env t p m.pool) := by
      obtain ⟨st, r, turn, same⟩ := turn_parting env t parting m.system m.pool
      rw [turn]
      refine ⟨_, rfl, ?_⟩
      exact same ▸ .keeps (.ended r) (.refl _) fun close => absurd close request
    cases parts with
    | ready h => exact Option.some.inj ready ▸ keeps h
    | awake hp _ => exact Option.some.inj ready ▸ keeps hp
    | held => cases ready
    | ended => cases ready
  | closing s close others => cases ready
  | closed close others =>
    cases ready
    exact ⟨_, rfl, .clears close (.refl _) others⟩
  | withdrawn close =>
    cases ready
    exact ⟨_, rfl, .keeps (.ended _) (.refl _) fun _ => rfl⟩
  | ended r => cases ready

namespace Effect

variable {session : Option SessionId} {e : Pool} (effect : Effect m t k x session e)

include effect

/-- The task stands where it may. -/
theorem stands (held : m'.system.state.session = session) : Stands login timeout m' t k x := by
  cases effect with
  | keeps parts wanes cancelled =>
    by_cases close : k = .close
    · exact cancelled close ▸ .ended _
    · exact .parting close parts
  | starts request new parts => exact .parting request parts
  | closes close holds wanes =>
    exact .closing _ close fun y hy _ => .inl (Option.some.inj (hy.symm.trans held))
  | clears close wanes dropped => exact .ended _

/-- A session that is held and open was so before, or was started. -/
theorem drift {s : SessionId} (held : session = some s) (alive : e.Open s) :
    m.system.state.session = some s ∧ m.pool.Open s ∨
      s = m.pool.started ∧ e.started = m.pool.started + 1 := by
  cases effect with
  | keeps parts wanes cancelled => exact .inl ⟨held, wanes.of_open alive⟩
  | starts request new parts lacking wanes =>
    exact .inr ⟨(Option.some.inj held).symm, wanes.started⟩
  | closes close holds wanes =>
    exact .inl ⟨Option.some.inj held ▸ holds, wanes.of_open alive⟩
  | clears close wanes dropped => cases held

/-- No open session is lost but for strays. -/
theorem holds (held : ∀ s, m.pool.Open s → s ∉ m.strays → m.system.state.session = some s)
    {s : SessionId} (alive : e.Open s) (proper : s ∉ m.strays) : session = some s := by
  cases effect with
  | keeps parts wanes cancelled => exact held s (wanes.of_open alive) proper
  | starts request new parts lacking wanes =>
    rcases Pool.open_of_start (wanes.of_open alive) with before | rfl
    · exact absurd before (lacking s (held s before proper))
    · rfl
  | closes close holds wanes => exact holds ▸ held s (wanes.of_open alive) proper
  | clears close wanes dropped =>
    exact absurd (dropped s (held s (wanes.of_open alive) proper) alive) proper

/-- A `close` that ends has dropped the session. -/
theorem cleared (close : k = .close) {r : Outcome} (ended : x = .ended r)
    (completed : r ≠ .error .cancelled) : session = none := by
  cases effect with
  | keeps parts wanes cancelled =>
    obtain rfl : r = .error .cancelled := by simpa using ended.symm.trans (cancelled close)
    exact absurd rfl completed
  | starts request => exact absurd close request
  | closes => cases ended
  | clears => rfl

/-- No session is started except in the first turn of a task. -/
theorem none_of_begun (begun : t ∈ m.begun) (before : m.system.state.session = none) :
    session = none := by
  cases effect with
  | keeps => exact before
  | starts request new => exact absurd begun new
  | closes close holds => exact holds.symm.trans before
  | clears => rfl

end Effect

/-! ## What every step keeps -/

theorem Stage.closing_of_suspended (hk : m.calls[t]? = some .close)
    (hx : m.system.tasks[t]? = some x) (suspended : x.suspended) : m.Closing :=
  ⟨t, (List.getElem?_eq_some_iff.1 hk).1, hk, by simp [hx, suspended]⟩

/-- Whoever was a stray still is one. -/
theorem Stage.mem_strays_turned {out : System State interface Gate Outcome × Pool} {s : SessionId}
    (h : s ∈ m.strays) : s ∈ (m.turned t out).strays := by
  unfold turned
  dsimp only
  split
  · exact List.mem_append_left _ h
  · exact h

/-- A session that is started while one is being closed is a stray. -/
theorem Stage.mem_strays_of_closing {out : System State interface Gate Outcome × Pool}
    (closing : m.Closing) (started : out.2.started = m.pool.started + 1) :
    m.pool.started ∈ (m.turned t out).strays := by
  simp [turned, closing, started]

namespace Sound

theorem initial {start : State} : Sound login timeout (.initial start) where
  called := rfl
  begun := by simp [Stage.initial]
  stands t k x hk := by simp [Stage.initial] at hk
  held s alive := absurd alive.1 (Nat.not_lt_zero s)
  last t r ht := by simp [Stage.initial] at ht

theorem spawn (h : Sound login timeout m) (k : Demand) : Sound login timeout
    { m with calls := m.calls ++ [k], system := m.system.spawn (k.program login timeout) } := by
  have old {t : TaskId} (lt : t < m.calls.length) :
      (m.calls ++ [k])[t]? = m.calls[t]? ∧
        (m.system.tasks ++ [.ready (k.program login timeout)])[t]? = m.system.tasks[t]? :=
    ⟨List.getElem?_append_left lt, List.getElem?_append_left (h.called ▸ lt)⟩
  refine ⟨?_, ?_, ?_, h.held, ?_⟩
  · simp [System.spawn, h.called]
  · exact fun t ht => Nat.lt_of_lt_of_le (h.begun t ht) (by simp)
  · intro t j x hj hx
    by_cases lt : t < m.calls.length
    · refine (h.stands t j x ((old lt).1 ▸ hj) ((old lt).2 ▸ hx)).mono id (fun _ => id) ?_
      exact fun _ _ s hs alive => .inl ⟨hs, alive⟩
    · have ge := Nat.le_of_not_lt lt
      simp only [System.spawn] at hx
      rw [List.getElem?_append_right (h.called ▸ ge)] at hx
      rw [List.getElem?_append_right ge] at hj
      obtain ⟨-, rfl⟩ := by simpa [List.getElem?_singleton] using hx
      obtain ⟨-, rfl⟩ := by simpa [List.getElem?_singleton] using hj
      exact .fresh fun begun => lt (h.begun t begun)
  · intro t r last hk hx
    have lt := h.begun t (List.mem_of_getLast? last)
    exact h.last t r last ((old lt).1 ▸ hk) ((old lt).2 ▸ hx)

/-- Tasks are awakened or cancelled, and sessions become closed. -/
theorem between (h : Sound login timeout m) (calls : m'.calls = m.calls)
    (begun : m'.begun = m.begun) (strays : m'.strays = m.strays)
    (session : m'.system.state.session = m.system.state.session) (wanes : m.pool.Wanes m'.pool)
    (length : m'.system.tasks.length = m.system.tasks.length)
    (tasks : ∀ (t : TaskId) y, m'.system.tasks[t]? = some y → ∃ x, m.system.tasks[t]? = some x ∧
      (∀ k, Stands login timeout m t k x → Stands login timeout m t k y) ∧
        ∀ r, y = .ended r → x = y) : Sound login timeout m' := by
  refine ⟨?_, ?_, ?_, ?_, ?_⟩
  · rw [calls, length, h.called]
  · rw [calls, begun]
    exact h.begun
  · intro t k y hk hy
    obtain ⟨x, hx, stands, -⟩ := tasks t y hy
    refine (stands k (h.stands t k x (calls ▸ hk) hx)).mono ?_ ?_ ?_
    · exact begun ▸ id
    · exact fun _ => strays ▸ id
    · exact fun _ _ s hs alive => .inl ⟨session ▸ hs, wanes.of_open alive⟩
  · rw [session, strays]
    exact fun s alive => h.held s (wanes.of_open alive)
  · intro t r last hk hy completed
    obtain ⟨x, hx, -, ended⟩ := tasks t _ hy
    rw [session]
    exact h.last t r (begun ▸ last) (calls ▸ hk) (ended r rfl ▸ hx) completed

theorem turned (h : Sound login timeout m) {out : System State interface Gate Outcome × Pool}
    (hk : m.calls[t]? = some k) (leaves : Leaves m t k out) :
    Sound login timeout (m.turned t out) := by
  obtain ⟨x, tasks, effect⟩ := leaves
  have lt : t < m.system.tasks.length := h.called ▸ (List.getElem?_eq_some_iff.1 hk).1
  have others {u : TaskId} (ne : t ≠ u) : out.1.tasks[u]? = m.system.tasks[u]? := by
    rw [tasks, List.getElem?_set_ne ne]
  have itself : out.1.tasks[t]? = some x := by rw [tasks, List.getElem?_set_self lt]
  have begun {u : TaskId} (hu : u ∈ (m.turned t out).begun) : u ∈ m.begun ∨ u = t := by
    unfold Stage.turned at hu
    dsimp only at hu
    split at hu
    · exact .inl hu
    · simpa using hu
  refine ⟨?_, ?_, ?_, ?_, ?_⟩
  · exact h.called.trans (by simp [Stage.turned, tasks])
  · exact fun u hu => (begun hu).elim (h.begun u) fun e =>
      e.symm ▸ (List.getElem?_eq_some_iff.1 hk).1
  · intro u j y hj hy
    by_cases ne : t = u
    · subst ne
      obtain rfl := Option.some.inj (itself.symm.trans hy)
      obtain rfl := Option.some.inj (hk.symm.trans hj)
      exact effect.stands rfl
    · -- If this one is a `close` that waits, a session that is started meanwhile is a stray.
      have hy' := (others ne).symm.trans hy
      refine (h.stands u j y hj hy').mono (fun hu => (begun hu).resolve_right (Ne.symm ne))
        (fun _ => Stage.mem_strays_turned) fun close suspended s hs alive => ?_
      have closing := Stage.closing_of_suspended (close ▸ hj) hy' suspended
      refine (effect.drift hs alive).imp_right ?_
      rintro ⟨rfl, started⟩
      exact Stage.mem_strays_of_closing closing started
  · exact fun s alive proper => effect.holds h.held alive fun stray =>
      proper (Stage.mem_strays_turned stray)
  · intro u r last hj hy completed
    by_cases ne : t = u
    · subst ne
      obtain rfl := Option.some.inj (hk.symm.trans hj)
      exact effect.cleared rfl (Option.some.inj (itself.symm.trans hy)) completed
    · -- A task that begins is the last one itself; the turn of any other starts no session.
      have hy' := (others ne).symm.trans hy
      by_cases old : t ∈ m.begun
      · simp only [Stage.turned, old, if_true] at last
        exact effect.none_of_begun old (h.last u r last hj hy' completed)
      · simp [Stage.turned, old, ne] at last

theorem step (h : Sound login timeout m) (step : Stage.Step login timeout m m') :
    Sound login timeout m' := by
  cases step with
  | spawn k => exact h.spawn k
  | reorder queue =>
    exact h.between rfl rfl rfl rfl (.refl _) rfl
      fun t x hx => ⟨x, hx, fun _ => id, fun _ _ => rfl⟩
  | openGate g done =>
    have o := System.opened_openGate g m.system
    refine h.between rfl rfl rfl (congrArg State.session o.state) (.refl _) o.length
      fun t y hy => ?_
    rcases o.tasks t with same | ⟨p, q, held, awake⟩
    · exact ⟨y, same ▸ hy, fun _ => id, fun _ _ => rfl⟩
    · -- The session is closed now that its `close` waited for, so what is held and open is a stray.
      obtain rfl := Option.some.inj (awake.symm.trans hy)
      exact ⟨_, held, fun k stands => stands.opened done, nofun⟩
  | cancel t =>
    by_cases stopped : ∃ x y, m.system.tasks[t]? = some x ∧ x.withdrawn? = some y
    · obtain ⟨x, y, hx, hy⟩ := stopped
      have tasks := System.cancel_tasks hx hy
      have lt := (List.getElem?_eq_some_iff.1 hx).1
      refine h.between rfl rfl rfl (congrArg State.session (System.cancel_state ..)) (.refl _)
        (by simp [tasks]) fun u z hz => ?_
      rw [tasks] at hz
      by_cases ne : t = u
      · subst ne
        obtain rfl := Option.some.inj ((List.getElem?_set_self lt).symm.trans hz)
        refine ⟨x, hx, fun k stands => stands.withdraws hy, ?_⟩
        rintro r rfl
        cases x <;> cases hy
      · rw [List.getElem?_set_ne ne] at hz
        exact ⟨z, hz, fun _ => id, fun _ _ => rfl⟩
    · rw [System.cancel_eq_self]
      · exact ⟨h.called, h.begun, h.stands, h.held, h.last⟩
      · intro x hx
        exact Option.eq_none_iff_forall_ne_some.2 fun y hy => stopped ⟨x, y, hx, hy⟩
  | shut s =>
    exact h.between rfl rfl rfl rfl (Pool.wanes_shut _ _) rfl
      fun t x hx => ⟨x, hx, fun _ => id, fun _ _ => rfl⟩
  | turn faithful ready =>
    have lt := (System.free_of_turn? ready).1
    have hk := List.getElem?_eq_getElem (h.called.symm ▸ lt)
    have hx := List.getElem?_eq_getElem lt
    exact h.turned hk ((h.stands _ _ _ hk hx).turns faithful hx ready)

theorem of_reached {start : State} (h : m.Reached login timeout start) : Sound login timeout m := by
  induction h with
  | refl => exact initial
  | tail _ step ih => exact ih.step step

end Sound

/-! ## What holds of open sessions -/

/-- When a `close` that has waited goes on, no session is held and none has become closed, so a
stray that was held and open is lost. -/
theorem close_drops {start : State} (h : m.Reached login timeout start)
    (hk : m.calls[t]? = some .close) {l : Option LockId} {p q : Program State interface Outcome}
    (awake : m.system.tasks[t]? = some (.awake l p q)) (env : Environment interface Pool Gate) :
    let out := m.system.turn env t p m.pool
    out.1.state.session = none ∧ out.2 = m.pool := by
  cases (Sound.of_reached h).stands t _ _ hk awake with
  | parting request => exact absurd rfl request
  | closed => exact ⟨rfl, rfl⟩

/-- Whatever the tasks do, every open session that is no stray is the one that is held, so there is
one at most; and when the last task to begin was a `close` that has ended, and was not cancelled,
only strays are open. -/
theorem open_session_held {start : State} (h : m.Reached login timeout start) :
    (∀ s, m.pool.Open s → s ∉ m.strays → m.system.state.session = some s) ∧
    (∀ s s', m.pool.Open s → m.pool.Open s' → s ∉ m.strays → s' ∉ m.strays → s = s') ∧
    ∀ (t : TaskId) r, m.begun.getLast? = some t → m.calls[t]? = some .close →
      m.system.tasks[t]? = some (.ended r) → r ≠ .error .cancelled →
      ∀ s, m.pool.Open s → s ∈ m.strays := by
  have sound := Sound.of_reached h
  refine ⟨sound.held, fun s s' alive alive' proper proper' => ?_, ?_⟩
  · have := (sound.held s alive proper).symm.trans (sound.held s' alive' proper')
    exact Option.some.inj this
  · intro t r last hk ended completed s alive
    have none := sound.last t r last hk ended completed
    refine Decidable.byContradiction fun proper => ?_
    cases none.symm.trans (sound.held s alive proper)

/-- Replies are there at once. A session reports that it is closed as soon as its closing begins,
which takes time. -/
def lingering : Environment interface Pool Gate where
  reply
    | .start _ _, e => (e.started, e.start)
    | .isClosed s, e => (!decide (e.Open s), e)
    | .send _, e => (.ok ⟨200, []⟩, e)
    | .close s, e => ((), e.shut s)
  gate?
    | .close s, _ => some (.closing s)
    | _, _ => none

theorem lingering_faithful : Faithful lingering where
  start _ _ _ := rfl
  isClosed _ _ := rfl
  send _ e := .refl e
  close s e := e.wanes_shut s
  prompt _ _ h := by cases h
  delayed _ _ _ h := (Option.some.inj h).symm

/-- A request starts a session and ends, and a `close` after it. -/
def closed : Stage :=
  Stage.initial (State.initial Level.warning false)
    |>.enter (.get "/") |>.enter .close |>.advance lingering 0 |>.advance lingering 1
    |>.openGate (.closing 0) |>.advance lingering 1

theorem closed_reached : closed.Reached none none (State.initial Level.warning false) := by
  have start : (Stage.initial (State.initial Level.warning false)).Reached none none _ := .refl
  have waits := (((start.enter (.get "/")).enter .close).advance lingering_faithful 0).advance
    lingering_faithful 1
  exact (waits.closes (by decide +kernel)).advance lingering_faithful 1

theorem open_session_held_closed :
    closed.Reached none none (State.initial Level.warning false) ∧
      closed.begun.getLast? = some 1 ∧ closed.calls[1]? = some .close ∧
      closed.system.tasks[1]? = some (.ended (.ok none)) ∧
      closed.pool.started = 1 ∧ ∀ s, ¬closed.pool.Open s := by
  refine ⟨closed_reached, rfl, rfl, rfl, rfl, fun s alive => ?_⟩
  have stray := (open_session_held closed_reached).2.2 1 (.ok none) rfl rfl rfl (by simp) s alive
  have none : closed.strays = [] := by decide +kernel
  simp [none] at stray

/-- While a `close` waits until session 0 is closed, a request finds that one closed and starts
session 1, which the `close` then drops. The next request starts session 2. -/
def orphaned : Stage :=
  Stage.initial (State.initial Level.warning false)
    |>.enter (.get "/") |>.enter .close |>.advance lingering 0 |>.advance lingering 1
    |>.enter (.get "/") |>.advance lingering 2
    |>.openGate (.closing 0) |>.advance lingering 1
    |>.enter (.get "/") |>.advance lingering 3

/-- A `close` after that. -/
def abandoned : Stage :=
  orphaned.enter .close |>.advance lingering 4 |>.openGate (.closing 2) |>.advance lingering 4

theorem orphaned_reached : orphaned.Reached none none (State.initial Level.warning false) := by
  have start : (Stage.initial (State.initial Level.warning false)).Reached none none _ := .refl
  have waits := (((start.enter (.get "/")).enter .close).advance lingering_faithful 0).advance
    lingering_faithful 1
  have starts := (waits.enter (.get "/")).advance lingering_faithful 2
  have drops := (starts.closes (s := 0) (by decide +kernel)).advance lingering_faithful 1
  exact (drops.enter (.get "/")).advance lingering_faithful 3

theorem abandoned_reached : abandoned.Reached none none (State.initial Level.warning false) := by
  have waits := (orphaned_reached.enter .close).advance lingering_faithful 4
  exact (waits.closes (s := 2) (by decide +kernel)).advance lingering_faithful 4

/-- Two sessions may be open at once, and one may stay open, which is not held, when every task has
ended and the last one to begin was a `close`. -/
theorem stray_left_open :
    (∃ m, Stage.Reached none none (State.initial Level.warning false) m ∧
      m.pool.Open 1 ∧ m.pool.Open 2) ∧
    ∃ m, Stage.Reached none none (State.initial Level.warning false) m ∧
      (∀ t < m.calls.length, m.system.isEnded t) ∧ m.begun.getLast? = some 4 ∧
      m.calls[4]? = some .close ∧ m.system.tasks[4]? = some (.ended (.ok none)) ∧
      m.pool.Open 1 ∧ m.system.state.session = none := by
  refine ⟨⟨orphaned, orphaned_reached, by decide +kernel, by decide +kernel⟩,
    abandoned, abandoned_reached, by decide +kernel, by decide +kernel, by decide +kernel, rfl,
    by decide +kernel, by decide +kernel⟩

end Registrar.Session
