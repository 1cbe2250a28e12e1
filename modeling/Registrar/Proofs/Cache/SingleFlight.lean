import Registrar.Proofs.Cache.Lookup
import Registrar.Proofs.Schedule.Runs

/-!
# Single flight

Any number of lookups are under way in one cache, each for a slot of its own choice. At most one
loader runs for a slot, and all lookups of a slot that wait for a lock or hold one refer to the same
lock. This holds at every moment that is reached, whatever the loaders do and however they end,
whoever is cancelled, and whatever is removed from the cache meanwhile.

The invariant is `Seated`: every task has a seat, stands where its seat says, and the seats agree
with the books that the cache keeps.
-/

namespace Registrar.Cache

open Lookup Moment

variable {I : Interface} {γ : Type}

/-- A moment of lookups that share a cache. -/
abbrev Flight (I : Interface) (γ : Type) := Moment (Lookup I) State I γ Outcome

/-- What others do to the state: they may drop the errors or all entries of the cache, and change
whatever is outside the cache. -/
inductive Foreign (s t : State) : Prop where
  | same (h : t.cache = s.cache)
  | removal (h : t.cache = s.cache.dropErrors)
  | clearing (h : t.cache = s.cache.clear)

theorem Foreign.locksKept {s t : State} (h : Foreign s t) : LocksKept s t := by
  rcases h with h | h | h <;> rw [LocksKept, h] <;> exact ⟨rfl, rfl, rfl⟩

namespace Flight

/-- A loader that the task `t` brought for a slot is under way. -/
def Loads (m : Flight I γ) (s : Slot) (t : TaskId) : Prop :=
  ∃ k x, m.calls[t]? = some k ∧ m.system.tasks[t]? = some x ∧ k.slot = s ∧ Loading k x

/-- The task `t`, which came for a slot, waits for a lock or holds it. -/
def Uses (m : Flight I γ) (s : Slot) (t : TaskId) (l : LockId) : Prop :=
  ∃ k, m.calls[t]? = some k ∧ k.slot = s ∧
    ((∃ p q, m.system.tasks[t]? = some (.waiting l p q)) ∨ Assoc.get? l m.system.locks = some t)

/-! ## The invariant -/

/-- Every task stands where its seat says, and the seats agree with the books. -/
structure Seated (m : Flight I γ) (seats : List Seat) : Prop where
  booked : Booked seats m.system.state.cache m.system.locks
  called : m.calls.length = m.system.tasks.length
  complete : seats.length = m.system.tasks.length
  stands : ∀ (t : TaskId) x, m.system.tasks[t]? = some x →
    ∃ k pos, m.calls[t]? = some k ∧ seats[t]? = some ⟨k.slot, pos⟩ ∧ Stands k pos x

namespace Seated

variable {cs : List (Lookup I)} {s s' : System State I γ Outcome} {turn : Option TaskId}
  {seats : List Seat} {t : TaskId} {k : Lookup I} {pos : Position}
  {x : Standing State I γ Outcome}

theorem initial {start : State} (h : ∃ keep fresh, start.cache = Cache.empty keep fresh) :
    Seated (⟨[], System.initial start, none⟩ : Flight I γ) [] := by
  obtain ⟨keep, fresh, h⟩ := h
  exact ⟨by simpa [System.initial, h] using Booked.empty keep fresh, rfl, rfl,
    by simp [System.initial]⟩

/-- Whose turn it is plays no part. -/
theorem anyTurn (h : Seated ⟨cs, s, turn⟩ seats) (turn' : Option TaskId) :
    Seated ⟨cs, s, turn'⟩ seats :=
  ⟨h.booked, h.called, h.complete, h.stands⟩

/-- One task moves on. -/
theorem moves (h : Seated ⟨cs, s, turn⟩ seats) (hk : cs[t]? = some k) (hx : Stands k pos x)
    (tasks : s'.tasks = s.tasks.set t x)
    (booked : Booked (seats.set t ⟨k.slot, pos⟩) s'.state.cache s'.locks) :
    Seated ⟨cs, s', turn⟩ (seats.set t ⟨k.slot, pos⟩) where
  booked := booked
  called := by simpa [tasks] using h.called
  complete := by simpa [tasks] using h.complete
  stands := by
    intro u y hy
    simp only [tasks] at hy
    by_cases e : t = u
    · subst e
      have lt : t < s.tasks.length := by
        rw [← h.called]
        exact (List.getElem?_eq_some_iff.1 hk).1
      rw [List.getElem?_set_self lt] at hy
      cases hy
      exact ⟨k, pos, hk, List.getElem?_set_self (h.complete ▸ lt), hx⟩
    · rw [List.getElem?_set_ne e] at hy ⊢
      exact h.stands u y hy

/-- A task stands elsewhere and as before with its lock. -/
theorem stays (h : Seated ⟨cs, s, turn⟩ seats) (hk : cs[t]? = some k)
    (hs : seats[t]? = some ⟨k.slot, pos⟩) (hx : Stands k pos x)
    (tasks : s'.tasks = s.tasks.set t x) (state : s'.state = s.state) (locks : s'.locks = s.locks) :
    ∃ seats', Seated ⟨cs, s', turn⟩ seats' := by
  refine ⟨_, h.moves hk hx tasks ?_⟩
  rw [state, locks]
  exact h.booked.stay hs ⟨rfl, rfl, rfl⟩

/-- The task whose turn it is stands at a point of its program. -/
theorem at_turn (h : Seated ⟨cs, s, turn⟩ seats) {p : Task I}
    (hp : s.tasks[t]? = some (.ready p)) :
    ∃ k pos, cs[t]? = some k ∧ seats[t]? = some ⟨k.slot, pos⟩ ∧ At k pos p := by
  obtain ⟨k, pos, hk, hs, hx⟩ := h.stands t _ hp
  cases hx with
  | ready hp => exact ⟨k, pos, hk, hs, hp⟩

/-- So does a task that is given its turn. -/
theorem at_start (h : Seated ⟨cs, s, turn⟩ seats) {p : Task I} (hp : s.turn? t = some p) :
    ∃ k pos, cs[t]? = some k ∧ seats[t]? = some ⟨k.slot, pos⟩ ∧ At k pos p := by
  unfold System.turn? at hp
  split at hp
  · rename_i hx
    cases hp
    exact h.at_turn hx
  · rename_i hx
    cases hp
    obtain ⟨k, pos, hk, hs, hx⟩ := h.stands t _ hx
    cases hx with
    | awake lock hp hq => exact ⟨k, pos, hk, hs, hp⟩
  · cases hp

/-- A task that waits for a lock is at the gate to it. -/
theorem at_wait (h : Seated ⟨cs, s, turn⟩ seats) {l : LockId} {p q : Task I}
    (hp : s.tasks[t]? = some (.waiting l p q)) :
    ∃ k, cs[t]? = some k ∧ seats[t]? = some ⟨k.slot, .waiting l⟩ ∧ p = k.inside l ∧
      q = depart k.slot (.error .cancelled) := by
  obtain ⟨k, pos, hk, hs, hx⟩ := h.stands t _ hp
  cases hx with
  | waiting => exact ⟨k, hk, hs, rfl, rfl⟩

/-! ### What seats tell -/

/-- Who loads holds the lock that the cache keeps for the slot. -/
theorem of_loads {m : Flight I γ} (h : Seated m seats) {slot : Slot} (loads : m.Loads slot t) :
    ∃ l, Assoc.get? slot m.system.state.cache.locks = some l ∧
      Assoc.get? l m.system.locks = some t := by
  obtain ⟨k, x, hk, hx, rfl, loading⟩ := loads
  obtain ⟨k', pos, hk', hs, hstands⟩ := h.stands t x hx
  obtain rfl := Option.some.inj (hk.symm.trans hk')
  obtain ⟨l, rfl⟩ := hstands.holding_of_loading loading
  exact ⟨l, h.booked.lock t _ l hs rfl, (h.booked.holder t l).2 ⟨_, hs⟩⟩

/-- Who waits for a lock or holds one refers to the lock that the cache keeps for the slot. -/
theorem of_uses {m : Flight I γ} (h : Seated m seats) {slot : Slot} {l : LockId}
    (uses : m.Uses slot t l) :
    Assoc.get? slot m.system.state.cache.locks = some l := by
  obtain ⟨k, hk, rfl, ⟨p, q, hw⟩ | held⟩ := uses
  · obtain ⟨k', hk', hs, -, -⟩ := h.at_wait hw
    obtain rfl := Option.some.inj (hk.symm.trans hk')
    exact h.booked.lock t _ l hs rfl
  · obtain ⟨s', hs⟩ := (h.booked.holder t l).1 held
    have lt : t < m.system.tasks.length := by
      rw [← h.complete]
      exact (List.getElem?_eq_some_iff.1 hs).1
    obtain ⟨k', pos, hk', hs', -⟩ := h.stands t _ (List.getElem?_eq_getElem lt)
    obtain rfl := Option.some.inj (hk.symm.trans hk')
    obtain ⟨rfl, rfl⟩ := by simpa using hs'.symm.trans hs
    exact h.booked.lock t _ l hs rfl

/-! ### Events -/

theorem spawn (h : Seated ⟨cs, s, turn⟩ seats) (k : Lookup I) :
    Seated ⟨cs ++ [k], s.spawn k.program, turn⟩ (seats ++ [⟨k.slot, .away⟩]) where
  booked := h.booked.spawn k.slot
  called := by simpa [System.spawn] using h.called
  complete := by simpa [System.spawn] using h.complete
  stands := by
    intro t x hx
    have called : cs.length = s.tasks.length := h.called
    have complete : seats.length = s.tasks.length := h.complete
    simp only [System.spawn] at hx
    by_cases lt : t < s.tasks.length
    · rw [List.getElem?_append_left lt] at hx
      rw [List.getElem?_append_left (called ▸ lt), List.getElem?_append_left (complete ▸ lt)]
      exact h.stands t x hx
    · rw [List.getElem?_append_right (Nat.le_of_not_lt lt)] at hx
      obtain ⟨e, rfl⟩ : t - s.tasks.length = 0 ∧ Standing.ready k.program = x := by
        simpa [List.getElem?_singleton] using hx
      obtain rfl := Nat.le_antisymm (Nat.sub_eq_zero_iff_le.1 e) (Nat.le_of_not_lt lt)
      refine ⟨k, .away, ?_, ?_, .ready .called⟩
      · simp [← called]
      · simp [← complete]

theorem outside (h : Seated ⟨cs, s, turn⟩ seats) {x : State} (hx : Foreign s.state x) :
    Seated ⟨cs, { s with state := x }, turn⟩ seats where
  booked := h.booked.congr hx.locksKept
  called := h.called
  complete := h.complete
  stands := h.stands

theorem cancel (h : Seated ⟨cs, s, turn⟩ seats) (t : TaskId) :
    ∃ seats', Seated ⟨cs, s.cancel t, turn⟩ seats' := by
  unfold System.cancel
  split
  · rename_i hx
    obtain ⟨k, pos, hk, hs, hx⟩ := h.stands t _ hx
    cases hx with
    | held g hp hq => exact h.stays hk hs (.ready hq) rfl rfl rfl
  · rename_i hx
    obtain ⟨k, hk, hs, rfl, rfl⟩ := h.at_wait hx
    exact ⟨_, h.moves hk (.ready (.departing _)) rfl (h.booked.giveUp hs)⟩
  · rename_i hx
    obtain ⟨k, pos, hk, hs, hx⟩ := h.stands t _ hx
    cases hx with
    | awake lock hp hq => exact h.stays hk hs (.ready hq) rfl rfl rfl
  · exact ⟨seats, h⟩

/-- A lock is given back; the task that has waited longest for it gets it. -/
theorem release (h : Seated ⟨cs, s, turn⟩ seats) {l : LockId} {next : Unit → Task I}
    (hp : s.tasks[t]? = some (.ready (.release l next))) :
    ∃ seats', Seated ⟨cs, (s.release l).goOn t (next ()), turn⟩ seats' := by
  obtain ⟨k, pos, hk, hs, hat⟩ := h.at_turn hp
  obtain ⟨rfl, departs⟩ := hat.of_release
  have back : Seated ⟨cs, { s with locks := Assoc.erase l s.locks }.goOn t (next ()), turn⟩
      (seats.set t ⟨k.slot, .present⟩) :=
    h.moves hk (.ready departs) rfl (h.booked.giveBack hs)
  cases hn : s.next? l with
  | none => exact ⟨_, by simpa [System.release, hn] using back⟩
  | some w =>
    obtain ⟨u, x⟩ := w
    obtain ⟨p, q, hu, rfl⟩ := System.waiter?_of_next? hn
    have ne : u ≠ t := by
      rintro rfl
      simp [hp] at hu
    obtain ⟨k', hk', hs', rfl, rfl⟩ := h.at_wait hu
    refine ⟨_, back.moves hk' (.awake (some l) (.inside k' l) (.revoked k' l)) ?_ ?_⟩
    · simp [System.goOn, System.release_tasks_of_next?_some hn, List.set_comm _ _ ne]
    · simpa [System.release, hn, System.goOn, System.awaken] using h.booked.handOver hs hs'

end Seated

variable [DecidableEq γ]

namespace Seated

variable {cs : List (Lookup I)} {s : System State I γ Outcome} {turn : Option TaskId}
  {seats : List Seat}

theorem openGate (h : Seated ⟨cs, s, turn⟩ seats) (g : γ) :
    Seated ⟨cs, s.openGate g, turn⟩ seats := by
  have o := System.opened_openGate g s
  refine ⟨?_, h.called.trans o.length.symm, h.complete.trans o.length.symm, fun t x hx => ?_⟩
  · simpa [o.state, o.locks] using h.booked
  · rcases o.tasks t with same | ⟨p, q, hp, hq⟩
    · exact h.stands t x (same ▸ hx)
    · obtain ⟨k, pos, hk, hs, hstands⟩ := h.stands t _ hp
      obtain rfl := Option.some.inj (hq.symm.trans hx)
      cases hstands with
      | held g hp hq => exact ⟨k, pos, hk, hs, .awake none hp hq⟩

/-! ### Single steps -/

theorem step {m m' : Flight I γ} (h : Seated m seats)
    (step : Step Lookup.program Foreign m m') : ∃ seats', Seated m' seats' := by
  cases step with
  | spawn cs s k => exact ⟨_, h.spawn k⟩
  | outside cs s turn hx => exact ⟨_, h.outside hx⟩
  | reorder cs s queue => exact ⟨_, h.booked, h.called, h.complete, h.stands⟩
  | openGate cs s g => exact ⟨_, h.openGate g⟩
  | cancel cs s t => exact h.cancel t
  | start cs s hp =>
    obtain ⟨k, pos, hk, hs, hat⟩ := h.at_start hp
    exact (h.anyTurn _).stays hk hs (.ready hat) rfl rfl rfl
  | update cs s hp =>
    obtain ⟨k, pos, hk, hs, hat⟩ := h.at_turn hp
    obtain ⟨pos', booked, hat'⟩ := hat.of_update h.booked hs
    exact ⟨_, h.moves hk (.ready hat') rfl booked⟩
  | ask cs s hp r =>
    obtain ⟨k, pos, hk, hs, hat⟩ := h.at_turn hp
    exact h.stays hk hs (.ready (hat.of_ask r)) rfl rfl rfl
  | await cs s hp r =>
    obtain ⟨k, pos, hk, hs, hat⟩ := h.at_turn hp
    exact h.stays hk hs (.ready (hat.of_await _)) rfl rfl rfl
  | hold cs s hp r g =>
    obtain ⟨k, pos, hk, hs, hat⟩ := h.at_turn hp
    exact (h.anyTurn _).stays hk hs (.held g (hat.of_await _) (hat.of_await _)) rfl rfl rfl
  | acquire cs s hp free =>
    obtain ⟨k, pos, hk, hs, hat⟩ := h.at_turn hp
    obtain ⟨rfl, inside, -⟩ := hat.of_acquire
    rw [inside]
    exact ⟨_, h.moves hk (.ready (.inside k _)) rfl (h.booked.take hs rfl free)⟩
  | wait cs s hp taken =>
    obtain ⟨k, pos, hk, hs, hat⟩ := h.at_turn hp
    obtain ⟨rfl, inside, departs⟩ := hat.of_acquire
    rw [inside, departs]
    exact ⟨_, (h.anyTurn _).moves hk (.waiting _) rfl (h.booked.wait hs)⟩
  | release cs s hp => exact h.release hp
  | finish cs s hp =>
    obtain ⟨k, pos, hk, hs, hat⟩ := h.at_turn hp
    obtain rfl := hat.of_done
    exact (h.anyTurn _).stays hk hs (.ended _) rfl rfl rfl

/-- Every moment that is reached has seats. -/
theorem of_reached {threshold : Level} {keepRetriable : Bool} {m : Flight I γ}
    (h : Reached Lookup.program Foreign (State.initial threshold keepRetriable) m) :
    ∃ seats, Seated m seats := by
  induction h with
  | refl => exact ⟨[], .initial ⟨_, _, rfl⟩⟩
  | tail _ step ih =>
    obtain ⟨seats, h⟩ := ih
    exact h.step step

end Seated

/-- At most one loader runs for a slot, and whoever waits for a lock or holds one refers to the same
lock as everyone else who came for the slot. -/
theorem single_flight {threshold : Level} {keepRetriable : Bool} {m : Flight I γ}
    (h : Reached Lookup.program Foreign (State.initial threshold keepRetriable) m) (s : Slot) :
    (∀ t u, m.Loads s t → m.Loads s u → t = u) ∧
      ∀ t u l l', m.Uses s t l → m.Uses s u l' → l = l' := by
  obtain ⟨seats, h⟩ := Seated.of_reached h
  constructor
  · intro t u ht hu
    obtain ⟨l, hl, held⟩ := h.of_loads ht
    obtain ⟨l', hl', held'⟩ := h.of_loads hu
    obtain rfl := Option.some.inj (hl.symm.trans hl')
    exact Option.some.inj (held.symm.trans held')
  · intro t u l l' ht hu
    have kept := h.of_uses ht
    have kept' := h.of_uses hu
    exact Option.some.inj (kept.symm.trans kept')

/-! ### Two lookups of one slot -/

/-- A world that is asked for a schema. -/
abbrev oracle : Interface := ⟨Unit, fun _ => RegisteredSchema⟩

/-- A lookup whose loader waits for the world. -/
def patient : Lookup oracle :=
  ⟨.ofId 1, Routine.await (I := oracle) (), Routine.keeps_await (I := oracle) ()⟩

/-- Every reply is held back. -/
def closed : Environment oracle Unit Unit :=
  ⟨⟨fun _ e => (⟨1, .avro, [], []⟩, e)⟩, fun _ _ => some ()⟩

def start : System State oracle Unit Outcome :=
  ((System.initial (State.initial Level.info false)).spawn patient.program).spawn patient.program

def crowd : Flight oracle Unit :=
  ⟨[patient, patient],
    ((start.turn closed 0 patient.program ()).1.turn closed 1 patient.program ()).1, none⟩

theorem crowd_reached {Outside : State → State → Prop} :
    Reached Lookup.program Outside (State.initial Level.info false) crowd := by
  refine .head (.spawn [] _ patient) (.head (.spawn [patient] _ patient) ?_)
  refine .trans (System.turn_steps closed _ (t := 0) rfl ()) ?_
  exact System.turn_steps closed _ (t := 1) rfl ()

theorem crowd_loads : crowd.Loads patient.slot 0 := by
  unfold crowd
  rw [turn_program closed 0 patient start () rfl rfl]
  have part {next} (h : patient.loader.run = .await () next) :
      Program.Part (next (.value ⟨1, .avro, [], []⟩)) patient.loader.run := by
    rw [h]
    apply Program.Part.await
  exact ⟨patient, _, rfl, rfl, rfl, .held 1 (.single (part rfl)) () _⟩

theorem crowd_uses : crowd.Uses patient.slot 1 1 := ⟨patient, rfl, rfl, .inl ⟨_, _, rfl⟩⟩

/-- The second lookup waits while the loader of the first one runs. -/
theorem single_flight_of_two :
    crowd.Loads patient.slot 0 ∧ crowd.Uses patient.slot 1 1 ∧
      (∀ t, crowd.Loads patient.slot t → t = 0) ∧ ∀ t l, crowd.Uses patient.slot t l → l = 1 :=
  ⟨crowd_loads, crowd_uses,
    fun t ht => (single_flight crowd_reached patient.slot).1 t 0 ht crowd_loads,
    fun t l ht => (single_flight crowd_reached patient.slot).2 t 1 l 1 ht crowd_uses⟩

end Flight

end Registrar.Cache
