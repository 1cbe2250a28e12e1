import Registrar.Cache.Loading
import Registrar.Proofs.Program.Equations
import Registrar.Proofs.Program.Keeps
import Registrar.Proofs.Cache.Users
import Registrar.Schedule.Settling

/-!
# Where a lookup stands

A lookup asks the cache for the resolution at a slot and brings a loader for it. `At` lists the
points of its program which it passes and says for each how the lookup stands with the lock of its
slot: it is `away` until it has looked, `holding` the lock while it is inside, and so on. `Stands`
does the same for lookups that wait for something. `Loading` singles out the points at which the
loader itself is under way. A lookup is met there only while it holds the lock, because what is left
of it gives a lock back before it takes one or ends.
-/

namespace Registrar.Cache

variable {I : Interface} {γ : Type}

/-- How a lookup ends. -/
abbrev Outcome := Except Failure RegisteredSchema

/-- The tables of the cache that concern locks are the same. -/
def LocksKept (s t : State) : Prop := SameLocks s.cache t.cache

/-- A slot to look at, and a loader for it. The loader does whatever it likes except for taking and
giving back locks. -/
structure Lookup (I : Interface) where
  slot : Slot
  loader : Loader I
  outside : Routine.Keeps LocksKept loader

namespace Lookup

/-- A program that ends as a lookup does. -/
abbrev Task (I : Interface) := Program State I Outcome

/-- The program of a lookup. -/
def program (k : Lookup I) : Task I := (getOrLoad k.slot k.loader).run

/-! ## The parts of the program -/

def marking (m : Mark) (s : State) : State := { s with tally := s.tally.add m }

def changing (f : Cache → Cache) (s : State) : State := { s with cache := f s.cache }

/-- Ceases to be a user of the lock of a slot, and ends with `r`. -/
def depart (s : Slot) (r : Outcome) : Task I :=
  .update (changing fun c => (c.leave? s).getD c) fun st =>
    .done (if (st.cache.leave? s).isNone then .error (.foreign ⟨.key, s.map.name⟩) else r)

/-- Gives the lock of a slot back, ceases to be a user of it, and ends with `r`. -/
def giveBack (s : Slot) (l : LockId) (r : Outcome) : Task I := .release l fun _ => depart s r

/-- What is left of a lookup inside the lock when its loader has ended with `r`. -/
def wrapUp (s : Slot) (l : LockId) (r : Outcome) : Task I := (record s r).run.bind (giveBack s l)

/-- What is left of a lookup inside the lock. -/
def inside (k : Lookup I) (l : LockId) : Task I :=
  (replayOrLoad k.slot k.loader).run.bind (giveBack k.slot l)

/-- What is left of a lookup that has to take the lock. -/
def take (k : Lookup I) (l : LockId) : Task I :=
  .acquire l fun
    | .value () => k.inside l
    | .cancelled => depart k.slot (.error .cancelled)

/-- What is left of a lookup that found nothing at its slot. -/
def enter (k : Lookup I) : Task I :=
  .update (changing (·.join k.slot)) fun st => k.take (st.cache.lockOf k.slot)

/-- What is left of a lookup that found an entry at its slot. -/
def found (s : Slot) : Entry → Task I
  | .schema x => .update (marking (.lookup s.map .hit)) fun _ => .done (.ok x)
  | .error e => .update (marking (.lookup s.map .errorHit)) fun _ => .done (.error (.resolution e))

theorem after_leave (s : Slot) (r : Outcome) :
    Routine.after (leave s : Routine I Unit) r = depart s r := by
  show Program.update _ _ = _
  congr 1
  funext st
  show Program.bind (ExceptT.run (if _ then _ else _)) _ = _
  split
  · rfl
  · exact Routine.run_ofExcept r

/-- What a lookup does that goes on with `f` after it has looked at its slot. -/
theorem replay_bind {α : Type} (s : Slot) (f : Option RegisteredSchema → Routine I α) :
    (replay s >>= f).run = .update id fun st =>
      match st.cache.find? s with
      | none => (f none).run
      | some (.schema x) => .update (marking (.lookup s.map .hit)) fun _ => (f (some x)).run
      | some (.error e) =>
        .update (marking (.lookup s.map .errorHit)) fun _ => .done (.error (.resolution e)) := by
  show Program.update _ _ = _
  congr 1
  funext st
  simp only [Program.bind, ExceptT.bindCont]
  rcases st.cache.find? s with _ | x | e
  · rfl
  · rfl
  · rfl

theorem program_eq (k : Lookup I) :
    k.program = .update id fun st =>
      match st.cache.find? k.slot with
      | none => k.enter
      | some e => found k.slot e := by
  unfold program getOrLoad
  rw [replay_bind]
  congr 1
  funext st
  rcases st.cache.find? k.slot with _ | x | e
  · show Program.update _ _ = Program.update _ _
    congr 1
    funext st'
    show (Routine.ensuring (Routine.holding _ _) (leave k.slot)).run = _
    rw [Routine.run_ensuring, Routine.run_holding]
    show Program.acquire _ _ = Program.acquire _ _
    congr 1
    funext w
    cases w with
    | value u =>
      show Program.bind (Program.bind _ _) _ = Program.bind _ _
      rw [Program.bind_assoc]
      congr 1
      funext r
      show Program.release _ _ = Program.release _ _
      congr 1
      funext u
      exact after_leave k.slot r
    | cancelled => exact after_leave k.slot _
  · rfl
  · rfl

theorem inside_eq (k : Lookup I) (l : LockId) :
    k.inside l = .update id fun st =>
      match st.cache.find? k.slot with
      | none => .update (marking (.lookup k.slot.map .miss)) fun _ =>
          k.loader.run.bind (wrapUp k.slot l)
      | some e => (found k.slot e).bind (giveBack k.slot l) := by
  unfold inside replayOrLoad
  rw [replay_bind]
  simp only [Program.bind]
  congr 1
  funext st
  rcases st.cache.find? k.slot with _ | x | e
  · show Program.update _ _ = Program.update _ _
    congr 1
    funext st'
    show Program.bind (ExceptT.run (Routine.attempt k.loader >>= record k.slot)) _ = _
    rw [Routine.run_attempt_bind, Program.bind_assoc]
    rfl
  · rfl
  · rfl

/-! ## Inside the lock -/

theorem LocksKept.refl (s : State) : LocksKept s s := ⟨rfl, rfl, rfl⟩

theorem locksKept_of_sameCache (s t : State) (h : Routine.SameCache s t) : LocksKept s t := by
  rw [LocksKept, h]
  exact ⟨rfl, rfl, rfl⟩

theorem keeps_change {f : Cache → Cache} (h : ∀ c, SameLocks c (f c)) :
    Routine.Keeps LocksKept (change f : Routine I Cache) :=
  (Routine.keeps_update fun s => h s.cache).bind fun _ => Routine.keeps_pure _

theorem keeps_storing (s : Slot) (e : Entry) :
    Routine.Keeps LocksKept (change (·.store s e) : Routine I Cache) :=
  keeps_change fun _ => ⟨rfl, rfl, rfl⟩

theorem keeps_storeError (s : Slot) (e : ResolutionError) :
    Routine.Keeps LocksKept (storeError s e : Routine I Unit) := by
  refine ((Routine.keeps_mark _).mono locksKept_of_sameCache).bind fun _ => ?_
  refine (Routine.keeps_current LocksKept.refl).bind fun st => ?_
  split
  · refine (keeps_storing s _).bind fun _ => ?_
    exact (Routine.keeps_note ..).mono locksKept_of_sameCache
  · exact (Routine.keeps_note ..).mono locksKept_of_sameCache

theorem keeps_record (s : Slot) (r : Outcome) :
    Routine.Keeps LocksKept (record s r : Routine I RegisteredSchema) := by
  rcases r with (e | e | _) | x
  · exact (keeps_storeError s e).bind fun _ => Routine.keeps_throw _
  · exact Routine.keeps_throw _
  · exact Routine.keeps_throw _
  · exact (keeps_storing s _).bind fun _ => Routine.keeps_pure x

theorem keeps_replay (s : Slot) :
    Routine.Keeps LocksKept (replay s : Routine I (Option RegisteredSchema)) := by
  refine (Routine.keeps_current LocksKept.refl).bind fun st => ?_
  split
  · exact Routine.keeps_pure _
  · exact ((Routine.keeps_mark _).mono locksKept_of_sameCache).bind fun _ => Routine.keeps_pure _
  · exact ((Routine.keeps_mark _).mono locksKept_of_sameCache).bind fun _ => Routine.keeps_throw _

/-- What a lookup does inside the lock concerns no lock. -/
theorem keeps_replayOrLoad (k : Lookup I) :
    Routine.Keeps LocksKept (replayOrLoad k.slot k.loader) := by
  refine (keeps_replay k.slot).bind fun x => ?_
  cases x with
  | some x => exact Routine.keeps_pure x
  | none =>
    refine ((Routine.keeps_mark _).mono locksKept_of_sameCache).bind fun _ => ?_
    exact k.outside.attempt.bind fun r => keeps_record k.slot r

/-! ## Points of the program -/

/-- `At k pos p`: the lookup is at `p` when it stands at `pos` with the lock of its slot. -/
inductive At (k : Lookup I) : Position → Task I → Prop where
  | called : At k .away k.program
  | found (e : Entry) : At k .away (found k.slot e)
  | ended (r : Outcome) : At k .away (.done r)
  | entering : At k .away k.enter
  | taking (l : LockId) : At k (.joined l) (k.take l)
  | working (l : LockId) {p : Task I} (h : p.Keeps LocksKept) :
    At k (.holding l) (p.bind (giveBack k.slot l))
  | departing (r : Outcome) : At k .present (depart k.slot r)

/-- `Stands k pos x`: a lookup whose task stands at `x` stands at `pos` with its slot's lock. -/
inductive Stands (k : Lookup I) : Position → Standing State I γ Outcome → Prop where
  | ready {pos : Position} {p : Task I} (h : At k pos p) : Stands k pos (.ready p)
  | awake {pos : Position} (lock : Option LockId) {p q : Task I} (hp : At k pos p)
    (hq : At k pos (System.yielding lock q)) : Stands k pos (.awake lock p q)
  | held {pos : Position} (g : γ) {p q : Task I} (hp : At k pos p) (hq : At k pos q) :
    Stands k pos (.held g p q)
  | waiting (l : LockId) :
    Stands k (.waiting l) (.waiting l (k.inside l) (depart k.slot (.error .cancelled)))
  | ended (r : Outcome) : Stands k .away (.ended r)

namespace At

variable {k : Lookup I} {pos : Position}

theorem inside (k : Lookup I) (l : LockId) : At k (.holding l) (k.inside l) :=
  .working l (keeps_replayOrLoad k)

/-- Who is cancelled when it already has the lock has to give it back. -/
theorem revoked (k : Lookup I) (l : LockId) :
    At k (.holding l) (.release l fun _ => depart k.slot (.error .cancelled)) :=
  At.working (p := .done (.error .cancelled)) l trivial

theorem of_ask {c : I.Call} {next : I.Reply c → Task I} (h : At k pos (.ask c next))
    (r : I.Reply c) : At k pos (next r) := by
  generalize hp : Program.ask c next = p at h
  cases h with
  | called => rw [program_eq] at hp; cases hp
  | found e => cases e <;> cases hp
  | @working l q hq => cases q <;> cases hp; exact .working l (hq r)
  | _ => cases hp

theorem of_await {c : I.Call} {next : Wake (I.Reply c) → Task I} (h : At k pos (.await c next))
    (w : Wake (I.Reply c)) : At k pos (next w) := by
  generalize hp : Program.await c next = p at h
  cases h with
  | called => rw [program_eq] at hp; cases hp
  | found e => cases e <;> cases hp
  | @working l q hq => cases q <;> cases hp; exact .working l (hq w)
  | _ => cases hp

/-- A lookup takes no lock but the one it has joined. -/
theorem of_acquire {l : LockId} {next : Wake Unit → Task I} (h : At k pos (.acquire l next)) :
    pos = .joined l ∧ next (.value ()) = k.inside l ∧
      next .cancelled = depart k.slot (.error .cancelled) := by
  generalize hp : Program.acquire l next = p at h
  cases h with
  | called => rw [program_eq] at hp; cases hp
  | found e => cases e <;> cases hp
  | taking => cases hp; exact ⟨rfl, rfl, rfl⟩
  | @working m q hq =>
    cases q <;> cases hp
    exact hq.elim
  | _ => cases hp

/-- A lookup gives no lock back but the one it holds, and leaves then. -/
theorem of_release {l : LockId} {next : Unit → Task I} (h : At k pos (.release l next)) :
    pos = .holding l ∧ At k .present (next ()) := by
  generalize hp : Program.release l next = p at h
  cases h with
  | called => rw [program_eq] at hp; cases hp
  | found e => cases e <;> cases hp
  | @working m q hq =>
    cases q <;> cases hp
    · exact ⟨rfl, .departing _⟩
    · exact hq.elim
  | _ => cases hp

/-- A lookup that ends is no user of a lock. -/
theorem of_done {r : Outcome} (h : At k pos (.done r)) : pos = .away := by
  generalize hp : Program.done r = p at h
  cases h with
  | called => rfl
  | found e => rfl
  | ended => rfl
  | entering => rfl
  | @working l q hq => cases q <;> cases hp
  | _ => cases hp

/-- A change of the state keeps the books, and the lookup goes on from a point of its program. -/
theorem of_update {f : State → State} {next : State → Task I} (h : At k pos (.update f next))
    {seats : List Seat} {t : TaskId} {st : State} {taken : Assoc LockId TaskId}
    (hb : Booked seats st.cache taken) (ht : seats[t]? = some ⟨k.slot, pos⟩) :
    ∃ pos', Booked (seats.set t ⟨k.slot, pos'⟩) (f st).cache taken ∧ At k pos' (next st) := by
  have stay := fun {d} => hb.stay (d := d) ht
  generalize hp : Program.update f next = p at h
  cases h with
  | called =>
    rw [program_eq] at hp
    cases hp
    refine ⟨.away, stay ⟨rfl, rfl, rfl⟩, ?_⟩
    dsimp only
    split
    · exact .entering
    · exact .found _
  | found e =>
    refine ⟨.away, stay ?_, ?_⟩
    · cases e <;> cases hp <;> exact ⟨rfl, rfl, rfl⟩
    · cases e <;> cases hp <;> exact .ended _
  | entering =>
    cases hp
    exact ⟨_, hb.join ht, .taking _⟩
  | departing r =>
    cases hp
    obtain ⟨d, hd, booked⟩ := hb.leave ht
    refine ⟨.away, ?_, .ended _⟩
    simpa [changing, hd] using booked
  | @working l q hq =>
    cases q <;> cases hp
    exact ⟨.holding l, stay (hq.1 st), .working l (hq.2 st)⟩
  | _ => cases hp

end At

/-! ## Points at which the loader is under way -/

/-- A lookup whose loader has been started and has not been wrapped up. -/
inductive Loading (k : Lookup I) : Standing State I γ Outcome → Prop where
  | ready (l : LockId) {q : Task I} (h : Relation.ReflTransGen Program.Part q k.loader.run) :
    Loading k (.ready (q.bind (wrapUp k.slot l)))
  | awake (l : LockId) {q : Task I} (h : Relation.ReflTransGen Program.Part q k.loader.run)
    (lock : Option LockId) (r : Task I) :
    Loading k (.awake lock (q.bind (wrapUp k.slot l)) r)
  | held (l : LockId) {q : Task I} (h : Relation.ReflTransGen Program.Part q k.loader.run) (g : γ)
    (r : Task I) : Loading k (.held g (q.bind (wrapUp k.slot l)) r)

/-- Whatever happens, the program gives a lock back before it takes one or ends. -/
def Owes : Task I → Prop
  | .done _ => False
  | .update _ next => ∀ s, Owes (next s)
  | .ask _ next => ∀ r, Owes (next r)
  | .await _ next => ∀ w, Owes (next w)
  | .acquire _ _ => False
  | .release _ _ => True

theorem owes_bind {α : Type} {R : State → State → Prop} {p : Program State I α}
    {f : α → Task I} (h : p.Keeps R) (hf : ∀ a, Owes (f a)) : Owes (p.bind f) := by
  induction p with
  | done a => exact hf a
  | update g next ih => exact fun s => ih s (h.2 s)
  | ask c next ih => exact fun r => ih r (h r)
  | await c next ih => exact fun w => ih w (h w)
  | acquire l next ih => exact h.elim
  | release l next ih => exact h.elim

/-- What is left of a lookup inside the loader owes a lock. -/
theorem owes_of_loader (k : Lookup I) (l : LockId) {q : Task I}
    (h : Relation.ReflTransGen Program.Part q k.loader.run) :
    Owes (q.bind (wrapUp k.slot l)) := by
  refine owes_bind (k.outside.of_parts h) fun r => ?_
  exact owes_bind (keeps_record k.slot r) fun _ => trivial

/-- Who owes a lock holds it. -/
theorem At.holding_of_owes {k : Lookup I} {pos : Position} {p : Task I} (h : At k pos p)
    (owes : Owes p) : ∃ l, pos = .holding l := by
  let blank : State := .initial Level.info false
  cases h with
  | called =>
    rw [program_eq] at owes
    exact (owes blank blank).elim
  | found e => cases e <;> exact (owes blank).elim
  | ended => exact owes.elim
  | entering => exact (owes blank).elim
  | taking => exact owes.elim
  | working l => exact ⟨l, rfl⟩
  | departing => exact (owes blank).elim

theorem Stands.holding_of_loading {k : Lookup I} {pos : Position}
    {x : Standing State I γ Outcome} (h : Stands k pos x) (loading : Loading k x) :
    ∃ l, pos = .holding l := by
  cases loading with
  | ready l hq => cases h with | ready hp => exact hp.holding_of_owes (owes_of_loader k l hq)
  | awake l hq => cases h with | awake _ hp _ => exact hp.holding_of_owes (owes_of_loader k l hq)
  | held l hq => cases h with | held _ hp _ => exact hp.holding_of_owes (owes_of_loader k l hq)

/-- The loader of a lookup starts at once when nothing is kept at the slot and its lock is free. -/
theorem turn_program {ε : Type} (env : Environment I ε γ) (t : TaskId) (k : Lookup I)
    (s : System State I γ Outcome) (e : ε) (missing : s.state.cache.find? k.slot = none)
    (free : Assoc.get? (s.state.cache.lockOf k.slot) s.locks = none) :
    s.turn env t k.program e =
      System.turn env t (k.loader.run.bind (wrapUp k.slot (s.state.cache.lockOf k.slot)))
        { s with
          state := marking (.lookup k.slot.map .miss) (changing (·.join k.slot) s.state)
          locks := Assoc.put (s.state.cache.lockOf k.slot) t s.locks } e := by
  have kept : (s.state.cache.join k.slot).find? k.slot = none := missing
  rw [program_eq]
  simp only [System.turn, id, missing, Lookup.enter, Lookup.take, changing, free,
    Option.isNone_none, if_true]
  rw [inside_eq]
  simp only [System.turn, id, kept]

end Lookup

end Registrar.Cache
