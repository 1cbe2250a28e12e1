import Registrar.Proofs.Client.Forest
import Registrar.Proofs.Client.Requests
import Registrar.Proofs.Envelope
import Registrar.Proofs.Program.Paths

/-!
# What the operations of a client do

A client makes calls only when it sends requests. `Sent` says what it has done when it has sent one:
it has made the call and, depending on what came of it, has left marks and a record. The operations
of a client are its errands. One that honours a contract with its requests honours it.
-/

namespace Registrar

open Exchange (Call)

variable {σ α : Type} {I : Interface}

/-! ## Errors -/

theorem Naming.final_of_subject {n : Naming} {e : ResolutionError} (h : n.subject = .error e) :
    e.Final := by
  have record (h : n.record = .error e) : e.Final := by
    unfold Naming.record at h
    grind [ResolutionError.subject, ResolutionError.Final]
  unfold Naming.subject at h
  split at h
  · exact record h
  · cases h
  · cases hr : n.record with
    | error f =>
      rw [hr] at h
      cases h
      exact record hr
    | ok name =>
      rw [hr] at h
      cases h

theorem Arena.final_of_ofForest {limit : Nat} {roots : List SuppliedReference}
    {e : ResolutionError} (h : ofForest limit roots = .error e) : e.Final := by
  obtain ⟨n, r, -, -, rfl⟩ := of_ofForest_error h
  exact ⟨rfl, rfl⟩

/-! ## Acts -/

/-- What came of waiting for a reply. -/
def Wake.result : Wake (Except Failure α) → Except Failure α
  | .value r => r
  | .cancelled => .error .cancelled

/-- The mark that is due for a reply: a response counts by its status, and an error because the
registry could not be reached as such. -/
def Verb.due (verb : Verb) : Except Failure Response → Option Mark
  | .ok response => some (.request verb (.status response.status))
  | .error (.resolution e) =>
    if e.origin = .transport then some (.request verb .transportError) else none
  | .error _ => none

namespace Act

def isCall : Act σ I → Bool
  | .called _ _ => true
  | .changed _ _ => false

/-- The mark that is due for a request. -/
def due : Act State Exchange.interface → Option Mark
  | .called (.get _) (.value reply) => Verb.get.due reply
  | .called (.post _ _) (.value reply) => Verb.post.due reply
  | _ => none

/-- A request and what came of it; a `post` has a body. -/
def request (url : Text) (w : Wake (Except Failure Response)) :
    Option Json → Act State Exchange.interface
  | none => .called (Call.get url) w
  | some body => .called (Call.post url (Utf8.encode (Json.write Json.spaced body))) w

theorem due_request (url : Text) (w : Wake (Except Failure Response)) (body : Option Json) :
    (request url w body).due = match w with
      | .value reply => (Client.verbOf body).due reply
      | .cancelled => none := by
  cases body <;> cases w <;> rfl

end Act

/-- By how many marks the tally has grown. -/
def gain (x : Mark) : List (Act State I) → Int
  | [] => 0
  | .changed s t :: es => (t.tally.count x - s.tally.count x) + gain x es
  | .called _ _ :: es => gain x es

theorem gain_append (x : Mark) (es es' : List (Act State I)) :
    gain x (es ++ es') = gain x es + gain x es' := by
  induction es with
  | nil => simp [gain]
  | cons e es ih =>
    cases e with
    | changed s t => simp only [List.cons_append, gain, ih, Int.add_assoc]
    | called c w => simpa only [List.cons_append, gain] using ih

namespace Client

open Routine

variable (settings : Settings)

/-! ## Requests -/

/-- Changes after a request that leave the marks which are due for it. -/
structure Marked (a : Act State Exchange.interface) (changes : List (Act State Exchange.interface)) :
    Prop where
  quiet : ∀ b ∈ changes, b.isCall = false
  marks : ∀ verb ending, gain (.request verb ending) changes =
    (a.due.toList.count (.request verb ending) : Int)

/-- `Sent settings r body done es x`: after the acts `done` a request about a resource was sent,
which made them `es` and ended with `x`. -/
inductive Sent (r : Resource) (body : Option Json) (done : List (Act State Exchange.interface)) :
    List (Act State Exchange.interface) → Except Failure Envelope → Prop where
  | unaddressed {e : ForeignError} (h : (direct settings).url r = .error (.foreign e)) :
    Sent r body done done (.error (.foreign e))
  | replied {url : Text} {w : Wake (Except Failure Response)}
    {changes : List (Act State Exchange.interface)} (h : (direct settings).url r = .ok url)
    (marked : Marked (.request url w body) changes) :
    Sent r body done (done ++ .request url w body :: changes) (w.result >>= Envelope.ofResponse)

variable {settings} {At : List (Act State Exchange.interface) → Prop}
  {done : List (Act State Exchange.interface)}

theorem proceeds_exchange (url : Text) (body : Option Json) (ready : At done) :
    ((direct settings).exchange url body).run.Proceeds At
      (fun es r => ∃ w, es = done ++ [.request url w body] ∧ r = w.result) done := by
  cases body with
  | none =>
    refine ⟨ready, fun w => ?_⟩
    rcases w with (f | response) | _
    · exact ⟨.value (.error f), rfl, rfl⟩
    · exact ⟨.value (.ok response), rfl, rfl⟩
    · exact ⟨.cancelled, rfl, rfl⟩
  | some body =>
    refine ⟨ready, fun w => ?_⟩
    rcases w with (f | response) | _
    · exact ⟨.value (.error f), rfl, rfl⟩
    · exact ⟨.value (.ok response), rfl, rfl⟩
    · exact ⟨.cancelled, rfl, rfl⟩

/-- The growth of the tally by one mark. -/
theorem gain_marked (x y : Mark) (s : State) (es : List (Act State I)) :
    gain x (.changed s { s with tally := s.tally.add y } :: es) = [y].count x + gain x es := by
  simp only [gain, Tally.add, List.count_append]
  omega

/-- A record that is left does not matter. -/
theorem Marked.changed {a : Act State Exchange.interface}
    {changes : List (Act State Exchange.interface)} (h : Marked a changes) {s t : State}
    (same : t.tally = s.tally) : Marked a (changes ++ [.changed s t]) where
  quiet b hb := by
    rcases List.mem_append.1 hb with old | new
    · exact h.quiet b old
    · rw [List.mem_singleton.1 new]
      rfl
  marks verb ending := by simpa [gain_append, gain, same] using h.marks verb ending

/-- A request is measured before anything else is done: what came of it counts. -/
theorem proceeds_measured (url : Text) (body : Option Json) (ready : At done) :
    ((direct settings).measured url body).run.Proceeds At
      (fun es r => ∃ w changes, es = done ++ .request url w body :: changes ∧ r = w.result ∧
        Marked (.request url w body) changes) done := by
  unfold measured
  rw [run_attempt_bind]
  refine (proceeds_exchange url body ready).bind fun r es sent => ?_
  obtain ⟨w, rfl, rfl⟩ := sent
  have ends {w : Wake (Except Failure Response)} {marks : List (Act State Exchange.interface)}
      (quiet : ∀ b ∈ marks, b.isCall = false)
      (counts : ∀ verb ending, gain (.request verb ending) marks =
        ((Act.request url w body).due.toList.count (.request verb ending) : Int)) :
      ∃ w' changes, done ++ [.request url w body] ++ marks =
          done ++ .request url w' body :: changes ∧ w.result = w'.result ∧
        Marked (.request url w' body) changes :=
    ⟨w, marks, List.append_assoc .., rfl, quiet, counts⟩
  -- Every end leaves the mark of the duration, and before or after it one more if one is due.
  rcases w with ((e | e | _) | response) | _
  · show Program.Proceeds _ _ (ExceptT.run (if e.origin = .transport then _ else _)) _
    by_cases transport : e.origin = .transport
    · rw [if_pos transport]
      intro s s'
      rw [List.append_assoc _ [_] [_]]
      refine ends (by simp [Act.isCall]) fun verb ending => ?_
      rw [List.singleton_append, gain_marked, gain_marked]
      simp [Act.due_request, Verb.due, transport, gain]
    · rw [if_neg transport]
      intro s
      refine ends (by simp [Act.isCall]) fun verb ending => ?_
      rw [gain_marked]
      simp [Act.due_request, Verb.due, transport, gain]
  · intro s
    refine ends (by simp [Act.isCall]) fun verb ending => ?_
    rw [gain_marked]
    simp [Act.due_request, Verb.due, gain]
  · intro s
    refine ends (by simp [Act.isCall]) fun verb ending => ?_
    rw [gain_marked]
    simp [Act.due_request, Verb.due, gain]
  · intro s s'
    rw [List.append_assoc _ [_] [_]]
    refine ends (by simp [Act.isCall]) fun verb ending => ?_
    rw [List.singleton_append, gain_marked, gain_marked]
    simp [Act.due_request, Verb.due, gain]
  · intro s
    refine ends (by simp [Act.isCall]) fun verb ending => ?_
    rw [gain_marked]
    simp [Act.due_request, gain]

/-- Only a subject that cannot be written into an address leaves a resource without one. -/
theorem unencodable_of_url {r : Resource} {f : Failure} (h : (direct settings).url r = .error f) :
    ∃ u, f = .foreign (.ofUnencodable u) := by
  unfold Client.url at h
  split at h
  · cases h
  · cases h
    exact ⟨_, rfl⟩

/-- A request is sent, or fails because its address cannot be written. -/
theorem proceeds_send (r : Resource) (body : Option Json) (ready : At done) :
    ((direct settings).send r body).run.Proceeds At (Sent settings r body done) done := by
  unfold send
  rw [Routine.run_bind, run_ofExcept]
  cases addressed : (direct settings).url r with
  | error f =>
    obtain ⟨u, rfl⟩ := unencodable_of_url addressed
    exact .unaddressed addressed
  | ok url =>
    show Program.Proceeds _ _ (Program.bind _ _) _
    refine (proceeds_measured url body ready).bind fun x es sent => ?_
    obtain ⟨w, changes, rfl, rfl, marked⟩ := sent
    have replied {changes : List (Act State Exchange.interface)}
        (marked : Marked (.request url w body) changes) :
        Sent settings r body done (done ++ .request url w body :: changes)
          (w.result >>= Envelope.ofResponse) := .replied addressed marked
    rcases result : w.result with f | response
    · rw [result] at replied
      exact replied marked
    have ended {changes : List (Act State Exchange.interface)}
        (marked : Marked (.request url w body) changes) :
        (Routine.ofExcept (I := Exchange.interface) (Envelope.ofResponse response)).run.Proceeds At
          (Sent settings r body done) (done ++ .request url w body :: changes) := by
      rw [result] at replied
      rw [run_ofExcept]
      exact replied marked
    show Program.Proceeds _ _ (ExceptT.run (if response.status ≠ 200 then _ else _)) _
    by_cases failed : response.status ≠ 200
    · rw [if_pos failed]
      intro s
      rw [List.append_assoc, List.cons_append]
      exact ended (marked.changed rfl)
    · rw [if_neg failed]
      exact ended marked

/-- What a reply comes to when `field` is read from its envelope. -/
def reading {α : Type} (field : Envelope → Except ResolutionError α)
    (w : Wake (Except Failure Response)) : Except Failure α := do
  let response ← w.result
  let envelope ← Envelope.ofResponse response
  (field envelope).mapError .resolution

theorem of_reading_ok {α : Type} {field : Envelope → Except ResolutionError α}
    {w : Wake (Except Failure Response)} {a : α} (h : reading field w = .ok a) :
    ∃ response d, w = .value (.ok response) ∧ Envelope.ofResponse response = .ok d ∧
      field d = .ok a := by
  obtain ⟨response, replied, rest⟩ := of_bind_ok h
  obtain ⟨d, read, given⟩ := of_bind_ok rest
  cases w with
  | value r =>
    obtain rfl : r = .ok response := replied
    exact ⟨response, d, rfl, read, of_mapError_ok given⟩
  | cancelled => cases replied

/-- There is no response, or none with an envelope, or the envelope has no such field. -/
theorem of_reading_error {α : Type} {field : Envelope → Except ResolutionError α}
    {w : Wake (Except Failure Response)} {f : Failure} (h : reading field w = .error f) :
    w.result = .error f ∨ ∃ response, w = .value (.ok response) ∧
      (Envelope.ofResponse response = .error f ∨
        ∃ d e, Envelope.ofResponse response = .ok d ∧ field d = .error e ∧ f = .resolution e) := by
  rcases w with (g | response) | _
  · cases h
    exact .inl rfl
  · refine .inr ⟨response, rfl, ?_⟩
    simp only [reading, Wake.result, bind, Except.bind] at h
    cases read : Envelope.ofResponse response with
    | error g =>
      rw [read] at h
      cases h
      exact .inl rfl
    | ok d =>
      simp only [read] at h
      cases given : field d with
      | error e =>
        rw [given] at h
        cases h
        exact .inr ⟨d, e, rfl, given, rfl⟩
      | ok a =>
        rw [given] at h
        cases h
  · cases h
    exact .inl rfl

/-- A request is sent for a field of the envelope in the response. -/
theorem proceeds_field {α : Type} (r : Resource) (body : Option Json)
    (field : Envelope → Except ResolutionError α)
    {End : List (Act State Exchange.interface) → Except Failure α → Prop} (ready : At done)
    (unaddressed : ∀ e, (direct settings).url r = .error (.foreign e) →
      End done (.error (.foreign e)))
    (replied : ∀ url w changes, (direct settings).url r = .ok url →
      Marked (.request url w body) changes →
        End (done ++ .request url w body :: changes) (reading field w)) :
    (do
      let envelope ← (direct settings).send r body
      resolving (field envelope)).run.Proceeds At End done := by
  rw [Routine.run_bind]
  refine (proceeds_send r body ready).bind fun x es sent => ?_
  cases sent with
  | unaddressed address => exact unaddressed _ address
  | @replied url w changes address marked =>
    have ended := replied url w changes address marked
    unfold reading at ended
    cases reply : w.result with
    | error f =>
      rw [reply] at ended
      exact ended
    | ok response =>
      rw [reply] at ended
      show Program.Proceeds _ _ (continuing _ (Envelope.ofResponse response)) _
      cases read : Envelope.ofResponse response with
      | error f =>
        simp only [bind, Except.bind, read] at ended
        exact ended
      | ok d =>
        simp only [bind, Except.bind, read] at ended
        show Program.Proceeds _ _ (resolving (field d)).run _
        cases given : field d with
        | error e =>
          rw [given] at ended
          exact ended
        | ok a =>
          rw [given] at ended
          exact ended

/-! ## Errands -/

/-- The identifier that a schema is asked for by. -/
def requested : Resource → Option Int
  | .schemaById id => some id
  | _ => none

/-- The operations of a client. -/
inductive Errand {I : Interface} (c : Client I) : {α : Type} → Routine I α → Prop where
  | fetchById (id : Int) : Errand c (c.fetchById id)
  | fetchByIdAndType (id : Int) (type : SchemaType) : Errand c (c.fetchByIdAndType id type)
  | fetchBySubject (n : Naming) : Errand c (c.fetchBySubject n)
  | fetchReference (r : RegisteredReference) : Errand c (c.fetchReference r)
  | register (subject : Text) (x : SuppliedSchema) : Errand c (c.register subject x)
  | registerReference (subject : Text) (type : SchemaType) (r : SuppliedReference) :
    Errand c (c.registerReference subject type r)

/-- The requests of a client honour a contract which allows it, when no request has just failed, to
end with an error that no retry cures or with one from outside, and to reword an error. -/
structure Binding (settings : Settings) (C : Contract Exchange.interface) : Prop where
  fetch (r : Resource) : Honours C do
    let envelope ← (direct settings).send r none
    Routine.resolving (envelope.schema (requested r))
  id (subject : Text) (body : Json) : Honours C do
    let envelope ← (direct settings).send (.versions subject) (some body)
    Routine.resolving envelope.id
  version (subject : Text) (body : Json) : Honours C do
    let envelope ← (direct settings).send (.subject subject) (some body)
    Routine.resolving envelope.version
  refuse {es : List (Act State Exchange.interface)} {e : ResolutionError} (final : e.Final)
    (h : C.kept es) : C.failed es (.resolution e)
  foreign {es : List (Act State Exchange.interface)} {e : ForeignError} (h : C.kept es) :
    C.failed es (.foreign e)
  reword {es : List (Act State Exchange.interface)} {e : ResolutionError}
    (h : C.failed es (.resolution e)) : C.failed es (.resolution (referenceError e))

variable {C : Contract Exchange.interface}

theorem Binding.operation (name : String) {α : Type} {x : Routine Exchange.interface α}
    (h : Honours C x) : Honours C (operation name x) :=
  h.logged rfl (rfl : (LevelChoice.level Level.debug).forRecord = .ok Level.debug)

theorem Binding.postReference (h : Binding settings C) (subject : Text) (name : String)
    (type : SchemaType) (text : Text) (references : List RegisteredReference) :
    Honours C ((direct settings).postReference subject name type text references) := by
  refine (h.id subject _).pair_bind fun _ => ?_
  exact (h.version subject _).pair_bind fun version => honours_pure _

theorem Binding.at (h : Binding settings C) (registered : Registered) (i : Nat) :
    Honours C (registered.at i : Routine Exchange.interface _) := by
  unfold Registered.at
  split
  · exact honours_pure _
  · exact honours_throw fun es => h.foreign

theorem Binding.walk (h : Binding settings C) (type : SchemaType) (a : Arena)
    (stops : List Arena.Stop) (registered : Registered) :
    Honours C ((direct settings).walk type a stops registered) := by
  fun_induction (direct settings).walk type a stops registered with
  | case1 registered => exact honours_pure registered
  | case2 registered i rest hi ih => exact ih
  | case3 => exact honours_throw fun es => h.foreign
  | case4 registered i rest hi node ih =>
    refine (honours_mapM fun j _ => h.at registered j).bind fun below => ?_
    exact (h.postReference _ _ _ _ _).bind fun r => ih r
  | case5 => exact honours_throw fun es => h.foreign

theorem Binding.registerForest (h : Binding settings C) (type : SchemaType)
    (roots : List SuppliedReference) :
    Honours C ((direct settings).registerForest type roots) := by
  unfold Client.registerForest
  split
  · exact honours_pure []
  · refine Honours.bind (Honours.rewording ?_ fun es e => h.reword) fun registered => ?_
    · refine (honours_resolving fun e he es => ?_).bind fun arena => h.walk type arena _ _
      exact h.refuse (Arena.final_of_ofForest he)
    · exact honours_mapM fun i _ => h.at registered i

theorem Binding.register (h : Binding settings C) (subject : Text) (x : SuppliedSchema) :
    Honours C ((direct settings).register subject x) := by
  refine Binding.operation _ ((h.registerForest _ _).bind fun references => ?_)
  refine (h.id subject _).pair_bind fun id => ?_
  exact (honours_note _ _ _ _).bind fun _ => honours_pure _

/-- An errand honours the contract that its requests honour. -/
theorem Errand.honours {α : Type} {x : Routine Exchange.interface α} (h : Binding settings C)
    (errand : Errand (direct settings) x) : Honours C x := by
  cases errand with
  | fetchById id => exact Binding.operation _ (h.fetch (.schemaById id))
  | fetchByIdAndType id type =>
    refine Binding.operation _ ?_
    refine (Binding.operation _ (h.fetch (.schemaById id))).bind fun schema => ?_
    split
    · exact (honours_throw fun es => h.refuse ⟨rfl, rfl⟩).bind fun _ => honours_pure schema
    · exact honours_pure schema
  | fetchBySubject n =>
    refine Binding.operation _ ((honours_resolving fun e he es => ?_).bind fun subject => ?_)
    · exact h.refuse (Naming.final_of_subject he)
    · split
      · exact h.register subject _
      · exact h.fetch (.latest subject)
  | fetchReference r => exact Binding.operation _ (h.fetch (.version r.subject r.version))
  | register subject x => exact h.register subject x
  | registerReference subject type r =>
    refine Binding.operation _ ((h.registerForest _ _).bind fun below => ?_)
    exact (h.postReference _ _ _ _ _).rewording fun es e => h.reword

end Client

end Registrar
