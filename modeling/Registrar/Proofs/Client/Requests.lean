import Registrar.Client.Lookup
import Registrar.Proofs.Program.Keeps
import Registrar.Proofs.Program.Yields

/-!
# Requests before a world

A client that hands its calls to the world leaves the cache alone when it sends a request, and what
comes of the request is a function of the world: the journal and the tally do not matter.
-/

namespace Registrar.Client

open Exchange (Call)
open Routine

/-- The client with these settings that hands its calls to the world. -/
def direct (settings : Settings) : Client Exchange.interface := ⟨settings, Exchange.direct⟩

/-- Settings with no base URL and two levels of references. -/
def bare : Settings := ⟨[], none, none, none, false, 2, by decide⟩

/-- The same with one level. -/
def shallow : Settings := { bare with maxDepth := 1, one_le_maxDepth := Nat.le_refl 1 }

/-- A world that gives the same reply to all requests. -/
def steady (reply : Except Failure Response) : Program.World Exchange.interface Unit where
  reply
    | .get _, e => (reply, e)
    | .post _ _, e => (reply, e)
    | .close, e => ((), e)

variable {ε α : Type} (w : Program.World Exchange.interface ε) (settings : Settings)

/-! ## What the world answers -/

/-- The response to a request. -/
def response (url : Text) : Option Json → Worldly ε Response
  | none => do
    let reply ← modifyGet (w.reply (Call.get url))
    MonadExcept.ofExcept reply
  | some body => do
    let reply ← modifyGet (w.reply (Call.post url (Utf8.encode (Json.write Json.spaced body))))
    MonadExcept.ofExcept reply

theorem run_response (url : Text) (e : ε) :
    (response w url none).run e =
      ((w.reply (Call.get url) e).1, (w.reply (Call.get url) e).2) := by
  show (do let reply ← modifyGet _; _ : Worldly ε Response).run e = _
  rw [Worldly.run_bind]
  exact Worldly.run_ofExcept ..

theorem run_response_post (url : Text) (body : Json) (e : ε) :
    (response w url (some body)).run e =
      w.reply (Call.post url (Utf8.encode (Json.write Json.spaced body))) e := by
  show (do let reply ← modifyGet _; _ : Worldly ε Response).run e = _
  rw [Worldly.run_bind]
  exact Worldly.run_ofExcept ..

/-- The envelope in the response to a request about a resource. -/
def answer (r : Resource) (body : Option Json) : Worldly ε Envelope := do
  let url ← MonadExcept.ofExcept ((direct settings).url r)
  let reply ← response w url body
  MonadExcept.ofExcept (Envelope.ofResponse reply)

variable {w}

/-- What is answered was read from a response. -/
theorem exists_response_of_answer {settings : Settings} {r : Resource} {body : Option Json}
    {d : Envelope} {e e' : ε} (h : (answer w settings r body).run e = (.ok d, e')) :
    ∃ response, Envelope.ofResponse response = .ok d := by
  obtain ⟨url, e₁, -, h⟩ := Worldly.of_run_bind h
  obtain ⟨response, e₂, -, read⟩ := Worldly.of_run_bind h
  rw [Worldly.run_ofExcept] at read
  exact ⟨response, congrArg Prod.fst read⟩

theorem yields_operation (name : String) {x : Routine Exchange.interface α} {y : Worldly ε α}
    (h : Yields w x y) : Yields w (operation name x) y :=
  h.logged _ (rfl : (LevelChoice.level Level.debug).forRecord = .ok Level.debug)

theorem of_run_operation {name : String} {x : Routine Exchange.interface α} {s s' : State}
    {e e' : ε} {b : α} (h : (operation name x).run.run w s e = (.ok b, s', e')) :
    ∃ s₁, x.run.run w s e = (.ok b, s₁, e') := by
  obtain ⟨s₁, run, -⟩ := of_run_logged (l := ⟨logger, _, Level.debug, false⟩) rfl rfl h
  exact ⟨s₁, run⟩

theorem yields_exchange (url : Text) (body : Option Json) :
    Yields w ((direct settings).exchange url body) (response w url body) := by
  cases body with
  | none => exact (yields_await _).bind yields_ofExcept
  | some body => exact (yields_await _).bind yields_ofExcept

theorem yields_measured (url : Text) (body : Option Json) :
    Yields w ((direct settings).measured url body) (response w url body) := by
  refine (yields_exchange settings url body).attempt_bind fun r => ?_
  rcases r with (e | e | _) | response
  · dsimp only
    split <;> exact fun _ _ => rfl
  · exact fun _ _ => rfl
  · exact fun _ _ => rfl
  · exact fun _ _ => rfl

theorem yields_send (r : Resource) (body : Option Json) :
    Yields w ((direct settings).send r body) (answer w settings r body) := by
  refine (yields_ofExcept _).bind fun url =>
    (yields_measured settings url body).bind fun reply => ?_
  split
  · exact (yields_ofExcept (Envelope.ofResponse reply)).after_note
  · exact yields_ofExcept (Envelope.ofResponse reply)

theorem yields_resolving (x : Except ResolutionError α) :
    Yields w (resolving x) (MonadExcept.ofExcept (x.mapError .resolution)) := by
  cases x <;> exact fun _ _ => rfl

/-! ## The cache is left alone -/

theorem keeps_send (r : Resource) (body : Option Json) :
    Keeps SameCache ((direct settings).send r body) := by
  have exchanged (url) : Keeps SameCache ((direct settings).exchange url body) := by
    cases body with
    | none => exact (keeps_await _).bind fun _ => keeps_ofExcept _
    | some body => exact (keeps_await _).bind fun _ => keeps_ofExcept _
  have measured (url) : Keeps SameCache ((direct settings).measured url body) := by
    refine (exchanged url).attempt.bind fun r => ?_
    have rest : Keeps SameCache (do
        mark (.duration (verbOf body))
        let response ← Routine.ofExcept r
        mark (.request (verbOf body) (.status response.status))
        return response : Routine Exchange.interface Response) :=
      (keeps_mark _).bind fun _ => (keeps_ofExcept r).bind fun _ =>
        (keeps_mark _).bind fun _ => keeps_pure _
    split
    · split
      · exact (keeps_mark _).bind fun _ => rest
      · exact rest
    · exact rest
  refine (keeps_ofExcept _).bind fun url => (measured url).bind fun reply => ?_
  split
  · exact (keeps_note ..).bind fun _ => keeps_ofExcept _
  · exact keeps_ofExcept _

theorem keeps_operation {I : Interface} (name : String) {x : Routine I α} (h : Keeps SameCache x) :
    Keeps SameCache (operation name x) :=
  h.logged _

/-! ## Fetching -/

variable (w)

/-- The schema in the answer to a request about a resource. -/
def fetched (r : Resource) (requested : Option Int) : Worldly ε RegisteredSchema := do
  let envelope ← answer w settings r none
  MonadExcept.ofExcept ((envelope.schema requested).mapError .resolution)

variable {w}

/-- The schema in a reply. -/
def read (requested : Option Int) (reply : Except Failure Response) :
    Except Failure RegisteredSchema := do
  let envelope ← Envelope.ofResponse (← reply)
  (envelope.schema requested).mapError .resolution

theorem read_of_ofResponse {response : Response} {d : Envelope}
    (h : Envelope.ofResponse response = .ok d) (requested : Option Int) :
    read requested (.ok response) = (d.schema requested).mapError .resolution := by
  show Except.bind (Envelope.ofResponse response) _ = _
  rw [h]
  rfl

theorem run_fetched {r : Resource} {url : Text} (h : (direct settings).url r = .ok url)
    (requested : Option Int) (e : ε) :
    (fetched w settings r requested).run e =
      (read requested (w.reply (Call.get url) e).1, (w.reply (Call.get url) e).2) := by
  unfold fetched answer read
  rw [h, Worldly.run_bind, Worldly.run_bind, Worldly.run_ofExcept]
  dsimp only
  rw [Worldly.run_bind, run_response]
  rcases (w.reply (Call.get url) e).1 with f | r
  · rfl
  · dsimp only
    rw [Worldly.run_ofExcept]
    show _ = (Envelope.ofResponse r >>= _, _)
    cases Envelope.ofResponse r with
    | error f => rfl
    | ok envelope => exact Worldly.run_ofExcept ..

theorem run_fetched_of_error {r : Resource} {f : Failure} (h : (direct settings).url r = .error f)
    (requested : Option Int) (e : ε) :
    (fetched w settings r requested).run e = (.error f, e) := by
  unfold fetched answer
  rw [h]
  rfl

theorem of_fetched {settings : Settings} {r : Resource} {requested : Option Int} {e e' : ε}
    {x : RegisteredSchema} (h : (fetched w settings r requested).run e = (.ok x, e')) :
    ∃ d, (answer w settings r none).run e = (.ok d, e') ∧ d.schema requested = .ok x := by
  obtain ⟨d, e₁, answered, read⟩ := Worldly.of_run_bind h
  rw [Worldly.run_ofExcept] at read
  obtain rfl : e₁ = e' := congrArg Prod.snd read
  exact ⟨d, answered, of_mapError_ok (congrArg Prod.fst read)⟩

theorem run_fetched_ok {settings : Settings} {r : Resource} {requested : Option Int} {e e' : ε}
    {x : RegisteredSchema} {d : Envelope}
    (answered : (answer w settings r none).run e = (.ok d, e'))
    (read : d.schema requested = .ok x) : (fetched w settings r requested).run e = (.ok x, e') := by
  unfold fetched
  rw [Worldly.run_bind, answered]
  dsimp only
  rw [read]
  rfl

theorem yields_fetchById (id : Int) :
    Yields w ((direct settings).fetchById id) (fetched w settings (.schemaById id) (some id)) :=
  yields_operation _ ((yields_send settings _ _).bind fun _ => yields_resolving _)

theorem keeps_fetchById (id : Int) : Keeps SameCache ((direct settings).fetchById id) :=
  keeps_operation _ ((keeps_send settings _ _).bind fun _ => keeps_resolving _)

theorem yields_fetchReference (r : RegisteredReference) :
    Yields w ((direct settings).fetchReference r)
      (fetched w settings (.version r.subject r.version) none) :=
  yields_operation _ ((yields_send settings _ _).bind fun _ => yields_resolving _)

theorem keeps_fetchReference (r : RegisteredReference) :
    Keeps SameCache ((direct settings).fetchReference r) :=
  keeps_operation _ ((keeps_send settings _ _).bind fun _ => keeps_resolving _)

end Registrar.Client
