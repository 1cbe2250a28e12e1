import Registrar.Proofs.Client.Errands
import Registrar.Proofs.Client.Posting

/-!
# Failures of errands

A transport answers a request, whatever the status and the body, or fails because the registry could
not be reached. The operations of a client go on to another request only when the one before was
answered with what it was sent for: an object of status 200 with the schema, the identifier or the
version. So only the last request can have failed, and a retry may cure the error of an operation
exactly if that request did not reach the registry.
-/

namespace Registrar

open Exchange (Call)

variable {σ : Type} {I : Interface}

namespace Act

/-! ## Requests and what came of them -/

/-- The calls among acts. -/
def calls (es : List (Act σ I)) : List (Act σ I) := es.filter isCall

/-- What came of a request. -/
def reply? : Act State Exchange.interface → Option (Wake (Except Failure Response))
  | .called (.get _) w => some w
  | .called (.post _ _) w => some w
  | _ => none

@[simp]
theorem reply?_request (url : Text) (w : Wake (Except Failure Response)) (body : Option Json) :
    (request url w body).reply? = some w := by
  cases body <;> rfl

/-- A request that did not reach the registry. -/
def Unreached (a : Act State Exchange.interface) : Prop :=
  ∃ message cause, a.reply? = some (.value (.error (.resolution (.transport message cause))))

/-- If it is a request it was answered, did not reach the registry or was cancelled. -/
def Fair (a : Act State Exchange.interface) : Prop :=
  ∀ w, a.reply? = some w →
    (∃ response, w = .value (.ok response)) ∨
    (∃ message cause, w = .value (.error (.resolution (.transport message cause)))) ∨
    w = .cancelled

/-- A request that was answered with what it was sent for. -/
inductive Answered (settings : Settings) : Act State Exchange.interface → Prop where
  | schema {r : Resource} {url : Text} {response : Response} {d : Envelope} {x : RegisteredSchema}
    (address : (Client.direct settings).url r = .ok url)
    (read : Envelope.ofResponse response = .ok d) (field : d.schema (Client.requested r) = .ok x) :
    Answered settings (request url (.value (.ok response)) none)
  | id {subject url : Text} {body : Json} {response : Response} {d : Envelope} {n : Nat}
    (address : (Client.direct settings).url (.versions subject) = .ok url)
    (read : Envelope.ofResponse response = .ok d) (field : d.id = .ok n) :
    Answered settings (request url (.value (.ok response)) (some body))
  | version {subject url : Text} {body : Json} {response : Response} {d : Envelope} {n : Nat}
    (address : (Client.direct settings).url (.subject subject) = .ok url)
    (read : Envelope.ofResponse response = .ok d) (field : d.version = .ok n) :
    Answered settings (request url (.value (.ok response)) (some body))

/-- A request that did not reach the registry got no response. -/
theorem not_unreached_of_ok (url : Text) (response : Response) (body : Option Json) :
    ¬ (request url (.value (.ok response)) body).Unreached := by
  rintro ⟨message, cause, same⟩
  simp at same

variable {settings : Settings}

theorem Answered.reached {a : Act State Exchange.interface} (h : a.Answered settings) :
    ¬ a.Unreached := by
  cases h with
  | schema => exact not_unreached_of_ok _ _ _
  | id => exact not_unreached_of_ok _ _ _
  | version => exact not_unreached_of_ok _ _ _

theorem calls_changed (es : List (Act σ I)) (s t : σ) : calls (es ++ [.changed s t]) = calls es := by
  simp [calls, isCall]

/-- The calls of a request and the changes after it. -/
theorem calls_request {es changes : List (Act State Exchange.interface)}
    (quiet : ∀ b ∈ changes, b.isCall = false) (url : Text) (w : Wake (Except Failure Response))
    (body : Option Json) :
    calls (es ++ request url w body :: changes) = calls es ++ [request url w body] := by
  have call : (request url w body).isCall = true := by cases body <;> rfl
  have none : changes.filter isCall = [] := by simpa [List.filter_eq_nil_iff] using quiet
  simp [calls, call, none]

end Act

namespace Client

open Act Routine

variable (settings : Settings)

/-- What an error tells about the requests that were made. -/
structure Reports (es : List (Act State Exchange.interface)) (e : ResolutionError) : Prop where
  fresh : e.cached = false
  retriable : e.retriable = true ↔ ∃ a, (calls es).getLast? = some a ∧ a.Unreached

/-- While the transport is fair all requests have been answered, and when an operation fails all but
the last one have and the error tells whether that one reached the registry. -/
def answering : Contract Exchange.interface where
  kept es := (∀ a ∈ es, a.Fair) → ∀ a ∈ calls es, a.Answered settings
  failed es f := (∀ a ∈ es, a.Fair) →
    (∀ a ∈ (calls es).dropLast, a.Answered settings) ∧ ∀ e, f = .resolution e → Reports es e
  kept_changed _ h fair := by
    rw [calls_changed]
    exact h fun a ha => fair a (List.mem_append_left _ ha)
  failed_changed {es s t f} _ h fair := by
    obtain ⟨before, tells⟩ := h fun a ha => fair a (List.mem_append_left _ ha)
    rw [calls_changed]
    refine ⟨before, fun e he => ⟨(tells e he).fresh, ?_⟩⟩
    rw [calls_changed]
    exact (tells e he).retriable

variable {settings} {es : List (Act State Exchange.interface)}

/-- A failure after a request is in order if it tells whether the request reached the registry. -/
theorem failed_request {done changes : List (Act State Exchange.interface)} {url : Text}
    {w : Wake (Except Failure Response)} {body : Option Json} {f : Failure}
    (kept : (answering settings).kept done) (quiet : ∀ b ∈ changes, b.isCall = false)
    (tells : (request url w body).Fair → ∀ e, f = .resolution e →
      e.cached = false ∧ (e.retriable = true ↔ (request url w body).Unreached)) :
    (answering settings).failed (done ++ request url w body :: changes) f := by
  intro fair
  have same : calls (done ++ request url w body :: changes) = calls done ++ [request url w body] :=
    calls_request quiet url w body
  refine ⟨?_, fun e he => ?_⟩
  · rw [same, List.dropLast_concat]
    exact kept fun a ha => fair a (List.mem_append_left _ ha)
  · obtain ⟨fresh, retriable⟩ := tells (fair _ (List.mem_append_right _ (.head _))) e he
    refine ⟨fresh, retriable.trans ?_⟩
    rw [same, List.getLast?_concat]
    simp

/-- A request is answered with what it was sent for, or fails. -/
theorem honours_field {α : Type} {r : Resource} {body : Option Json}
    {field : Envelope → Except ResolutionError α}
    (final : ∀ d e, field d = .error e → e.Final)
    (answered : ∀ url response d x, (direct settings).url r = .ok url →
      Envelope.ofResponse response = .ok d → field d = .ok x →
        (request url (.value (.ok response)) body).Answered settings) :
    Honours (answering settings) (do
      let envelope ← (direct settings).send r body
      Routine.resolving (field envelope)) := by
  intro done kept
  refine proceeds_field r body field kept
    (fun e _ fair => ⟨fun a ha => kept fair a (List.dropLast_subset _ ha), fun e he => by cases he⟩)
    fun url w changes address marked => ?_
  cases outcome : reading field w with
  | error f =>
    have last {e : ResolutionError} {response : Response} (final : e.Final) :
        e.cached = false ∧
          (e.retriable = true ↔ (request url (.value (.ok response)) body).Unreached) :=
      ⟨final.fresh, iff_of_false (by simp [final.permanent]) (not_unreached_of_ok _ _ _)⟩
    refine failed_request kept marked.quiet fun fair e he => ?_
    obtain rfl : f = .resolution e := he
    rcases of_reading_error outcome with
      unanswered | ⟨response, rfl, unread | ⟨d, e', read, given, same⟩⟩
    · rcases fair w (reply?_request ..) with ⟨response, rfl⟩ | ⟨message, cause, rfl⟩ | rfl
      · cases unanswered
      · cases unanswered
        exact ⟨rfl, iff_of_true rfl ⟨message, cause, reply?_request ..⟩⟩
      · cases unanswered
    · obtain ⟨g, same, permanent⟩ | ⟨g, other, -⟩ := Envelope.failure_of_ofResponse unread
      · cases same
        exact last permanent
      · cases other
    · cases same
      exact last (final d e given)
  | ok x =>
    obtain ⟨response, d, rfl, read, given⟩ := of_reading_ok outcome
    intro fair a ha
    rw [calls_request marked.quiet] at ha
    rcases List.mem_append.1 ha with old | new
    · exact kept (fun b hb => fair b (List.mem_append_left _ hb)) a old
    · obtain rfl := List.mem_singleton.1 new
      exact answered url response d x address read given

theorem final_of_parse {d : Envelope} {requested : Option Int} {e : ResolutionError}
    (h : d.schema requested = .error e) : e.Final := by
  obtain ⟨message, cause, rfl⟩ := Envelope.parse_of_schema h
  exact ⟨rfl, rfl⟩

/-- The requests of a client answer for their errors. -/
theorem binding_answering (settings : Settings) : Binding settings (answering settings) where
  fetch r := honours_field (fun _ _ => final_of_parse) fun _ _ _ _ => .schema
  id subject body := by
    refine honours_field (fun d e h => ?_) fun _ _ _ _ => .id
    unfold Envelope.id at h
    split at h
    · cases h
    · cases h
      exact ⟨rfl, rfl⟩
  version subject body := by
    refine honours_field (fun d e h => ?_) fun _ _ _ _ => .version
    unfold Envelope.version at h
    split at h
    · cases h
    · cases h
      exact ⟨rfl, rfl⟩
  refuse {es e} final kept fair := by
    refine ⟨fun a ha => kept fair a (List.dropLast_subset _ ha), fun e' he => ?_⟩
    cases he
    refine ⟨final.fresh, ?_⟩
    simp only [final.permanent, Bool.false_eq_true, false_iff, not_exists, not_and]
    exact fun a ha => (kept fair a (List.mem_of_getLast? ha)).reached
  foreign kept fair :=
    ⟨fun a ha => kept fair a (List.dropLast_subset _ ha), fun e he => by cases he⟩
  reword {es e} h fair := by
    obtain ⟨before, tells⟩ := h fair
    refine ⟨before, fun e' he => ?_⟩
    cases he
    exact ⟨rfl, (tells e rfl).retriable⟩

/-- An operation of a client goes on to another request only when all before it have been answered
with what they were sent for, and when it gives a result all have. When it ends with an error, all
but the last have; the error is not one that was kept, and a retry may cure it exactly if there was
a last request and it did not reach the registry. -/
theorem retriable_iff_unreached {α : Type} {x : Routine Exchange.interface α}
    (errand : Errand (direct settings) x) {q : Program State Exchange.interface (Except Failure α)}
    (path : Program.Path x.run es q) (fair : ∀ a ∈ es, a.Fair) :
    (q.Calls → ∀ a ∈ calls es, a.Answered settings) ∧
    (∀ y, q = .done (.ok y) → ∀ a ∈ calls es, a.Answered settings) ∧
    (∀ f, q = .done (.error f) → ∀ a ∈ (calls es).dropLast, a.Answered settings) ∧
    ∀ e, q = .done (.error (.resolution e)) → e.cached = false ∧
      (e.retriable = true ↔ ∃ a, (calls es).getLast? = some a ∧ a.Unreached) ∧
      (calls es = [] → e.retriable = false) := by
  have honours := errand.honours (binding_answering settings)
  obtain ⟨calls', ended⟩ := honours.path (by simp [answering, calls]) path
  refine ⟨fun c => calls' c fair, fun y hy => ended _ hy fair, fun f hf => (ended _ hf fair).1, ?_⟩
  intro e he
  obtain ⟨fresh, retriable⟩ := (ended _ he fair).2 e rfl
  refine ⟨fresh, retriable, fun none => ?_⟩
  rw [← Bool.not_eq_true, retriable, none]
  simp

/-! ### A registry that cannot be reached -/

/-- The first reference of a schema cannot be posted, and a retry may cure that. -/
theorem retriable_of_unreachable :
    ∃ es e, Program.Path ((direct bare).register [] Posting.nested).run es
        (.done (.error (.resolution e))) ∧
      (∀ a ∈ es, a.Fair) ∧ e.retriable = true ∧ e.cached = false ∧
      ∃ a, (calls es).getLast? = some a ∧ a.Unreached := by
  let p := ((direct bare).register [] Posting.nested).run
  let s := State.initial Level.info false
  let e : ResolutionError := referenceError (.transport "unreachable" none)
  have path := p.path_acts Posting.unreachable s ()
  have failed : (p.run Posting.unreachable s ()).1 = .error (.resolution e) := by decide +kernel
  rw [failed] at path
  have fair : ∀ a ∈ p.acts Posting.unreachable s (), a.Fair := by
    intro a ha w hw
    cases a with
    | changed => cases hw
    | called c r =>
      obtain ⟨e', rfl⟩ := Program.reply_of_mem_acts ha
      cases c with
      | get url =>
        cases hw
        exact .inr (.inl ⟨_, _, rfl⟩)
      | post url body =>
        cases hw
        exact .inr (.inl ⟨_, _, rfl⟩)
      | close => cases hw
  obtain ⟨-, -, -, tells⟩ := retriable_iff_unreached (.register [] Posting.nested) path fair
  obtain ⟨fresh, retriable, -⟩ := tells e rfl
  exact ⟨_, e, path, fair, rfl, fresh, retriable.1 rfl⟩

end Client

end Registrar
