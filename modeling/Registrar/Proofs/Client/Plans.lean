import Registrar.Proofs.Client.Addresses
import Registrar.Proofs.Client.Failures
import Registrar.Proofs.Client.Registering

/-!
# What a registration posts

A registration has a plan of what it posts. For each reference, after those below it, a document is
posted to the versions of its subject for an identifier and to its subject for a version; the
schema comes last. Requests follow the plan until one does not come to what it was posted for, and
that one is the last. If it was for a reference, the error with which it failed is the cause of the
error of the registration.
-/

namespace Registrar.Client

open Exchange (Call)
open Act Routine

variable {α β : Type}

/-! ## Plans -/

/-- What a document is posted for. -/
inductive Aim where
  | id
  | version
  deriving DecidableEq, Repr

/-- A document to post: about which subject, and what for. -/
structure Duty where
  subject : Text
  aim : Aim
  deriving DecidableEq, Repr

namespace Duty

/-- Where the document is posted. -/
def resource : Duty → Resource
  | ⟨s, .id⟩ => .versions s
  | ⟨s, .version⟩ => .subject s

/-- What the document is posted for. -/
def field : Duty → Envelope → Except ResolutionError Nat
  | ⟨_, .id⟩ => Envelope.id
  | ⟨_, .version⟩ => Envelope.version

/-- What a request comes to that posts the document. -/
def outcome (d : Duty) (w : Wake (Except Failure Response)) : Except Failure Nat := do
  let response ← w.result
  let envelope ← Envelope.ofResponse response
  (d.field envelope).mapError .resolution

/-- A reference is posted twice. -/
def ofReference (subject : Text) : List Duty := [⟨subject, .id⟩, ⟨subject, .version⟩]

mutual

/-- The plan for a tree, from the leaves to the root. -/
def ofTree : SuppliedReference → List Duty
  | .mk _ s _ rs => ofForest rs ++ ofReference (.ofString s)

/-- The plan for a forest, from left to right. -/
def ofForest : List SuppliedReference → List Duty
  | [] => []
  | r :: rs => ofTree r ++ ofForest rs

end

end Duty

namespace Duty

mutual

theorem exists_string_of_mem_ofTree {d : Duty} : (r : SuppliedReference) → d ∈ ofTree r →
    ∃ s : String, d.subject = .ofString s
  | .mk _ s _ rs, h => by
    rw [ofTree] at h
    rcases List.mem_append.1 h with h | h
    · exact exists_string_of_mem_ofForest rs h
    · refine ⟨s, ?_⟩
      simp only [ofReference, List.mem_cons, List.not_mem_nil, or_false] at h
      rcases h with rfl | rfl <;> rfl

/-- The subjects of references are ordinary text. -/
theorem exists_string_of_mem_ofForest {d : Duty} : (rs : List SuppliedReference) →
    d ∈ ofForest rs → ∃ s : String, d.subject = .ofString s
  | [], h => by
    rw [ofForest] at h
    cases h
  | r :: rs, h => by
    rw [ofForest] at h
    rcases List.mem_append.1 h with h | h
    · exact exists_string_of_mem_ofTree r h
    · exact exists_string_of_mem_ofForest rs h

end

end Duty

/-- `Follows settings plan cs f`: the requests `cs` post what is planned, in this order. Without a
failure they post all of it and come to what it is posted for. With the failure `f` they do so up to
the last request, which fails with `f`, unless `f` is that the next request has no address. -/
inductive Follows (settings : Settings) :
    List Duty → List (Act State Exchange.interface) → Option Failure → Prop where
  | done : Follows settings [] [] none
  | posted {d : Duty} {plan : List Duty} {cs : List (Act State Exchange.interface)}
    {f : Option Failure} {url : Text} {w : Wake (Except Failure Response)} {body : Json} {n : Nat}
    (address : (direct settings).url d.resource = .ok url) (outcome : d.outcome w = .ok n)
    (rest : Follows settings plan cs f) :
    Follows settings (d :: plan) (request url w (some body) :: cs) f
  | failed {d : Duty} {plan : List Duty} {url : Text} {w : Wake (Except Failure Response)}
    {body : Json} {f : Failure} (address : (direct settings).url d.resource = .ok url)
    (outcome : d.outcome w = .error f) :
    Follows settings (d :: plan) [request url w (some body)] (some f)
  | unaddressed {d : Duty} {plan : List Duty} {u : Text.Unencodable}
    (address : (direct settings).url d.resource = .error (.foreign (.ofUnencodable u))) :
    Follows settings (d :: plan) [] (some (.foreign (.ofUnencodable u)))

variable {settings : Settings} {plan plan' : List Duty}
  {cs cs' es : List (Act State Exchange.interface)} {f : Failure} {o : Option Failure}

theorem Follows.append (h : Follows settings plan cs none) (h' : Follows settings plan' cs' o) :
    Follows settings (plan ++ plan') (cs ++ cs') o := by
  generalize ended : none = o' at h
  induction h with
  | done => exact h'
  | posted address outcome _ ih => exact .posted address outcome (ih ended)
  | failed => cases ended
  | unaddressed => cases ended

/-- What is planned after a failure is not posted. -/
theorem Follows.stop (h : Follows settings plan cs (some f)) (plan' : List Duty) :
    Follows settings (plan ++ plan') cs (some f) := by
  generalize ended : some f = o at h ⊢
  induction h with
  | done => cases ended
  | posted address outcome _ ih => exact .posted address outcome (ih ended)
  | failed address outcome => exact .failed address outcome
  | unaddressed address => exact .unaddressed address

/-! ## Routines that follow a plan -/

/-- The failure with which something ended. -/
def failure? : Except Failure α → Option Failure
  | .ok _ => none
  | .error f => some f

/-- After the acts `done` the acts `es` follow the plan, and what ended with `r` failed with them. -/
def Posted (settings : Settings) (plan : List Duty) (done es : List (Act State Exchange.interface))
    (r : Except Failure α) : Prop :=
  ∃ cs, calls es = calls done ++ cs ∧ Follows settings plan cs (failure? r)

theorem Posted.append {done es' : List (Act State Exchange.interface)} {a : α}
    {r : Except Failure β} (h : Posted settings plan done es (.ok a))
    (h' : Posted settings plan' es es' r) :
    Posted settings (plan ++ plan') done es' r := by
  obtain ⟨cs, same, follows⟩ := h
  obtain ⟨cs', same', follows'⟩ := h'
  exact ⟨cs ++ cs', by rw [same', same, List.append_assoc], follows.append follows'⟩

theorem Posted.stop {done : List (Act State Exchange.interface)}
    (h : Posted settings plan done es (.error f : Except Failure α)) (plan' : List Duty) :
    Posted settings (plan ++ plan') done es (.error f : Except Failure β) := by
  obtain ⟨cs, same, follows⟩ := h
  exact ⟨cs, same, follows.stop plan'⟩

/-- Changes of the state are no requests. -/
theorem Posted.changed {done : List (Act State Exchange.interface)} {r : Except Failure α}
    (h : Posted settings plan done es r) (s t : State) :
    Posted settings plan done (es ++ [.changed s t]) r := by
  obtain ⟨cs, same, follows⟩ := h
  exact ⟨cs, by rw [calls_changed, same], follows⟩

/-- The routine makes the requests that post what is planned, and no others. -/
def Posts (settings : Settings) (plan : List Duty) (x : Routine Exchange.interface α) : Prop :=
  ∀ done, x.run.Proceeds (fun _ => True) (Posted settings plan done) done

theorem posts_pure (a : α) : Posts settings [] (pure a) :=
  fun _ => ⟨[], (List.append_nil _).symm, .done⟩

theorem Posts.bind {x : Routine Exchange.interface α} {k : α → Routine Exchange.interface β}
    (h : Posts settings plan x) (hk : ∀ a, Posts settings plan' (k a)) :
    Posts settings (plan ++ plan') (x >>= k) := by
  intro done
  rw [Routine.run_bind]
  refine (h done).bind fun r es' first => ?_
  cases r with
  | error f => exact first.stop plan'
  | ok a => exact (hk a es').imp fun r es second => first.append second

theorem Posts.bind_pure {x : Routine Exchange.interface α} (h : Posts settings plan x)
    (k : α → β) : Posts settings plan (do return k (← x)) := by
  simpa using h.bind fun a => posts_pure (k a)

/-- Two parts of a routine that follow a plan together may come before a third one. -/
theorem Posts.pair_bind {γ : Type} {x : Routine Exchange.interface α}
    {k : α → Routine Exchange.interface β} {l : β → Routine Exchange.interface γ}
    (h : Posts settings plan (x >>= k)) (hl : ∀ b, Posts settings plan' (l b)) :
    Posts settings (plan ++ plan') (x >>= fun a => k a >>= l) := by
  rw [← bind_assoc]
  exact h.bind hl

/-- Sending a document and reading what it was sent for. -/
theorem posts_duty (d : Duty) (body : Json) :
    Posts settings [d] (do
      let envelope ← (direct settings).send d.resource (some body)
      resolving (d.field envelope)) := by
  refine fun done => proceeds_field _ _ _ trivial (fun e address => ?_)
    fun url w changes address marked => ?_
  · obtain ⟨u, unencodable⟩ := unencodable_of_url address
    cases unencodable
    exact ⟨[], (List.append_nil _).symm, .unaddressed address⟩
  · -- Whatever came of it, the request is the only call.
    refine ⟨[request url w (some body)], calls_request marked.quiet .., ?_⟩
    cases outcome : reading d.field w with
    | ok n => exact .posted address outcome .done
    | error f => exact .failed address outcome

/-- A reference is posted when those below it are registered. -/
theorem posts_postReference (subject : Text) (name : String) (type : SchemaType) (text : Text)
    (references : List RegisteredReference) :
    Posts settings (Duty.ofReference subject)
      ((direct settings).postReference subject name type text references) := by
  refine (posts_duty ⟨subject, .id⟩ _).pair_bind fun _ => ?_
  exact (posts_duty ⟨subject, .version⟩ _).pair_bind fun version => posts_pure _

mutual

theorem posts_tree (type : SchemaType) : (r : SuppliedReference) →
    Posts settings (Duty.ofTree r) ((direct settings).postTree type r)
  | .mk name subject text below => by
    rw [postTree, Duty.ofTree]
    exact (posts_forest type below).bind fun children => posts_postReference _ name type text _

theorem posts_forest (type : SchemaType) : (rs : List SuppliedReference) →
    Posts settings (Duty.ofForest rs) ((direct settings).postTrees type rs)
  | [] => by
    rw [postTrees, Duty.ofForest]
    exact posts_pure []
  | r :: rs => by
    rw [postTrees, Duty.ofForest]
    exact (posts_tree type r).bind fun first => (posts_forest type rs).bind_pure (first :: ·)

end

theorem posts_note (logger : Text) (level : Level) (message : Text) (fields : Fields) :
    Posts settings [] (Routine.note logger level message fields) :=
  fun _ _ => ⟨[], by rw [calls_changed, List.append_nil], .done⟩

/-- The schema is posted when its references are registered. -/
theorem posts_posting (subject : Text) (x : SuppliedSchema)
    (references : List RegisteredReference) :
    Posts settings [⟨subject, .id⟩] ((direct settings).posting subject x references) := by
  refine (posts_duty ⟨subject, .id⟩ _).pair_bind fun id => ?_
  exact Posts.bind (posts_note _ _ _ _) fun _ => posts_pure _

/-! ## How a plan fails -/

/-- How a plan fails: with the error of a single request, because a body is nested too deeply,
because a subject cannot be written into an address or because it is cancelled. -/
inductive Breaks (plan : List Duty) : Failure → Prop where
  | raw {e : ResolutionError} (h : e.Raw) : Breaks plan (.resolution e)
  | nesting (message : Text) : Breaks plan (.foreign ⟨.nesting, message⟩)
  | unencodable {d : Duty} (hd : d ∈ plan) {u : Text.Unencodable}
    (h : Percent.encode d.subject = .error u) : Breaks plan (.foreign (.ofUnencodable u))
  | cancelled : Breaks plan .cancelled

theorem Breaks.mono (h : Breaks plan f) (sub : plan ⊆ plan') : Breaks plan' f := by
  cases h with
  | raw raw => exact .raw raw
  | nesting message => exact .nesting message
  | unencodable hd h => exact .unencodable (sub hd) h
  | cancelled => exact .cancelled

/-- What is wrong with the address of a document is wrong with its subject. -/
theorem Duty.encode_of_url {d : Duty} (h : (direct settings).url d.resource = .error f) :
    ∃ u, Percent.encode d.subject = .error u ∧ f = .foreign (.ofUnencodable u) := by
  obtain ⟨subject, id | version⟩ := d
  all_goals
    simp only [Client.url, resource, Resource.path, Resource.subjectPath] at h
    cases encoded : Percent.encode subject with
    | ok t =>
      rw [encoded] at h
      cases h
    | error u =>
      rw [encoded] at h
      cases h
      exact ⟨u, rfl, rfl⟩

theorem Duty.breaks_of_outcome {d : Duty} {url : Text} {w : Wake (Except Failure Response)}
    {body : Json} (fair : (request url w (some body)).Fair) (failed : d.outcome w = .error f) :
    Breaks plan f := by
  rcases of_reading_error failed with
    unanswered | ⟨response, rfl, unread | ⟨envelope, e, -, given, rfl⟩⟩
  · rcases fair w (reply?_request ..) with ⟨response, rfl⟩ | ⟨message, cause, rfl⟩ | rfl
    · cases unanswered
    · cases unanswered
      exact .raw (.transport ..)
    · cases unanswered
      exact .cancelled
  · rcases Envelope.failure_of_response unread with ⟨e, rfl, raw, -⟩ | ⟨message, rfl, -⟩
    · exact .raw raw
    · exact .nesting message
  · obtain ⟨subject, id | version⟩ := d
    · exact .raw (Envelope.raw_of_id given)
    · exact .raw (Envelope.raw_of_version given)

theorem Follows.breaks (fair : ∀ a ∈ cs, a.Fair) (h : Follows settings plan cs (some f)) :
    Breaks plan f := by
  generalize ended : some f = o at h
  induction h with
  | done => cases ended
  | posted _ _ _ ih =>
    exact (ih (fun a ha => fair a (.tail _ ha)) ended).mono (List.subset_cons_self ..)
  | failed _ outcome =>
    cases ended
    exact Duty.breaks_of_outcome (fair _ (.head _)) outcome
  | unaddressed address =>
    cases ended
    obtain ⟨u, unencodable, same⟩ := Duty.encode_of_url address
    rw [same]
    exact .unencodable (.head _) unencodable

/-- References have addresses, so only a body that is nested too deeply is an error from outside. -/
theorem Breaks.nesting_of_foreign {rs : List SuppliedReference} {e : ForeignError}
    (h : Breaks (Duty.ofForest rs) (.foreign e)) : e.kind = .nesting := by
  cases h with
  | nesting => rfl
  | unencodable hd unencodable =>
    obtain ⟨s, ordinary⟩ := Duty.exists_string_of_mem_ofForest rs hd
    obtain ⟨t, encoded⟩ := Percent.encode_ofString s
    rw [ordinary, encoded] at unencodable
    cases unencodable

/-- A subject of which a reference is registered need not have an address. -/
theorem Breaks.kind_of_foreign {rs : List SuppliedReference} {subject : Text} {e : ForeignError}
    (h : Breaks (Duty.ofForest rs ++ Duty.ofReference subject) (.foreign e)) :
    e.kind = .nesting ∨ ∃ u, Percent.encode subject = .error u := by
  cases h with
  | nesting => exact .inl rfl
  | unencodable hd unencodable =>
    rcases List.mem_append.1 hd with hd | hd
    · exact .inl (nesting_of_foreign (.unencodable hd unencodable))
    · simp only [Duty.ofReference, List.mem_cons, List.not_mem_nil, or_false] at hd
      rcases hd with rfl | rfl <;> exact .inr ⟨_, unencodable⟩

/-! ## Registrations -/

/-- The references of a registration are posted, and what fails with them is reworded. -/
theorem proceeds_registerForest (type : SchemaType) {roots : List SuppliedReference}
    (fits : SuppliedReference.heightAll roots ≤ settings.maxDepth)
    (done : List (Act State Exchange.interface)) :
    ((direct settings).registerForest type roots).run.Proceeds (fun _ => True)
      (fun es r => ∃ r', Posted settings (Duty.ofForest roots) done es r' ∧
        r = r'.mapError (reworded referenceError)) done := by
  rw [registerForest_eq (direct settings) type fits]
  exact proceeds_rewording (posts_forest type roots done) referenceError

/-- What a failure with a reference becomes: an error of the registration whose cause is the error
of the request, or, if it is none, itself. -/
inductive Wrapped : Failure → Except Failure α → Prop where
  | error {e : ResolutionError} (raw : e.Raw) :
    Wrapped (.resolution e)
      (.error (.resolution
        ⟨.general, "Error posting a reference", some e.describe, e.retriable, false⟩))
  | outside (e : ForeignError) : Wrapped (.foreign e) (.error (.foreign e))
  | cancelled : Wrapped .cancelled (.error .cancelled)

theorem Breaks.wrapped (h : Breaks plan f) :
    Wrapped f (.error (reworded referenceError f) : Except Failure α) := by
  cases h with
  | raw raw => exact .error raw
  | nesting message => exact .outside _
  | unencodable => exact .outside _
  | cancelled => exact .cancelled

theorem proceeds_operation {name : String} {x : Routine Exchange.interface α}
    {At : List (Act State Exchange.interface) → Prop}
    {End : List (Act State Exchange.interface) → Except Failure α → Prop}
    (h : x.run.Proceeds At End es)
    (stable : ∀ es (s t : State) r, End es r → End (es ++ [.changed s t]) r) :
    (operation name x).run.Proceeds At End es :=
  proceeds_logged h (fun es s t r _ => stable es s t r) rfl
    (rfl : (LevelChoice.level Level.debug).forRecord = .ok Level.debug)

theorem proceeds_register (subject : Text) (x : SuppliedSchema)
    (fits : SuppliedReference.heightAll x.references ≤ settings.maxDepth) :
    ((direct settings).register subject x).run.Proceeds (fun _ => True)
      (fun es r =>
        (∃ f, Posted settings (Duty.ofForest x.references) [] es (.error f : Except Failure Unit) ∧
          r = .error (reworded referenceError f)) ∨
        ∃ es', Posted settings (Duty.ofForest x.references) [] es' (.ok ()) ∧
          Posted settings [⟨subject, .id⟩] es' es r) [] := by
  refine proceeds_operation ?_ ?_
  · rw [Routine.run_bind]
    refine (proceeds_registerForest x.type fits []).bind fun r es forest => ?_
    obtain ⟨r', posted, rfl⟩ := forest
    cases r' with
    | error f => exact .inl ⟨f, posted, rfl⟩
    | ok references =>
      exact (posts_posting subject x references es).imp fun r es' root => .inr ⟨es, posted, root⟩
  · rintro es s t r (⟨f, posted, rfl⟩ | ⟨es', posted, root⟩)
    · exact .inl ⟨f, posted.changed s t, rfl⟩
    · exact .inr ⟨es', posted, root.changed s t⟩

theorem proceeds_registerReference (subject : Text) (type : SchemaType) (y : SuppliedReference)
    (fits : SuppliedReference.heightAll y.references ≤ settings.maxDepth) :
    ((direct settings).registerReference subject type y).run.Proceeds (fun _ => True)
      (fun es r => ∃ r', Posted settings (Duty.ofForest y.references ++ Duty.ofReference subject) []
        es r' ∧ r = r'.mapError (reworded referenceError)) [] := by
  refine proceeds_operation ?_ ?_
  · rw [Routine.run_bind]
    refine (proceeds_registerForest type fits []).bind fun r es forest => ?_
    obtain ⟨r', posted, rfl⟩ := forest
    cases r' with
    | error f => exact ⟨.error f, posted.stop _, rfl⟩
    | ok below =>
      refine (proceeds_rewording (posts_postReference subject y.name type y.text below es)
        referenceError).imp fun r es' own => ?_
      obtain ⟨r'', posted', rfl⟩ := own
      exact ⟨r'', posted.append posted', rfl⟩
  · rintro es s t r ⟨r', posted, rfl⟩
    exact ⟨r', posted.changed s t, rfl⟩

theorem Posted.follows {r : Except Failure α} (h : Posted settings plan [] es r) :
    Follows settings plan (calls es) (failure? r) := by
  obtain ⟨cs, same, follows⟩ := h
  rw [same]
  exact follows

theorem fair_calls (fair : ∀ a ∈ es, a.Fair) : ∀ a ∈ calls es, a.Fair :=
  fun a ha => fair a (List.mem_of_mem_filter ha)

/-- A registration whose references are not nested too deeply follows its plan up to the first
request that fails, which is the last one. If it was for a reference, the registration fails with
one error whose cause is the error of this request and which may be cured by a retry as that one
may; and if it was for the schema itself, with that error. The same holds of the registration of a
reference, which is posted after those below it. A body that is nested too deeply, though, is no
error of resolution and comes through as it is, and so does being cancelled or being given a subject
for a reference that cannot be written into an address. -/
theorem registration_aborts (fair : ∀ a ∈ es, a.Fair) :
    (∀ (subject : Text) (x : SuppliedSchema) (r : Except Failure RegisteredSchema),
      SuppliedReference.heightAll x.references ≤ settings.maxDepth →
      Program.Path ((direct settings).register subject x).run es (.done r) →
        (∃ f, Follows settings (Duty.ofForest x.references) (calls es) (some f) ∧ Wrapped f r ∧
          ∀ e, f = .foreign e → e.kind = .nesting) ∨
        ∃ cs cs', calls es = cs ++ cs' ∧ Follows settings (Duty.ofForest x.references) cs none ∧
          Follows settings [⟨subject, .id⟩] cs' (failure? r) ∧
          ∀ e, r = .error (.resolution e) → e.Raw) ∧
    ∀ (subject : Text) (type : SchemaType) (y : SuppliedReference)
      (r : Except Failure RegisteredReference),
      SuppliedReference.heightAll y.references ≤ settings.maxDepth →
      Program.Path ((direct settings).registerReference subject type y).run es (.done r) →
        (∃ f, Follows settings (Duty.ofForest y.references ++ Duty.ofReference subject) (calls es)
            (some f) ∧ Wrapped f r ∧
          ∀ e, f = .foreign e → e.kind = .nesting ∨ ∃ u, Percent.encode subject = .error u) ∨
        ∃ z, r = .ok z ∧
          Follows settings (Duty.ofForest y.references ++ Duty.ofReference subject) (calls es)
            none := by
  constructor
  · intro subject x r fits path
    rcases (proceeds_register subject x fits).path path with ⟨f, posted, rfl⟩ | ⟨es', posted, root⟩
    · have breaks := posted.follows.breaks (fair_calls fair)
      refine .inl ⟨f, posted.follows, breaks.wrapped, ?_⟩
      rintro e rfl
      exact breaks.nesting_of_foreign
    · obtain ⟨cs', same, follows⟩ := root
      rw [List.nil_append] at same
      refine .inr ⟨calls es', cs', same, posted.follows, follows, ?_⟩
      rintro e rfl
      have breaks := follows.breaks fun a ha =>
        fair_calls fair a (same ▸ List.mem_append_right _ ha)
      cases breaks with
      | raw raw => exact raw
  · intro subject type y r fits path
    obtain ⟨r', posted, rfl⟩ := (proceeds_registerReference subject type y fits).path path
    have follows := posted.follows
    cases r' with
    | ok z => exact .inr ⟨z, rfl, follows⟩
    | error f =>
      have breaks := follows.breaks (fair_calls fair)
      refine .inl ⟨f, follows, breaks.wrapped, ?_⟩
      rintro e rfl
      exact breaks.kind_of_foreign

/-! ### A reference that cannot be posted -/

/-- What a world replies that is fair. -/
def FairReply (r : Except Failure Response) : Prop :=
  (∃ response, r = .ok response) ∨
    ∃ message cause, r = .error (.resolution (.transport message cause))

/-- What a program does alone before a fair world is fair. -/
theorem fair_acts {ε : Type} {w : Program.World Exchange.interface ε}
    (get : ∀ url e, FairReply (w.reply (Call.get url) e).1)
    (post : ∀ url body e, FairReply (w.reply (Call.post url body) e).1)
    (p : Program State Exchange.interface α) (s : State) (e : ε) : ∀ a ∈ p.acts w s e, a.Fair := by
  intro a ha v hv
  cases a with
  | changed => cases hv
  | called c r =>
    obtain ⟨e', rfl⟩ := Program.reply_of_mem_acts ha
    cases c with
    | get url =>
      cases hv
      rcases get url e' with ⟨response, same⟩ | ⟨message, cause, same⟩
      · exact .inl ⟨response, congrArg _ same⟩
      · exact .inr (.inl ⟨message, cause, congrArg _ same⟩)
    | post url body =>
      cases hv
      rcases post url body e' with ⟨response, same⟩ | ⟨message, cause, same⟩
      · exact .inl ⟨response, congrArg _ same⟩
      · exact .inr (.inl ⟨message, cause, congrArg _ same⟩)
    | close => cases hv

/-- A world that answers every document with an identifier and a version, unless it is posted to the
versions of subject `c`. -/
def choosy (refusal : Response) : Program.World Exchange.interface Unit where
  reply
    | .get _, e => (.ok ⟨404, []⟩, e)
    | .post url _, e =>
      (.ok (if url = Text.ofString "/subjects/c/versions" then refusal
        else ⟨200, Utf8.encode (Json.write Json.spaced
          (.record [("id", .int 1), ("version", .int 1)]))⟩), e)
    | .close, e => ((), e)

theorem fair_choosy (refusal : Response) (p : Program State Exchange.interface α) (s : State) :
    ∀ a ∈ p.acts (choosy refusal) s (), a.Fair :=
  fair_acts (fun _ _ => .inl ⟨_, rfl⟩) (fun _ _ _ => .inl ⟨_, rfl⟩) p s ()

/-- The fifth request fails, which is for a reference. -/
theorem registration_aborts_choosy :
    ∃ es f, Program.Path ((direct bare).register [] Posting.nested).run es
        (.done (.error (.resolution (referenceError (.status 500))))) ∧
      (calls es).length = 5 ∧
      Follows bare (Duty.ofForest Posting.nested.references) (calls es) (some f) := by
  let p := ((direct bare).register [] Posting.nested).run
  let s := State.initial Level.info false
  have path := p.path_acts (choosy ⟨500, []⟩) s ()
  have failed : (p.run (choosy ⟨500, []⟩) s ()).1 =
    .error (.resolution (referenceError (.status 500))) := by decide +kernel
  have five : (calls (p.acts (choosy ⟨500, []⟩) s ())).length = 5 := by decide +kernel
  rw [failed] at path
  rcases (registration_aborts (fair_choosy ⟨500, []⟩ p s)).1 [] Posting.nested _ (by decide) path
    with ⟨f, follows, -, -⟩ | ⟨cs, cs', -, -, -, raw⟩
  · exact ⟨_, f, path, five, follows⟩
  · cases raw _ rfl

/-- An answer that is an array in arrays, with no identifier. -/
def hollow : Response := ⟨200, List.replicate 1000 91 ++ List.replicate 1000 93⟩

/-- A body that is nested too deeply ends the registration with an error from outside, though it was
the answer to a request for a reference. -/
theorem nesting_escapes :
    SuppliedReference.heightAll Posting.nested.references ≤ bare.maxDepth ∧
      ∃ es e, Program.Path ((direct bare).register [] Posting.nested).run es
          (.done (.error (.foreign e))) ∧
        (∀ a ∈ es, a.Fair) ∧ e.kind = .nesting := by
  let p := ((direct bare).register [] Posting.nested).run
  let s := State.initial Level.info false
  let e : ForeignError := .ofReadError (.tooDeep .array)
  have path := p.path_acts (choosy hollow) s ()
  have failed : (p.run (choosy hollow) s ()).1 = .error (.foreign e) := by decide +kernel
  rw [failed] at path
  exact ⟨by decide, _, e, path, fair_choosy hollow p s, rfl⟩

end Registrar.Client
