import Registrar.Proofs.Client.Ledger
import Registrar.Proofs.Client.Registering
import Registrar.Proofs.Closure.Graph

/-!
# A registry that takes what is posted

A `Repository` takes every document that is posted to the versions of a subject, as long as there is
room and its references are there. It tells the version of a document to those who post it to the
subject, and tells those who ask for a version what was posted, with its identifier, if there is
such a version. It deletes nothing.

Before such a registry every registration whose references are not nested too deeply succeeds.
`Filed` says what is in the registry then: for every node of the forest a version of its subject,
which holds the document of the node. It lists these versions, the references before what refers to
them, with the schemas that documents give back for them.
-/

namespace Registrar

open Closure Client Posting

variable {ε : Type}

/-- A world, seen by clients with these settings, that takes what is posted. How identifiers and
versions come about plays no part. -/
structure Repository (w : Program.World Exchange.interface ε) (settings : Settings) where
  /-- The identifier and the body of a version of a subject. -/
  held : ε → Target → Option (Nat × Bytes)
  /-- Whether there is room for so many more bodies. -/
  room : ε → Nat → Prop
  keeps : ∀ {e t p} c, held e t = some p → held (w.reply c e).2 t = some p
  bounded : ∀ {e version p} {subject : Text}, held e (subject, version) = some p →
    version < Envelope.numberBound
  appends : ∀ {e n} (subject : String) (type : SchemaType) (text : Text)
    {references : List RegisteredReference}, room e (n + 1) →
    (∀ r ∈ references, (held e (targetOf r)).isSome) →
    ∃ d e' id version, (answer w settings (.versions subject)
        (some (Envelope.registration type text references))).run e = (.ok d, e') ∧
      d.id = .ok id ∧ held e' (subject, version) = some (id, posted type text references) ∧
      room e' n
  finds : ∀ {e id version} {subject : String} {type : SchemaType} {text : Text}
    {references : List RegisteredReference},
    held e (subject, version) = some (id, posted type text references) →
    ∃ d e' id' version', (answer w settings (.subject subject)
        (some (Envelope.registration type text references))).run e = (.ok d, e') ∧
      d.version = .ok version' ∧
      held e' (subject, version') = some (id', posted type text references) ∧
      ∀ n, room e n → room e' n
  returns : ∀ {e} {t : Target} {x : RegisteredSchema}, x.Plain →
    held e t = some (x.id, posted x.type x.text x.references) →
    ∃ d e', (answer w settings (.version t.1 t.2) none).run e = (.ok d, e') ∧
      d.member? "id" = some x.id ∧ d.Tells x
  misses : ∀ {e e' d} {t : Target}, held e t = none →
    (answer w settings (.version t.1 t.2) none).run e ≠ (.ok d, e')

theorem Posting.encode_registration (type : SchemaType) (text : Text)
    (references : List RegisteredReference) :
    Utf8.encode (Json.write Json.spaced (Envelope.registration type text references)) =
      posted type text references := by
  rw [registration_eq, posted]

/-- A document has the same bytes with the settled forms of its strings. -/
theorem Posting.posted_settle (type : SchemaType) (text : Text)
    (references : List RegisteredReference) :
    posted type.settle text.settle references = posted type text references := by
  rw [← encode_registration, ← encode_registration, Envelope.write_registration_settle]

/-! ## What is filed -/

/-- What is held as the versions of subjects. -/
abbrev Holdings := Target → Option (Nat × Bytes)

/-- What is held stays. -/
def Holdings.Grows (held held' : Holdings) : Prop := ∀ t p, held t = some p → held' t = some p

/-- The forest is filed: its registered references point to versions that hold the documents of its
nodes. The list has these versions, those of a tree below a node in front of that of the node and
from left to right, each with its schema. -/
inductive Filed (held : Holdings) (type : SchemaType) : List SuppliedReference →
    List RegisteredReference → List (Target × RegisteredSchema) → Prop
  | nil : Filed held type [] [] []
  | cons {name subject : String} {text : Text} {below rs : List SuppliedReference}
    {references xs : List RegisteredReference} {version id : Nat}
    {ps qs : List (Target × RegisteredSchema)} (inner : Filed held type below references ps)
    (kept : held (subject, version) = some (id, posted type text references))
    (others : Filed held type rs xs qs) :
    Filed held type (.mk name subject text below :: rs) (⟨name, subject, version⟩ :: xs)
      (ps ++ ((Text.ofString subject, version), .settled id type text references) :: qs)

namespace Filed

variable {held held' : Holdings} {type : SchemaType} {rs rs' : List SuppliedReference}
  {xs xs' : List RegisteredReference} {ps ps' : List (Target × RegisteredSchema)}

theorem mono (h : Filed held type rs xs ps) (grows : held.Grows held') :
    Filed held' type rs xs ps := by
  induction h with
  | nil => exact .nil
  | cons _ kept _ inner others => exact .cons inner (grows _ _ kept) others

theorem append (h : Filed held type rs xs ps) (h' : Filed held type rs' xs' ps') :
    Filed held type (rs ++ rs') (xs ++ xs') (ps ++ ps') := by
  induction h with
  | nil => exact h'
  | cons inner kept _ _ others => simpa using Filed.cons inner kept others

theorem isSome_held (h : Filed held type rs xs ps) : ∀ x ∈ xs, (held (targetOf x)).isSome := by
  induction h with
  | nil => simp
  | cons _ kept _ _ others => exact List.forall_mem_cons.2 ⟨by simp [targetOf, kept], others⟩

theorem plain (h : Filed held type rs xs ps)
    (bounded : ∀ {version p} {subject : Text}, held (subject, version) = some p →
      version < Envelope.numberBound) : ∀ x ∈ xs, x.Plain := by
  induction h with
  | nil => simp
  | @cons name subject _ _ _ _ _ version _ _ _ _ kept _ _ others =>
    have first : RegisteredReference.Plain ⟨name, subject, version⟩ :=
      ⟨Text.settled_ofChars _, Text.settled_ofChars _, bounded kept⟩
    exact List.forall_mem_cons.2 ⟨first, others⟩

/-- What is listed is held, and a document can carry it. -/
theorem kept (h : Filed held type rs xs ps)
    (bounded : ∀ {version p} {subject : Text}, held (subject, version) = some p →
      version < Envelope.numberBound) :
    ∀ q ∈ ps, q.2.Plain ∧ held q.1 = some (q.2.id, posted q.2.type q.2.text q.2.references) := by
  induction h with
  | nil => simp
  | @cons _ _ text _ _ references _ _ id _ _ inner kept _ ih others =>
    intro q hq
    rcases List.mem_append.1 hq with hq | hq
    · exact ih q hq
    rcases List.mem_cons.1 hq with rfl | hq
    · refine ⟨RegisteredSchema.plain_settled id type text (inner.plain bounded), ?_⟩
      exact kept.trans (by rw [RegisteredSchema.settled, posted_settle])
    · exact others q hq

end Filed

namespace Repository

variable {w : Program.World Exchange.interface ε} {settings : Settings} {p : Repository w settings}
  {e e' : ε}

/-! ## Time -/

/-- The registry grows. -/
def regime (p : Repository w settings) : Regime Exchange.interface ε where
  toWorld := w
  Later e e' := Holdings.Grows (p.held e) (p.held e')
  refl _ _ _ := id
  trans h h' t q hq := h' t q (h t q hq)
  later_reply c _ _ _ := p.keeps c

theorem later_answer {r : Resource} {body : Option Json} {d : Except Failure Envelope}
    (h : (answer w settings r body).run e = (d, e')) : p.regime.Later e e' := by
  have yields := yields_send (w := w) settings r body (State.initial Level.info false) e
  rw [h] at yields
  obtain rfl := congrArg Prod.snd yields
  exact p.regime.later_run _ _ e

/-! ## Registering -/

theorem answer_versions (subject : Text) (body : Json) :
    answer w settings (.versions subject) (some body) =
      post w settings.url subject "/versions" body := by
  unfold answer post
  rw [url_versions]

theorem answer_subject (subject : Text) (body : Json) :
    answer w settings (.subject subject) (some body) = post w settings.url subject "" body := by
  unfold answer post
  rw [url_subject]

mutual

/-- A tree for which there is room is filed. -/
theorem tree_ok (p : Repository w settings) (type : SchemaType) {n : Nat} {e : ε} :
    (r : SuppliedReference) → p.room e (n + r.size) →
    ∃ x e' ps, (tree w settings.url type r).run e = (.ok x, e') ∧ p.room e' n ∧
      p.regime.Later e e' ∧ Filed (p.held e') type [r] [x] ps
  | .mk name subject text below, room => by
    obtain ⟨references, e₁, ps, registered, room₁, later₁, filed⟩ :=
      forest_ok p type below (n := n + 1) (by
        rwa [Nat.add_assoc, Nat.add_comm 1, ← SuppliedReference.size])
    obtain ⟨added, e₂, id, version, appended, hid, kept, room₂⟩ :=
      p.appends subject type text room₁ filed.isSome_held
    obtain ⟨stored, e₃, id', version', found, hversion, kept', room₃⟩ := p.finds kept
    have later₂ := later_answer (p := p) appended
    have later₃ := later_answer (p := p) found
    rw [answer_versions, registration_eq] at appended
    rw [answer_subject, registration_eq] at found
    refine ⟨⟨name, subject, version'⟩, e₃, _, ?_, room₃ n room₂, ?_,
      .cons (filed.mono ?_) kept' .nil⟩
    · rw [tree, Worldly.run_bind, registered]
      dsimp only
      rw [Worldly.run_bind, appended]
      dsimp only
      rw [Worldly.run_bind, hid]
      dsimp only [Except.mapError]
      rw [Worldly.run_ofExcept]
      dsimp only
      rw [Worldly.run_bind, found]
      dsimp only
      rw [Worldly.run_bind, hversion]
      rfl
    · exact p.regime.trans later₁ (p.regime.trans later₂ later₃)
    · exact p.regime.trans later₂ later₃

/-- A forest for which there is room is filed. -/
theorem forest_ok (p : Repository w settings) (type : SchemaType) {n : Nat} {e : ε} :
    (rs : List SuppliedReference) → p.room e (n + SuppliedReference.sizeAll rs) →
    ∃ xs e' ps, (forest w settings.url type rs).run e = (.ok xs, e') ∧ p.room e' n ∧
      p.regime.Later e e' ∧ Filed (p.held e') type rs xs ps
  | [], room => by
    rw [forest]
    exact ⟨[], e, [], rfl, room, p.regime.refl e, .nil⟩
  | r :: rs, room => by
    obtain ⟨x, e₁, ps, first, room₁, later₁, filed₁⟩ :=
      tree_ok p type r (n := n + SuppliedReference.sizeAll rs) (by
        rwa [Nat.add_assoc, Nat.add_comm _ r.size, ← SuppliedReference.sizeAll])
    obtain ⟨xs, e₂, qs, others, room₂, later₂, filed₂⟩ := forest_ok p type rs room₁
    refine ⟨x :: xs, e₂, ps ++ qs, ?_, room₂, p.regime.trans later₁ later₂,
      (filed₁.mono later₂).append filed₂⟩
    rw [forest, Worldly.run_bind, first]
    dsimp only
    rw [Worldly.run_bind, others]
    rfl

end

/-- A registration ends as its recursive definition and leaves the cache alone. -/
theorem run_register_of_schema {subject : Text} {x : SuppliedSchema}
    (fits : SuppliedReference.heightAll x.references ≤ settings.maxDepth)
    {r : Except Failure RegisteredSchema}
    (h : (schema w settings.url subject x).run e = (r, e')) (s : State) :
    ∃ s', ((direct settings).register subject x).run.run w s e = (r, s', e') ∧
      s'.cache = s.cache := by
  have same := (yields_register settings (w := w) subject x fits s e).trans h
  obtain ⟨ended, world⟩ := Prod.mk.inj same
  have cache := (keeps_register settings subject x).run (fun _ => rfl)
    (fun _ _ _ h h' => h'.trans h) w s e
  exact ⟨_, Prod.ext ended (Prod.ext rfl world), cache⟩

/-- What a registration gives when there is room for it: the forest of the references is filed, and
the schema is held under its subject. -/
structure Registers (p : Repository w settings) (subject : String) (x : SuppliedSchema)
    (y : RegisteredSchema) (e' : ε) (ps : List (Target × RegisteredSchema)) : Prop where
  type : y.type = x.type
  text : y.text = x.text
  filed : Filed (p.held e') x.type x.references y.references ps
  kept : ∃ version, p.held e' (subject, version) =
    some (y.id, posted x.type x.text y.references)

/-- A registration succeeds when there is room and its references are not nested too deeply. -/
theorem register_ok (p : Repository w settings) (subject : String) {x : SuppliedSchema}
    (fits : SuppliedReference.heightAll x.references ≤ settings.maxDepth)
    (room : p.room e (SuppliedReference.sizeAll x.references + 1)) (s : State) :
    ∃ y s' e' ps, ((direct settings).register subject x).run.run w s e = (.ok y, s', e') ∧
      s'.cache = s.cache ∧ p.Registers subject x y e' ps := by
  obtain ⟨references, e₁, ps, registered, room₁, -, filed⟩ :=
    forest_ok p x.type x.references (n := 1) (by rwa [Nat.add_comm])
  obtain ⟨added, e₂, id, version, appended, hid, kept, -⟩ :=
    p.appends (n := 0) subject x.type x.text room₁ filed.isSome_held
  have later := later_answer (p := p) appended
  rw [answer_versions, registration_eq] at appended
  have posts : (schema w settings.url subject x).run e =
      (.ok ⟨id, x.type, x.text, references⟩, e₂) := by
    have adapted : (ExceptT.adapt wrapped (forest w settings.url x.type x.references)).run e =
        (.ok references, e₁) := by
      rw [Worldly.run_adapt, registered]
      rfl
    rw [schema, Worldly.run_bind, adapted]
    dsimp only
    rw [Worldly.run_bind, appended]
    dsimp only
    rw [Worldly.run_bind, hid]
    rfl
  obtain ⟨s', run, cache⟩ := run_register_of_schema fits posts s
  exact ⟨_, s', e₂, ps, run, cache, rfl, rfl, filed.mono later, version, kept⟩

end Repository

end Registrar
