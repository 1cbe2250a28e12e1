import Registrar.Proofs.Client.Forest
import Registrar.Proofs.Client.Requests

/-!
# Registration is its recursive definition

`Posting.schema` is registration as one would define it: the references are posted from left to
right, each after those below it, and the schema after its references. It knows nothing of arenas,
journals and tallies. Before a world that notes the calls which it receives, the registration of a
client makes the same calls in the same order and ends in the same way.
-/

namespace Registrar

open Exchange (Call)

/-- A world that notes the calls which it receives. -/
def Program.World.noting {ε : Type} (w : World Exchange.interface ε) :
    World Exchange.interface (ε × List Call) where
  reply (c : Call) e := ((w.reply c e.1).1, (w.reply c e.1).2, e.2 ++ [c])

namespace Posting

variable {ε : Type} (w : Program.World Exchange.interface ε) (base : Text)

/-! ## The recursion -/

/-- The address of a subject, or of its versions. -/
def address (subject : Text) (tail : String) : Except Failure Text :=
  match Percent.encode subject with
  | .ok s => .ok (base ++ ("/subjects/" ++ s ++ tail : String))
  | .error u => .error (.foreign (.ofUnencodable u))

/-- The document with which a schema is registered. -/
def document (type : SchemaType) (text : Text) (children : List RegisteredReference) : Json :=
  .record <|
    [("schema", .string text), ("schemaType", .string type.registryName)] ++
      match children with
      | [] => []
      | _ => [("references", .array (children.map fun r => .record
          [("name", .string r.name), ("subject", .string r.subject), ("version", .int r.version)]))]

/-- Posts a document and takes the envelope out of the response. -/
def post (subject : Text) (tail : String) (body : Json) : Worldly ε Envelope := do
  let url ← MonadExcept.ofExcept (address base subject tail)
  let answer ← Client.response w url (some body)
  MonadExcept.ofExcept (Envelope.ofResponse answer)

mutual

/-- Registers a reference after those below it. -/
def tree (type : SchemaType) : SuppliedReference → Worldly ε RegisteredReference
  | .mk name subject text below => do
    let children ← forest type below
    let body := document type text children
    let added ← post w base subject "/versions" body
    let _ ← MonadExcept.ofExcept (added.id.mapError .resolution)
    let stored ← post w base subject "" body
    let version ← MonadExcept.ofExcept (stored.version.mapError .resolution)
    return ⟨name, subject, version⟩

/-- Registers references from left to right. -/
def forest (type : SchemaType) : List SuppliedReference → Worldly ε (List RegisteredReference)
  | [] => return []
  | r :: rs => do
    let first ← tree type r
    let others ← forest type rs
    return first :: others

end

/-- What the failure of a reference becomes. -/
def wrapped : Failure → Failure
  | .resolution e =>
    .resolution ⟨.general, "Error posting a reference", some e.describe, e.retriable, false⟩
  | f => f

/-- Registers a schema after its references. -/
def schema (subject : Text) (x : SuppliedSchema) : Worldly ε RegisteredSchema := do
  let children ← ExceptT.adapt wrapped (forest w base x.type x.references)
  let envelope ← post w base subject "/versions" (document x.type x.text children)
  let id ← MonadExcept.ofExcept (envelope.id.mapError .resolution)
  return ⟨id, x.type, x.text, children⟩

/-! ## Agreement -/

open Routine Client

variable {w} (settings : Settings) {base} (type : SchemaType)

theorem registration_eq (text : Text) (children : List RegisteredReference) :
    Envelope.registration type text children = document type text children := by
  cases children <;> rfl

theorem url_versions (subject : Text) :
    (direct settings).url (.versions subject) = address settings.url subject "/versions" := by
  simp only [Client.url, Resource.path, Resource.subjectPath, address]
  cases Percent.encode subject <;> rfl

theorem url_subject (subject : Text) :
    (direct settings).url (.subject subject) = address settings.url subject "" := by
  simp only [Client.url, Resource.path, Resource.subjectPath, address]
  cases Percent.encode subject <;> simp [Except.map, direct]

theorem yields_send_versions (subject : Text) (body : Json) :
    Yields w ((direct settings).send (.versions subject) (some body))
      (post w settings.url subject "/versions" body) := by
  have := yields_send (w := w) settings (.versions subject) (some body)
  unfold answer at this
  rwa [url_versions] at this

theorem yields_send_subject (subject : Text) (body : Json) :
    Yields w ((direct settings).send (.subject subject) (some body))
      (post w settings.url subject "" body) := by
  have := yields_send (w := w) settings (.subject subject) (some body)
  unfold answer at this
  rwa [url_subject] at this

mutual

theorem yields_tree : (r : SuppliedReference) →
    Yields w ((direct settings).postTree type r) (tree w settings.url type r)
  | .mk name subject text below => by
    rw [postTree, tree]
    refine (yields_forest below).bind fun children => ?_
    unfold Client.postReference
    rw [registration_eq]
    refine (yields_send_versions settings _ _).bind fun added => ?_
    refine (yields_resolving _).bind fun _ => ?_
    refine (yields_send_subject settings _ _).bind fun stored => ?_
    exact (yields_resolving _).bind fun version => yields_pure _

theorem yields_forest : (rs : List SuppliedReference) →
    Yields w ((direct settings).postTrees type rs) (forest w settings.url type rs)
  | [] => by
    rw [postTrees, forest]
    exact yields_pure _
  | r :: rs => by
    rw [postTrees, forest]
    refine (yields_tree r).bind fun first => ?_
    exact (yields_forest rs).bind fun others => yields_pure _

end

theorem reworded_referenceError : reworded referenceError = wrapped := by
  funext f
  cases f <;> rfl

theorem yields_register (subject : Text) (x : SuppliedSchema)
    (h : SuppliedReference.heightAll x.references ≤ settings.maxDepth) :
    Yields w ((direct settings).register subject x) (schema w settings.url subject x) := by
  refine yields_operation _ ?_
  rw [registerForest_eq (direct settings) x.type h]
  unfold schema
  rw [← reworded_referenceError]
  refine ((yields_forest settings x.type x.references).rewording _).bind fun children => ?_
  rw [registration_eq]
  refine (yields_send_versions settings _ _).bind fun envelope => ?_
  refine (yields_resolving _).bind fun id => ?_
  exact (yields_pure _).after_note

/-! ## What is registered -/

/-- A registered reference carries the name and the subject that were supplied. -/
theorem of_tree {r : SuppliedReference} {e e' : ε} {x : RegisteredReference}
    (h : (tree w base type r).run e = (.ok x, e')) :
    x.name = Text.ofString r.name ∧ x.subject = Text.ofString r.subject := by
  cases r with
  | mk name subject text below =>
    rw [tree] at h
    obtain ⟨children, e₁, -, h⟩ := Worldly.of_run_bind h
    obtain ⟨added, e₂, -, h⟩ := Worldly.of_run_bind h
    obtain ⟨id, e₃, -, h⟩ := Worldly.of_run_bind h
    obtain ⟨stored, e₄, -, h⟩ := Worldly.of_run_bind h
    obtain ⟨version, e₅, -, h⟩ := Worldly.of_run_bind h
    rw [← Worldly.of_run_pure h]
    exact ⟨rfl, rfl⟩

/-- Registered references carry the names and the subjects that were supplied, in their order. -/
theorem of_forest {rs : List SuppliedReference} {e e' : ε} {xs : List RegisteredReference}
    (h : (forest w base type rs).run e = (.ok xs, e')) :
    xs.map (fun x => (x.name, x.subject)) =
      rs.map fun r => (Text.ofString r.name, Text.ofString r.subject) := by
  induction rs generalizing e e' xs with
  | nil =>
    rw [forest] at h
    rw [← Worldly.of_run_pure h]
    rfl
  | cons r rs ih =>
    rw [forest] at h
    obtain ⟨first, e₁, first_ok, h⟩ := Worldly.of_run_bind h
    obtain ⟨others, e₂, others_ok, h⟩ := Worldly.of_run_bind h
    obtain ⟨name, subject⟩ := of_tree type first_ok
    rw [← Worldly.of_run_pure h, List.map_cons, List.map_cons, ih others_ok, name, subject]

theorem of_schema {subject : Text} {x : SuppliedSchema} {e e' : ε} {y : RegisteredSchema}
    (h : (schema w base subject x).run e = (.ok y, e')) :
    y.type = x.type ∧ y.text = x.text ∧ y.references.map (fun r => (r.name, r.subject)) =
      x.references.map fun r => (Text.ofString r.name, Text.ofString r.subject) := by
  obtain ⟨children, e₁, children_ok, h⟩ := Worldly.of_run_bind h
  obtain ⟨envelope, e₂, -, h⟩ := Worldly.of_run_bind h
  obtain ⟨id, e₃, -, h⟩ := Worldly.of_run_bind h
  rw [← Worldly.of_run_pure h]
  exact ⟨rfl, rfl, of_forest x.type (Worldly.of_run_adapt children_ok)⟩

/-- Before a world that notes its calls, the registration of a client whose depth limit is not
exceeded makes the calls of its recursive definition and ends as this does; the schema that it gives
has the type and the text that were supplied, and its references are those that were supplied. -/
theorem register_refines (settings : Settings) (w : Program.World Exchange.interface ε)
    (subject : Text) (x : SuppliedSchema)
    (fits : SuppliedReference.heightAll x.references ≤ settings.maxDepth) (s : State) (e : ε) :
    let r := ((direct settings).register subject x).run.run w.noting s (e, [])
    (r.1, r.2.2) = (schema w.noting settings.url subject x).run (e, []) ∧
      ∀ y, r.1 = .ok y → y.type = x.type ∧ y.text = x.text ∧
        y.references.map (fun r => (r.name, r.subject)) =
          x.references.map fun r => (Text.ofString r.name, Text.ofString r.subject) := by
  have same := yields_register settings (w := w.noting) subject x fits s (e, [])
  refine ⟨same, ?_⟩
  intro y hy
  rw [hy] at same
  exact of_schema same.symm

/-! ## Runs -/

/-- Two levels of references. -/
def nested : SuppliedSchema :=
  ⟨none, .avro, [], [.mk "a" "a" [] [.mk "b" "b" [] []], .mk "c" "c" [] []]⟩

/-- A world in which the registry cannot be reached. -/
def unreachable : Program.World Exchange.interface Unit where
  reply
    | .get _, e => (.error (.resolution (.transport "unreachable" none)), e)
    | .post _ _, e => (.error (.resolution (.transport "unreachable" none)), e)
    | .close, e => ((), e)

/-- A registry that gives a new number to whatever is posted, as an identifier and as a version. -/
def counting : Program.World Exchange.interface Nat where
  reply
    | .get _, n => (.ok ⟨404, []⟩, n)
    | .post _ _, n =>
      (.ok ⟨200, Utf8.encode (Json.write Json.spaced
        (.record [("id", .int (n + 1)), ("version", .int (n + 1))]))⟩, n + 1)
    | .close, n => ((), n)

/-- The call that posts a schema without text. -/
def callTo (url : String) (children : List RegisteredReference) : Call :=
  .post url (Utf8.encode (Json.write Json.spaced (document .avro [] children)))

/-- The calls that register `nested` there under `t`: each document lists its children with the
versions that were given to them. -/
def nestedCalls : List Call :=
  [callTo "/subjects/b/versions" [], callTo "/subjects/b" [],
    callTo "/subjects/a/versions" [⟨"b", "b", 2⟩], callTo "/subjects/a" [⟨"b", "b", 2⟩],
    callTo "/subjects/c/versions" [], callTo "/subjects/c" [],
    callTo "/subjects/t/versions" [⟨"a", "a", 4⟩, ⟨"c", "c", 6⟩]]

/-- Where the registry gives a number to each request, a tree and its neighbour are registered. -/
theorem register_counting :
    SuppliedReference.heightAll nested.references ≤ bare.maxDepth ∧
      let r := ((direct bare).register "t" nested).run.run counting.noting
        (State.initial Level.info false) (0, [])
      r.1 = .ok ⟨7, .avro, [], [⟨"a", "a", 4⟩, ⟨"c", "c", 6⟩]⟩ ∧
        r.2.2.2 = nestedCalls := by
  have fits : SuppliedReference.heightAll nested.references ≤ bare.maxDepth := by decide
  have same := (register_refines bare counting "t" nested fits
    (State.initial Level.info false) 0).1
  have result : ((schema counting.noting bare.url "t" nested).run (0, [])).1 =
      .ok ⟨7, .avro, [], [⟨"a", "a", 4⟩, ⟨"c", "c", 6⟩]⟩ := by
    decide +kernel
  have calls : ((schema counting.noting bare.url "t" nested).run (0, [])).2.2 =
      nestedCalls := by
    decide +kernel
  exact ⟨fits, (congrArg Prod.fst same).trans result,
    (congrArg (fun r => r.2.2) same).trans calls⟩

end Posting

end Registrar
