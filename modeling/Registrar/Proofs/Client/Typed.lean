import Registrar.Proofs.Client.Registering

/-!
# Types and their names

The registry knows a type by its name alone. A type of another format may be given the name of a
known one; it then goes by the name of that one, and the registry gives that one back. All `Proper`
types are told apart by their names, and a schema that is registered under one is found under it.
-/

namespace Registrar

namespace SchemaType

/-- The types whose names have a meaning of their own. -/
def builtin : List SchemaType := [.avro, .protobuf, .json]

/-- The type is no other format under the name of a known one. -/
def Proper (t : SchemaType) : Prop := ∀ n ∈ t.name?, n ∉ builtin.map registryName

instance (t : SchemaType) : Decidable t.Proper :=
  inferInstanceAs (Decidable (∀ n ∈ t.name?, n ∉ builtin.map registryName))

/-! ## Making types -/

theorem named_eq_ok_iff {n : Text} {t : SchemaType} :
    named n = .ok t ↔ t.name? = some n := by
  unfold named
  cases t with
  | other m =>
    by_cases h : n = []
    · simp [h, name?, m.property]
    · simp [h, name?, Subtype.ext_iff, eq_comm]
  | _ => by_cases h : n = [] <;> simp [h, name?]

/-- A kind and a name make the type that has them, if there is one. -/
theorem make_eq_ok_iff {kind : SchemaKind} {name : Option Text} {t : SchemaType} :
    make kind name = .ok t ↔ t.kind = kind ∧ t.name? = name := by
  rcases kind <;> rcases name with - | n <;>
    simp only [make, named_eq_ok_iff, reduceCtorEq, false_iff] <;>
    cases t <;> simp [SchemaType.kind, name?]

/-! ## From a name to a type -/

theorem ofName_registryName_builtin {t : SchemaType} (h : t ∈ builtin) :
    ofName t.registryName t.registryName_ne_nil = t := by
  simp only [builtin, List.mem_cons, List.not_mem_nil, or_false] at h
  rcases h with rfl | rfl | rfl <;> decide

/-- A name that has no meaning of its own is the name of another format. -/
theorem ofName_of_notMem {n : Text} (h : n ≠ []) (free : n ∉ builtin.map registryName) :
    ofName n h = .other ⟨n, h⟩ := by
  simp only [builtin, List.map_cons, List.map_nil, List.mem_cons, List.not_mem_nil, or_false,
    not_or] at free
  obtain ⟨avro, protobuf, json⟩ := free
  exact (if_neg avro).trans ((if_neg protobuf).trans (if_neg json))

theorem proper_ofName (n : Text) (h : n ≠ []) : (ofName n h).Proper := by
  intro m named
  by_cases taken : n ∈ builtin.map registryName
  · obtain ⟨t, known, rfl⟩ := List.mem_map.1 taken
    rw [ofName_registryName_builtin known] at named
    simp only [builtin, List.mem_cons, List.not_mem_nil, or_false] at known
    rcases known with rfl | rfl | rfl <;> cases named
  · rw [ofName_of_notMem h taken] at named
    cases named
    exact taken

/-- The name of a type means the type itself just when the type is proper. -/
theorem ofName_registryName_iff {t : SchemaType} :
    ofName t.registryName t.registryName_ne_nil = t ↔ t.Proper := by
  constructor
  · intro same
    rw [← same]
    exact proper_ofName _ t.registryName_ne_nil
  · intro proper
    cases t with
    | other n => exact ofName_of_notMem n.property (proper n.val rfl)
    | _ => exact ofName_registryName_builtin (by simp [builtin])

theorem ofRegistryName_some {n : Text} (h : n ≠ []) : ofRegistryName (some n) = .ok (ofName n h) :=
  dif_pos h

theorem ofRegistryName_registryName_iff {t : SchemaType} :
    ofRegistryName (some t.registryName) = .ok t ↔ t.Proper := by
  rw [ofRegistryName_some t.registryName_ne_nil, Except.ok.injEq, ofName_registryName_iff]

/-- Proper types with one name are one type. -/
theorem Proper.eq_of_registryName {t u : SchemaType} (ht : t.Proper) (hu : u.Proper)
    (same : t.registryName = u.registryName) : t = u := by
  have read := ofRegistryName_registryName_iff.2 ht
  rw [same, ofRegistryName_registryName_iff.2 hu] at read
  exact (Except.ok.inj read).symm

end SchemaType

namespace Envelope

theorem schemaType_of_member {d : Envelope} {n : Text} (h : n ≠ [])
    (member : Json.member? d "schemaType" = some (.string n)) :
    d.schemaType = .ofName n h := by
  unfold schemaType
  rw [member]
  exact dif_pos h

theorem member?_registered_schemaType (x : RegisteredSchema) :
    Json.member? (registered x) "schemaType" = some (.string x.type.registryName) := by
  simp [registered, member?_cons]

/-- A schema that is read from an object with the posted type is of the type which the name of the
posted one means. -/
theorem type_of_posted {d : Envelope} {x y : RegisteredSchema} {requested : Option Int}
    (read : d.schema requested = .ok x)
    (posted : Json.member? d "schemaType" = Json.member? (registered y) "schemaType") :
    x.type = .ofName y.type.registryName y.type.registryName_ne_nil := by
  rw [member?_registered_schemaType] at posted
  rw [type_of_schema read, schemaType_of_member _ posted]

end Envelope

namespace Client

open Routine

variable {ε : Type} {w : Program.World Exchange.interface ε} {settings : Settings}

/-! ## Fetching with a type -/

/-- The error about a schema of another type than the expected one. -/
def mistyped (actual : SchemaType) : ResolutionError :=
  .general ("type " ++ actual.registryName ++ ", is not correct") none false

theorem yields_fetchByIdAndType (id : Int) (type : SchemaType) :
    Yields w ((direct settings).fetchByIdAndType id type) (do
      let x ← fetched w settings (.schemaById id) (some id)
      if x.type ≠ type then throw (.resolution (mistyped x.type))
      return x) := by
  refine yields_operation _ ((yields_fetchById settings id).bind fun x => ?_)
  by_cases same : x.type = type
  · rw [if_neg (not_not.2 same), if_neg (not_not.2 same)]
    exact yields_pure x
  · rw [if_pos same, if_pos same]
    exact fun _ _ => rfl

theorem run_fetchByIdAndType {id : Int} {e e' : ε} {d : Envelope} {x : RegisteredSchema}
    (answered : (answer w settings (.schemaById id) none).run e = (.ok d, e'))
    (read : d.schema (some id) = .ok x) (type : SchemaType) (s : State) :
    ∃ s', ((direct settings).fetchByIdAndType id type).run.run w s e =
      (if x.type = type then .ok x else .error (.resolution (mistyped x.type)), s', e') := by
  refine (yields_fetchByIdAndType id type).exists_run ?_ s
  rw [Worldly.run_bind, run_fetched_ok answered read]
  by_cases same : x.type = type
  · rw [if_pos same]
    dsimp only
    rw [if_neg (not_not.2 same)]
    rfl
  · rw [if_neg same]
    dsimp only
    rw [if_pos same]
    rfl

/-! ## Registering and fetching -/

/-- The constructor takes the types with a kind and a name that fit, and no others. A type is what
its name in the registry means just when it is proper; proper types are told apart by their names,
and every name that is not empty is the one of a proper type.

A registration posts the type by its name. When the registry then gives an object with the posted
type for the identifier, a fetch under the type that was registered gives the schema in the object
if the type is proper; if not, the schema is of the type that the name means, and is refused. -/
theorem types_by_name (settings : Settings) (w : Program.World Exchange.interface ε) :
    (∀ kind name t, SchemaType.make kind name = .ok t ↔ t.kind = kind ∧ t.name? = name) ∧
    (∀ t, SchemaType.ofRegistryName (some t.registryName) = .ok t ↔ t.Proper) ∧
    (∀ t u : SchemaType, t.Proper → u.Proper → t.registryName = u.registryName → t = u) ∧
    (∀ n : Text, n ≠ [] →
      ∃ t, SchemaType.ofRegistryName (some n) = .ok t ∧ t.registryName = n ∧ t.Proper) ∧
    ∀ subject x y s e s₁ e₁,
      ((direct settings).register subject x).run.run w s e = (.ok y, s₁, e₁) →
      (∃ e₀ receipt, (answer w settings (.versions subject)
        (some (.object (Envelope.registered y)))).run e₀ = (.ok receipt, e₁) ∧
          receipt.id = .ok y.id) ∧
      ∀ e₂ e₃ d z, (answer w settings (.schemaById y.id) none).run e₂ = (.ok d, e₃) →
        d.schema (some y.id) = .ok z →
        Json.member? d "schemaType" = Json.member? (Envelope.registered y) "schemaType" →
        (x.type.Proper → z.type = x.type) ∧
        ∀ s₂, ∃ s₃, ((direct settings).fetchByIdAndType y.id x.type).run.run w s₂ e₂ =
          (if x.type.Proper then .ok z else .error (.resolution (mistyped x.type)), s₃, e₃) := by
  refine ⟨fun _ _ _ => SchemaType.make_eq_ok_iff,
    fun _ => SchemaType.ofRegistryName_registryName_iff,
    fun _ _ => SchemaType.Proper.eq_of_registryName,
    fun n h => ⟨.ofName n h, SchemaType.ofRegistryName_some h, SchemaType.registryName_ofName n h,
      SchemaType.proper_ofName n h⟩, ?_⟩
  intro subject x y s e s₁ e₁ registered
  obtain ⟨type, -, -, e₀, receipt, posted, id⟩ := of_run_register registered
  refine ⟨⟨e₀, receipt, by rwa [← Envelope.registration_eq], id⟩, ?_⟩
  intro e₂ e₃ d z answered read given
  have meant := Envelope.type_of_posted read given
  simp only [type] at meant
  have same : z.type = x.type ↔ x.type.Proper := by
    rw [meant, SchemaType.ofName_registryName_iff]
  have name : mistyped z.type = mistyped x.type := by
    rw [mistyped, mistyped, meant, SchemaType.registryName_ofName]
  refine ⟨same.2, fun s₂ => ?_⟩
  obtain ⟨s₃, run⟩ := run_fetchByIdAndType answered read x.type s₂
  refine ⟨s₃, run.trans ?_⟩
  simp only [same, name]

/-! ## A registry that gives back what was posted -/

/-- A world that gives the body that was posted last, under the identifier one. -/
def echo : Program.World Exchange.interface Bytes where
  reply
    | .get _, e => (.ok ⟨200, e⟩, e)
    | .post _ body, _ =>
      (.ok ⟨200, Utf8.encode (Json.write Json.spaced (.record [("id", .int 1)]))⟩, body)
    | .close, e => ((), e)

theorem of_echo_post {r : Resource} {body : Json} {e e' : Bytes} {d : Envelope}
    (h : (answer echo bare r (some body)).run e = (.ok d, e')) :
    e' = Utf8.encode (Json.write Json.spaced body) := by
  obtain ⟨url, e₁, -, h⟩ := Worldly.of_run_bind h
  obtain ⟨reply, e₂, replied, h⟩ := Worldly.of_run_bind h
  rw [Worldly.run_ofExcept] at h
  rw [run_response_post] at replied
  obtain rfl : e₂ = e' := congrArg Prod.snd h
  exact (congrArg Prod.snd replied).symm

theorem run_answer_echo_get {d : Envelope} (legible : (Json.object d).Legible Json.maxNesting)
    (id : Int) :
    (answer echo bare (.schemaById id) none).run
        (Utf8.encode (Json.write Json.spaced (.object d))) =
      (.ok d, Utf8.encode (Json.write Json.spaced (.object d))) := by
  unfold answer
  rw [show (direct bare).url (.schemaById id) = .ok _ from rfl, Worldly.run_bind,
    Worldly.run_ofExcept]
  dsimp only
  rw [Worldly.run_bind, run_response]
  dsimp only [echo]
  rw [Worldly.run_ofExcept, Envelope.ofResponse_document (Envelope.document_write legible)]

/-- What is registered before the world `echo` is what it has afterwards. -/
theorem echo_of_register {subject : Text} {x : SuppliedSchema} {y : RegisteredSchema}
    {s s' : State} {e e' : Bytes}
    (h : ((direct bare).register subject x).run.run echo s e = (.ok y, s', e')) :
    e' = Utf8.encode (Json.write Json.spaced (.object (Envelope.registered y))) := by
  obtain ⟨-, -, -, e₀, receipt, posted, -⟩ := of_run_register h
  rw [of_echo_post posted, Envelope.registration_eq]

/-- A schema of another format with the given name. -/
def outlandish (name : { n : Text // n ≠ [] }) : SuppliedSchema := ⟨none, .other name, "x", []⟩

def xml : { n : Text // n ≠ [] } := ⟨"XML", by decide⟩

/-- The name of a known format. -/
def taken : { n : Text // n ≠ [] } := ⟨"AVRO", by decide⟩

/-- What the world `echo` has after such a schema was registered. -/
def echoed (name : { n : Text // n ≠ [] }) : RegisteredSchema := ⟨1, .other name, "x", []⟩

theorem legible_echoed (name : { n : Text // n ≠ [] }) (settled : name.val.Settled) :
    (Json.object (Envelope.registered (echoed name))).Legible Json.maxNesting := by
  have distinct : [Text.ofString "schema", Text.ofString "schemaType"].Nodup := by decide
  have text : Text.Settled (Text.ofString "x") := Text.settled_ofChars _
  exact ⟨distinct, Text.settled_ofChars _, text, Text.settled_ofChars _, settled, trivial⟩

theorem types_by_name_xml :
    SchemaType.make .other (some "XML") = .ok (.other xml) ∧
    SchemaType.ofRegistryName (some "XML") = .ok (.other xml) ∧
    ∃ s₁ e₁ s₂, ((direct bare).register "s" (outlandish xml)).run.run echo
        (State.initial Level.info false) [] = (.ok (echoed xml), s₁, e₁) ∧
      ((direct bare).fetchByIdAndType 1 (.other xml)).run.run echo s₁ e₁ =
        (.ok (echoed xml), s₂, e₁) := by
  obtain ⟨makes, means, -, -, fetches⟩ := types_by_name bare echo
  have proper : (outlandish xml).type.Proper := by decide
  have ran : (((direct bare).register "s" (outlandish xml)).run.run echo
      (State.initial Level.info false) []).1 = .ok (echoed xml) := by
    decide +kernel
  obtain ⟨s₁, e₁, registered⟩ := exists_run_eq ran
  obtain rfl := echo_of_register registered
  have answered := run_answer_echo_get (legible_echoed xml (by decide)) 1
  have read : Envelope.schema (Envelope.registered (echoed xml)) (some 1) = .ok (echoed xml) := by
    decide +kernel
  obtain ⟨-, found⟩ := (fetches _ _ _ _ _ _ _ registered).2 _ _ _ _ answered read rfl
  obtain ⟨s₂, fetched⟩ := found s₁
  exact ⟨(makes _ _ _).2 ⟨rfl, rfl⟩, (means _).2 proper, s₁, _, s₂, registered,
    fetched.trans (by rw [if_pos proper])⟩

/-- The constructor takes a type of another format under the name of a known one. The registry's
name of it means the known one, so it is the name of two types, and what is registered under the
one is not found under it. -/
theorem taken_name_refused :
    SchemaType.make .other (some "AVRO") = .ok (.other taken) ∧
    SchemaType.ofRegistryName (some (SchemaType.registryName (.other taken))) = .ok .avro ∧
    SchemaType.other taken ≠ .avro ∧
    SchemaType.registryName (.other taken) = SchemaType.registryName .avro ∧
    ∃ s₁ e₁ s₂, ((direct bare).register "s" (outlandish taken)).run.run echo
        (State.initial Level.info false) [] = (.ok (echoed taken), s₁, e₁) ∧
      ((direct bare).fetchByIdAndType 1 (.other taken)).run.run echo s₁ e₁ =
        (.error (.resolution (.general "type AVRO, is not correct" none false)), s₂, e₁) := by
  have ran : (((direct bare).register "s" (outlandish taken)).run.run echo
      (State.initial Level.info false) []).1 = .ok (echoed taken) := by
    decide +kernel
  obtain ⟨s₁, e₁, registered⟩ := exists_run_eq ran
  obtain rfl := echo_of_register registered
  have answered := run_answer_echo_get (legible_echoed taken (by decide)) 1
  have read : Envelope.schema (Envelope.registered (echoed taken)) (some 1) =
      .ok ⟨1, .avro, "x", []⟩ := by
    decide +kernel
  obtain ⟨s₂, fetched⟩ := run_fetchByIdAndType answered read (.other taken) s₁
  exact ⟨rfl, rfl, by decide, rfl, s₁, _, s₂, registered, fetched⟩

end Client

end Registrar
