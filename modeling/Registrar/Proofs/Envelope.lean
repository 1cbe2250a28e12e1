import Registrar.Envelope
import Registrar.Proofs.Json.Ascii
import Registrar.Proofs.Json.Reading

/-!
# What envelopes tell

An object of the registry tells the type, the text and the references of a schema. The type goes by
its name in the registry and is left out for Avro at will, and so are references where there are
none; other members do not matter. The schema is read from every object that tells it, and what
registers a schema tells it.
-/

namespace Registrar

/-- An error that no retry cures and that was not kept. -/
structure ResolutionError.Final (e : ResolutionError) : Prop where
  permanent : e.retriable = false
  fresh : e.cached = false

/-- The error with which a single request fails: the registry is not reached, or it answers with
another status than 200 or with a body that cannot be understood. -/
inductive ResolutionError.Raw : ResolutionError → Prop where
  | transport (message : Text) (cause : Option Text) : Raw (.transport message cause)
  | status (code : Int) : Raw (.status code)
  | parse (message : String) (cause : Option Text)
    (known : message ∈ ["Invalid UTF-8 sequence", "Invalid json string",
      "Could not get id from response", "Could not get version from response"]) :
    Raw (.parse message cause)

namespace SchemaType

theorem registryName_ofName (t : Text) (h : t ≠ []) : (ofName t h).registryName = t := by
  unfold ofName
  split
  · subst t
    rfl
  split
  · subst t
    rfl
  split
  · subst t
    rfl
  · rfl

/-- A type that has a name in the registry goes by its own one. -/
theorem ofRegistryName_registryName {name : Option Text} {t : SchemaType}
    (h : ofRegistryName name = .ok t) : ofRegistryName (some t.registryName) = .ok t := by
  cases name with
  | none =>
    cases h
    rfl
  | some n =>
    simp only [ofRegistryName] at h
    by_cases ne : n = []
    · simp [ne] at h
    · rw [dif_pos ne] at h
      cases h
      simp [ofRegistryName, registryName_ofName, ne]

theorem registryName_ne_nil (t : SchemaType) : t.registryName ≠ [] := by
  cases t with
  | other n => exact n.property
  | _ => decide

/-- The type as a document gives it back. -/
def settle (t : SchemaType) : SchemaType :=
  ofName t.registryName.settle (Text.settle_ne_nil t.registryName_ne_nil)

theorem registryName_settle (t : SchemaType) : t.settle.registryName = t.registryName.settle :=
  registryName_ofName ..

theorem ofRegistryName_settle (t : SchemaType) :
    ofRegistryName (some t.settle.registryName) = .ok t.settle := by
  rw [registryName_settle]
  exact dif_pos (Text.settle_ne_nil t.registryName_ne_nil)

/-- A type that has a settled name in the registry is given back as it is. -/
theorem settle_of_settled {name : Option Text} {t : SchemaType}
    (h : ofRegistryName name = .ok t) (settled : t.registryName.Settled) : t.settle = t := by
  have named := ofRegistryName_settle t
  rw [registryName_settle, Text.settle_of_settled settled, ofRegistryName_registryName h] at named
  exact (Except.ok.inj named).symm

end SchemaType

/-- The value is an object with the name, the subject and the version; this may be any value. -/
def Json.Refers (j : Json) (name subject : Text) (version : Json) : Prop :=
  ∃ members, j = .object members ∧ member? members "name" = some (.string name) ∧
    member? members "subject" = some (.string subject) ∧
    member? members "version" = some version

/-- The value is an object with the fields of the reference. -/
def Json.Denotes (j : Json) (r : RegisteredReference) : Prop :=
  ∃ members, j = .object members ∧ member? members "name" = some (.string r.name) ∧
    member? members "subject" = some (.string r.subject) ∧
    member? members "version" = some (.int r.version)

namespace Envelope

/-- The object tells the type, the text and the references of the schema. -/
structure Tells (d : Envelope) (x : RegisteredSchema) : Prop where
  text : Json.member? d "schema" = some (.string x.text)
  type : ∃ name : Option Text, Json.member? d "schemaType" = name.map .string ∧
    SchemaType.ofRegistryName name = .ok x.type
  references : ∃ items : Option (List Json), Json.member? d "references" = items.map .array ∧
    List.Forall₂ Json.Denotes (items.getD []) x.references

variable {d : Envelope} {x y : RegisteredSchema}

/-! ## Reading -/

/-- Only the version is left to be checked. -/
theorem check_of_refers {j version : Json} {name subject : Text}
    (h : j.Refers name subject version) :
    RegisteredReference.check j =
      ((Check.natural version).under (.field "version")).map fun n => ⟨name, subject, n⟩ := by
  obtain ⟨members, rfl, hn, hs, hv⟩ := h
  unfold RegisteredReference.check Check.required
  dsimp only
  rw [hn, hs, hv]
  dsimp only
  cases Check.natural version <;> rfl

theorem check_of_denotes {j : Json} {r : RegisteredReference} (h : j.Denotes r) :
    RegisteredReference.check j = .ok r := by
  have natural : Check.natural (.int r.version) = .ok r.version := by
    simp [Check.natural, Check.integer]
  rw [check_of_refers h, natural]
  rfl

theorem mapM_check {items : List Json} {rs : List RegisteredReference}
    (h : List.Forall₂ Json.Denotes items rs) :
    items.mapM RegisteredReference.check = .ok rs := by
  induction h with
  | nil => rfl
  | cons first _ ih =>
    rw [List.mapM_cons, check_of_denotes first, ih]
    rfl

theorem Tells.schemaText_eq (h : Tells d x) : d.schemaText = .ok x.text := by
  unfold schemaText
  rw [h.text]

theorem Tells.schemaType_eq (h : Tells d x) : d.schemaType = x.type := by
  obtain ⟨name, member, type⟩ := h.type
  unfold schemaType
  rw [member]
  cases name with
  | none => exact Except.ok.inj type
  | some t =>
    simp only [SchemaType.ofRegistryName] at type
    split at type
    · rename_i ne
      exact (dif_pos ne).trans (Except.ok.inj type)
    · cases type

theorem Tells.references_eq (h : Tells d x) : Envelope.references d = .ok x.references := by
  obtain ⟨items, member, denoted⟩ := h.references
  unfold Envelope.references
  rw [member]
  have read := mapM_check denoted
  cases items with
  | none => exact congrArg _ (Except.ok.inj read)
  | some items =>
    show (items.mapM RegisteredReference.check).mapError _ = _
    rw [Option.getD_some] at read
    rw [read]
    rfl

/-- An object tells one schema only, but for its identifier. -/
theorem Tells.unique (h : Tells d x) (h' : Tells d y) (id : x.id = y.id) : x = y := by
  have text := h.schemaText_eq.symm.trans h'.schemaText_eq
  have references := h.references_eq.symm.trans h'.references_eq
  have type := h.schemaType_eq.symm.trans h'.schemaType_eq
  cases x
  cases y
  simp_all

/-- The object bears the identifier of the schema, or none. -/
def Bears (d : Envelope) (n : Nat) : Prop :=
  Json.member? d "id" = none ∨ d.member? "id" = some n

theorem schemaId_of_member {n : Nat} (h : d.member? "id" = some n) (requested : Option Int) :
    d.schemaId requested = .ok n := by
  unfold member? at h
  obtain ⟨v, hv, number⟩ := Option.bind_eq_some_iff.1 h
  unfold schemaId
  rw [hv]
  dsimp only
  rw [number]
  rfl

theorem Tells.schema_of_id (h : Tells d x) {requested : Option Int}
    (id : d.schemaId requested = .ok x.id) : d.schema requested = .ok x := by
  have natural : Check.natural (.int x.id) = .ok x.id := by simp [Check.natural, Check.integer]
  unfold schema
  rw [id, h.schemaText_eq, h.references_eq, h.schemaType_eq]
  simp only [bind, Except.bind]
  rw [natural]
  rfl

/-- The schema is read from an object that tells it and bears its identifier. -/
theorem Tells.schema_eq (h : Tells d x) (id : d.member? "id" = some x.id)
    (requested : Option Int) : d.schema requested = .ok x :=
  h.schema_of_id (schemaId_of_member id requested)

/-- The schema is read from what is told when it is asked for by its identifier. -/
theorem Tells.schema_requested (h : Tells d x) (id : d.Bears x.id) :
    d.schema (some x.id) = .ok x := by
  rcases id with absent | id
  · refine h.schema_of_id ?_
    unfold schemaId
    rw [absent]
  · exact h.schema_eq id _

theorem member?_of_schemaId {n : Int} (h : d.schemaId none = .ok n) :
    ∃ m : Nat, n = m ∧ d.member? "id" = some m := by
  unfold schemaId at h
  unfold member?
  cases hv : Json.member? d "id" with
  | none =>
    rw [hv] at h
    cases h
  | some v =>
    rw [hv] at h
    cases hm : number? v with
    | none =>
      simp only [hm, Option.map_none] at h
      cases h
    | some m =>
      simp only [hm, Option.map_some] at h
      cases h
      exact ⟨m, rfl, hm⟩

theorem eq_of_natural {i : Int} {n : Nat} (h : Check.natural (.int i) = .ok n) : i = n := by
  simp only [Check.natural, Check.integer] at h
  split at h
  · cases h
  · cases h
    omega

/-- A schema is made of the parts of its envelope. -/
theorem parts_of_schema {requested : Option Int} (h : d.schema requested = .ok x) :
    d.schemaId requested = .ok x.id ∧ d.schemaText = .ok x.text ∧
      Envelope.references d = .ok x.references := by
  unfold schema at h
  rcases hid : d.schemaId requested with f | id
  · rw [hid] at h
    cases h
  rcases htext : d.schemaText with f | text
  · rw [hid, htext] at h
    cases h
  rcases hrefs : Envelope.references d with f | refs
  · rw [hid, htext, hrefs] at h
    cases h
  rw [hid, htext, hrefs] at h
  simp only [bind, Except.bind] at h
  cases hn : Check.natural (.int id) with
  | error is =>
    rw [hn] at h
    cases h
  | ok n =>
    rw [hn] at h
    cases h
    exact ⟨congrArg _ (eq_of_natural hn), rfl, rfl⟩

theorem type_of_schema {requested : Option Int} (h : d.schema requested = .ok x) :
    x.type = d.schemaType := by
  obtain ⟨id, text, references⟩ := parts_of_schema h
  unfold schema at h
  rw [id, text, references] at h
  simp only [bind, Except.bind] at h
  split at h
  · exact (congrArg RegisteredSchema.type (Except.ok.inj h)).symm
  · cases h

/-- A schema that was not asked for by its identifier bears it. -/
theorem member?_of_schema (h : d.schema none = .ok x) : d.member? "id" = some x.id := by
  obtain ⟨m, same, member⟩ := member?_of_schemaId (parts_of_schema h).1
  rw [member, Int.ofNat_inj.1 same]

/-- The registry assigns no numbers beyond the bound. -/
theorem member?_lt {name : String} {n : Nat} (h : d.member? name = some n) : n < numberBound := by
  obtain ⟨v, -, hn⟩ := Option.bind_eq_some_iff.1 h
  cases v with
  | int i =>
    simp only [number?] at hn
    split at hn
    · cases hn
      omega
    · cases hn
  | _ => cases hn

/-! ## Failures -/

/-- An object that tells no schema could not be understood. -/
theorem parse_of_schema {requested : Option Int} {f : ResolutionError}
    (h : d.schema requested = .error f) : ∃ message cause, f = .parse message cause := by
  unfold schema at h
  rcases hid : d.schemaId requested with g | id
  · rw [hid] at h
    cases h
    unfold schemaId at hid
    grind
  rcases htext : d.schemaText with g | text
  · rw [hid, htext] at h
    cases h
    unfold schemaText at htext
    grind
  rcases hrefs : Envelope.references d with g | refs
  · rw [hid, htext, hrefs] at h
    cases h
    unfold references at hrefs
    split at hrefs
    · rename_i items _
      cases hm : items.mapM RegisteredReference.check <;> rw [hm] at hrefs <;> cases hrefs
      exact ⟨_, _, rfl⟩
    · cases hrefs
  rw [hid, htext, hrefs] at h
  simp only [bind, Except.bind] at h
  split at h
  · cases h
  · cases h
    exact ⟨_, _, rfl⟩

/-- A body without a document could not be understood, or it is nested too deeply. -/
theorem failure_of_document {bytes : Bytes} {f : Failure} (h : document bytes = .error f) :
    (∃ e, f = .resolution e ∧ e.Raw ∧ e.Final) ∨ ∃ message, f = .foreign ⟨.nesting, message⟩ := by
  unfold document at h
  split at h
  · cases h
    exact .inl ⟨_, rfl, .parse _ _ (by simp), rfl, rfl⟩
  · rename_i cs _
    cases hr : Json.read Json.maxNesting (.ofChars cs) with
    | ok j =>
      rw [hr] at h
      cases h
    | error e =>
      rw [hr] at h
      cases e <;> cases h
      · exact .inl ⟨_, rfl, .parse _ _ (by simp), rfl, rfl⟩
      · exact .inl ⟨_, rfl, .parse _ _ (by simp), rfl, rfl⟩
      · exact .inr ⟨_, rfl⟩

/-- A response without an envelope has another status or a body that could not be understood, or its
body is nested too deeply. -/
theorem failure_of_response {r : Response} {f : Failure} (h : ofResponse r = .error f) :
    (∃ e, f = .resolution e ∧ e.Raw ∧ e.Final) ∨
      ∃ message, f = .foreign ⟨.nesting, message⟩ ∧ document r.body = .error f := by
  unfold ofResponse at h
  split at h
  · cases h
    exact .inl ⟨_, rfl, .status _, rfl, rfl⟩
  · split at h
    · rename_i g hg
      cases h
      rcases failure_of_document hg with raw | ⟨message, rfl⟩
      · exact .inl raw
      · exact .inr ⟨message, rfl, hg⟩
    · cases h
    · cases h
      exact .inl ⟨_, rfl, .parse _ _ (by simp), rfl, rfl⟩

/-- A response without an envelope is an error that no retry cures, or its body fails to be read for
a foreign reason. -/
theorem failure_of_ofResponse {r : Response} {f : Failure} (h : ofResponse r = .error f) :
    (∃ g, f = .resolution g ∧ g.Final) ∨
      ∃ g, f = .foreign g ∧ document r.body = .error (.foreign g) := by
  rcases failure_of_response h with ⟨e, rfl, -, final⟩ | ⟨message, rfl, unread⟩
  · exact .inl ⟨e, rfl, final⟩
  · exact .inr ⟨_, rfl, unread⟩

theorem raw_of_id {e : ResolutionError} (h : d.id = .error e) : e.Raw := by
  unfold Envelope.id at h
  split at h
  · cases h
  · cases h
    exact .parse _ _ (by simp)

theorem raw_of_version {e : ResolutionError} (h : d.version = .error e) : e.Raw := by
  unfold Envelope.version at h
  split at h
  · cases h
  · cases h
    exact .parse _ _ (by simp)

/-! ## Registration -/

/-- The members of a record that remain after the first one. -/
theorem member?_cons (k key : String) (v : Json) (members : List (Text × Json)) :
    Json.member? ((Text.ofString k, v) :: members) key =
      if k = key then some v else Json.member? members key := by
  unfold Json.member?
  rw [Assoc.get?_cons]
  exact ite_congr (propext ⟨Text.ofString_injective, congrArg _⟩) (fun _ => rfl) fun _ => rfl

theorem denotes_toJson (r : RegisteredReference) : r.toJson.Denotes r := by
  refine ⟨_, rfl, ?_, ?_, ?_⟩ <;> simp [member?_cons]

/-- The members of the document that registers a schema. -/
def registered (x : RegisteredSchema) : Envelope :=
  (Text.ofString "schema", .string x.text) ::
    (Text.ofString "schemaType", .string x.type.registryName) ::
      if x.references.isEmpty then []
      else [(Text.ofString "references", .array (x.references.map (·.toJson)))]

theorem registration_eq (x : RegisteredSchema) :
    registration x.type x.text x.references = .object (registered x) := by
  unfold registration registered Json.record
  split <;> rfl

/-- What registers a schema tells it. -/
theorem tells_registered {x : RegisteredSchema}
    (type : SchemaType.ofRegistryName (some x.type.registryName) = .ok x.type) :
    Tells (registered x) x := by
  have denoted : List.Forall₂ Json.Denotes (x.references.map (·.toJson)) x.references := by
    rw [List.forall₂_map_left_iff]
    exact List.forall₂_same.2 fun r _ => denotes_toJson r
  unfold registered
  refine ⟨?_, ⟨some x.type.registryName, ?_, type⟩, ?_⟩
  · simp [member?_cons]
  · simp [member?_cons]
  · split
    · rename_i empty
      refine ⟨none, ?_, ?_⟩
      · simp [member?_cons]
        rfl
      · rw [List.isEmpty_iff.1 empty]
        exact .nil
    · exact ⟨some _, by simp [member?_cons], denoted⟩

/-! ## Documents -/

theorem document_write {v : Json} (h : v.Legible Json.maxNesting) :
    document (Utf8.encode (Json.write Json.spaced v)) = .ok v := by
  unfold document
  rw [Json.decode_write Json.spaced_clear h]
  dsimp only
  rw [Json.read_write Json.spaced_clear h]
  rfl

theorem ofResponse_document {body : Bytes} {members : Envelope}
    (h : document body = .ok (.object members)) : ofResponse ⟨200, body⟩ = .ok members := by
  unfold ofResponse
  rw [if_neg (by simp)]
  dsimp only
  rw [h]

/-- A number of the registry is short enough for a document. -/
theorem length_toDigits_le {n : Nat} (h : n < numberBound) :
    (Nat.toDigits 10 (Int.natAbs n)).length ≤ Json.maxDigits := by
  refine (Nat.length_toDigits_le_iff (by decide) (by decide)).2 ?_
  refine Nat.lt_of_lt_of_le (m := 10 ^ 10) ?_ (Nat.pow_le_pow_right (by decide) (by decide))
  unfold numberBound at h
  omega

end Envelope

/-- The fields of the reference are what a document can carry. -/
structure RegisteredReference.Plain (r : RegisteredReference) : Prop where
  name : r.name.Settled
  subject : r.subject.Settled
  version : r.version < Envelope.numberBound

/-- The schema is what a document can carry. -/
structure RegisteredSchema.Plain (x : RegisteredSchema) : Prop where
  type : SchemaType.ofRegistryName (some x.type.registryName) = .ok x.type
  name : x.type.registryName.Settled
  text : x.text.Settled
  references : ∀ r ∈ x.references, r.Plain

namespace Envelope

theorem legible_toJson {r : RegisteredReference} (h : r.Plain) (levels : Nat) :
    r.toJson.Legible (levels + 1) := by
  have distinct :
      [Text.ofString "name", Text.ofString "subject", Text.ofString "version"].Nodup := by
    decide
  have fields : r.toJson = .object [(Text.ofString "name", .string r.name),
      (Text.ofString "subject", .string r.subject), (Text.ofString "version", .int r.version)] :=
    rfl
  rw [fields]
  exact ⟨distinct, Text.settled_ofChars _, h.name, Text.settled_ofChars _, h.subject,
    Text.settled_ofChars _, length_toDigits_le h.version, trivial⟩

theorem legibleItems_toJson {rs : List RegisteredReference} (h : ∀ r ∈ rs, r.Plain) (levels : Nat) :
    Json.LegibleItems (levels + 1) (rs.map (·.toJson)) := by
  induction rs with
  | nil => trivial
  | cons r rs ih =>
    exact ⟨legible_toJson (h r (.head _)) levels, ih fun s hs => h s (.tail _ hs)⟩

theorem legible_registered {x : RegisteredSchema} (h : x.Plain) :
    (Json.object (registered x)).Legible Json.maxNesting := by
  have items := legibleItems_toJson h.references 987
  have two : [Text.ofString "schema", Text.ofString "schemaType"].Nodup := by decide
  have three : [Text.ofString "schema", Text.ofString "schemaType",
      Text.ofString "references"].Nodup := by
    decide
  unfold registered
  split
  · exact ⟨two, Text.settled_ofChars _, h.text, Text.settled_ofChars _, h.name, trivial⟩
  · exact ⟨three, Text.settled_ofChars _, h.text, Text.settled_ofChars _, h.name,
      Text.settled_ofChars _, items, trivial⟩

/-- What registers a schema is read back from its bytes. -/
theorem document_registration {x : RegisteredSchema} (h : x.Plain) :
    document (Utf8.encode (Json.write Json.spaced (registration x.type x.text x.references))) =
      .ok (.object (registered x)) := by
  rw [registration_eq]
  exact document_write (legible_registered h)

/-- What registers a schema has no identifier. -/
theorem member?_id_registered (x : RegisteredSchema) :
    Json.member? (registered x) "id" = none := by
  unfold registered
  split <;> simp [member?_cons] <;> rfl

theorem bears_registered (x : RegisteredSchema) (n : Nat) : Bears (registered x) n :=
  .inl (member?_id_registered x)

/-- A document is written alike with the settled forms of its strings. -/
theorem write_registration_settle (l : Json.Layout) (type : SchemaType) (text : Text)
    (references : List RegisteredReference) :
    Json.write l (registration type.settle text.settle references) =
      Json.write l (registration type text references) := by
  have texts : Json.writeText text.settle = Json.writeText text := by
    rw [Json.writeText, Json.writeText, Text.escape_settle]
  have names : Json.writeText type.settle.registryName = Json.writeText type.registryName := by
    rw [SchemaType.registryName_settle, Json.writeText, Json.writeText, Text.escape_settle]
  unfold registration Json.record
  cases references <;> simp [Json.write, Json.writeMembers, texts, names]

end Envelope

/-- The schema as documents give it back after it was registered. -/
def RegisteredSchema.settled (id : Nat) (type : SchemaType) (text : Text)
    (references : List RegisteredReference) : RegisteredSchema :=
  ⟨id, type.settle, text.settle, references⟩

namespace RegisteredSchema

variable {x : RegisteredSchema}

/-- The schema with the type and the text that documents give back. -/
def settle (x : RegisteredSchema) : RegisteredSchema := settled x.id x.type x.text x.references

/-- A schema is settled if its type has a settled name in the registry and its text is settled. -/
theorem settle_eq {name : Option Text} (type : SchemaType.ofRegistryName name = .ok x.type)
    (named : x.type.registryName.Settled) (text : x.text.Settled) : x.settle = x := by
  unfold settle settled
  rw [SchemaType.settle_of_settled type named, Text.settle_of_settled text]

theorem plain_settled (id : Nat) (type : SchemaType) (text : Text)
    {references : List RegisteredReference} (h : ∀ r ∈ references, r.Plain) :
    (settled id type text references).Plain where
  type := type.ofRegistryName_settle
  name := by
    rw [settled, SchemaType.registryName_settle]
    exact Text.settled_settle _
  text := Text.settled_settle _
  references := h

end RegisteredSchema

namespace Envelope

variable {r : Response} {d : Envelope}

/-- The strings in an envelope are settled. -/
theorem settled_of_ofResponse (h : ofResponse r = .ok d) {name : String} {t : Text}
    (member : Json.member? d name = some (.string t)) : t.Settled := by
  have readable : Json.Readable Json.maxNesting (.object d) := by
    unfold ofResponse at h
    split at h
    · cases h
    · split at h
      · cases h
      · rename_i members hd
        cases h
        unfold document at hd
        split at hd
        · cases hd
        · exact Json.readable_of_read (of_mapError_ok hd)
      · cases h
  exact (Json.readableMembers_iff.1 readable.2 _ (Assoc.mem_of_get? member)).2

/-- A schema that is read from a response is as documents give it back. -/
theorem settle_of_schema (h : ofResponse r = .ok d) {requested : Option Int}
    {x : RegisteredSchema} (read : d.schema requested = .ok x) : x.settle = x := by
  have text : x.text.Settled := by
    have told := (parts_of_schema read).2.1
    unfold schemaText at told
    split at told
    · rename_i t member
      cases told
      exact settled_of_ofResponse h member
    · cases told
  obtain ⟨name, type, named⟩ : ∃ name, SchemaType.ofRegistryName name = .ok x.type ∧
      x.type.registryName.Settled := by
    rw [type_of_schema read]
    unfold schemaType
    split
    · rename_i t member
      split
      · rename_i ne
        refine ⟨some t, dif_pos ne, ?_⟩
        rw [SchemaType.registryName_ofName]
        exact settled_of_ofResponse h member
      · exact ⟨none, rfl, by decide⟩
    · exact ⟨none, rfl, by decide⟩
  exact RegisteredSchema.settle_eq type named text

end Envelope

end Registrar
