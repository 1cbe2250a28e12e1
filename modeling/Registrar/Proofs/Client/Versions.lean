import Registrar.Proofs.Client.Plans

/-!
# How versions come in

The registry assigns a version when it answers a registration, and it cites versions in the
envelopes of schemas that have references. The first way is strict: a version is an integer below
the bound. The other way is not, since it validates as documents are validated: truth values,
floating-point numbers without a fraction and texts pass for integers there, and no integer is too
large. Apart from the values that are mistaken so, both ways take the same values for the same
versions.
-/

namespace Registrar

/-! ## Values for versions -/

/-- The value is the number `n`, as the registry assigns numbers. -/
def Json.Assigns (v : Json) (n : Nat) : Prop := v = .int n ∧ n < Envelope.numberBound

/-- The value is no number that the registry assigns, but passes for `n` when a document is
validated. -/
inductive Json.TakenFor : Json → Nat → Prop where
  | large {n : Nat} (h : Envelope.numberBound ≤ n) : TakenFor (.int n) n
  | bool (b : Bool) : TakenFor (.bool b) b.toNat
  | float {x : Binary64} {n : Nat} (value : x.toInt? = some (n : Int))
    (h : n < 0x8000000000000000) : TakenFor (.float x) n
  | string {t : Text} {cs : List Char} {n : Nat} (ordinary : t.toChars = .ok cs)
    (value : Loose.read t = .ok (n : Int)) : TakenFor (.string t) n

variable {v : Json} {m n : Nat}

theorem Json.Assigns.not_takenFor (h : v.Assigns m) : ¬ v.TakenFor n := by
  obtain ⟨rfl, small⟩ := h
  intro taken
  cases taken with
  | large large => omega

theorem Envelope.number?_eq_some : number? v = some n ↔ v.Assigns n := by
  unfold Json.Assigns
  cases v with
  | int i =>
    simp only [number?, Option.ite_none_right_eq_some, Option.some.injEq, Json.int.injEq]
    omega
  | _ => simp [number?]

namespace Check

theorem isFinite_of_toInt? {x : Binary64} {i : Int} (h : x.toInt? = some i) :
    x.isFinite = true := by
  cases x with
  | finite => rfl
  | _ => cases h

theorem integerFloat_eq_ok {x : Binary64} :
    integerFloat x = .ok (n : Int) ↔ x.toInt? = some (n : Int) ∧ n < 0x8000000000000000 := by
  unfold integerFloat
  constructor
  · intro h
    split at h
    · cases h
    split at h
    · cases h
    split at h
    · cases h
      rename_i value range
      exact ⟨value, by omega⟩
    · cases h
  · rintro ⟨value, small⟩
    have range : -0x8000000000000000 < (n : Int) ∧ (n : Int) < 0x8000000000000000 := by omega
    simp [isFinite_of_toInt? value, value, range]

theorem integerText_eq_ok {t : Text} {i : Int} :
    integerText t = .ok i ↔ (∃ cs, t.toChars = .ok cs) ∧ Loose.read t = .ok i := by
  unfold integerText
  rcases t.toChars with u | cs
  · simp [Checked.fail]
  · rcases Loose.read t with (_ | _) | j <;> simp [Checked.fail]

theorem natural_eq_ok_iff_integer : natural v = .ok n ↔ integer v = .ok (n : Int) := by
  unfold natural
  rcases integer v with is | i
  · simp
  · dsimp only
    split
    · simp only [Checked.fail, reduceCtorEq, Except.ok.injEq, false_iff]
      omega
    · simp only [Except.ok.injEq]
      omega

/-- What documents have for the number `n` is assigned or mistaken for it. -/
theorem natural_eq_ok : natural v = .ok n ↔ v.Assigns n ∨ v.TakenFor n := by
  rw [natural_eq_ok_iff_integer]
  constructor
  · intro h
    cases v with
    | int i =>
      obtain rfl : i = n := Except.ok.inj h
      rcases Int.lt_or_le n Envelope.numberBound with small | large
      · exact .inl ⟨rfl, small⟩
      · exact .inr (.large large)
    | bool b =>
      have value : (if b then 1 else 0 : Int) = n := Except.ok.inj h
      obtain rfl : b.toNat = n := by
        cases b <;> simp at value ⊢ <;> omega
      exact .inr (.bool b)
    | float x =>
      obtain ⟨value, small⟩ := integerFloat_eq_ok.1 h
      exact .inr (.float value small)
    | string t =>
      obtain ⟨⟨cs, ordinary⟩, value⟩ := integerText_eq_ok.1 h
      exact .inr (.string ordinary value)
    | _ => cases h
  · rintro (⟨rfl, -⟩ | taken)
    · rfl
    · cases taken with
      | large => rfl
      | bool b => cases b <;> rfl
      | float value small => exact integerFloat_eq_ok.2 ⟨value, small⟩
      | string ordinary value => exact integerText_eq_ok.2 ⟨⟨_, ordinary⟩, value⟩

/-- There is one thing wrong with what is no number. -/
theorem problem_of_natural {is : List Issue} (h : natural v = .error is) :
    ∃ p : Problem, is = [⟨[], p⟩] := by
  have single {p : Problem} {is : List Issue} {α : Type}
      (h : (Checked.fail p : Checked α) = .error is) : ∃ p : Problem, is = [⟨[], p⟩] :=
    ⟨p, (Except.error.inj h).symm⟩
  unfold natural at h
  split at h
  · split at h
    · exact single h
    · cases h
  · rename_i js failed
    cases h
    unfold integer integerFloat integerText at failed
    grind

end Check

/-! ## References in envelopes -/

theorem Checked.of_both_ok {α β : Type} {a : Checked α} {b : Checked β} {p : α × β}
    (h : both a b = .ok p) : a = .ok p.1 ∧ b = .ok p.2 := by
  unfold both at h
  split at h <;> cases h
  exact ⟨rfl, rfl⟩

theorem Check.of_required_ok {α : Type} {members : List (Text × Json)} {name : String}
    {check : Json → Checked α} {a : α} (h : required members name check = .ok a) :
    ∃ v, Json.member? members name = some v ∧ check v = .ok a := by
  unfold required at h
  split at h
  · cases h
  · rename_i v member
    exact ⟨v, member, of_mapError_ok h⟩

theorem Check.of_string_ok {j : Json} {t : Text} (h : string j = .ok t) : j = .string t := by
  cases j <;> cases h
  rfl

/-- What is checked to be a reference is an object with its name, its subject and a value for its
version. -/
theorem RegisteredReference.of_check {j : Json} {r : RegisteredReference} (h : check j = .ok r) :
    ∃ v, j.Refers r.name r.subject v ∧ Check.natural v = .ok r.version := by
  unfold check at h
  split at h
  · rename_i members
    obtain ⟨⟨name, subject, version⟩, fields, rfl⟩ := of_map_ok h
    obtain ⟨first, others⟩ := Checked.of_both_ok fields
    obtain ⟨second, third⟩ := Checked.of_both_ok others
    obtain ⟨jn, hn, isName⟩ := Check.of_required_ok first
    obtain ⟨js, hs, isSubject⟩ := Check.of_required_ok second
    obtain ⟨v, hv, isVersion⟩ := Check.of_required_ok third
    rw [Check.of_string_ok isName] at hn
    rw [Check.of_string_ok isSubject] at hs
    exact ⟨v, ⟨members, rfl, hn, hs, hv⟩, isVersion⟩
  · cases h

/-- What is mapped successfully was mapped item by item. -/
theorem exists_of_mapM_ok {α β ε : Type} {f : α → Except ε β} {as : List α} {bs : List β}
    (h : as.mapM f = .ok bs) {b : β} (hb : b ∈ bs) : ∃ a ∈ as, f a = .ok b := by
  induction as generalizing bs with
  | nil =>
    cases h
    cases hb
  | cons a as ih =>
    rw [List.mapM_cons] at h
    obtain ⟨b', first, h⟩ := of_bind_ok h
    obtain ⟨bs', others, h⟩ := of_bind_ok h
    cases h
    rcases List.mem_cons.1 hb with rfl | hb
    · exact ⟨a, .head _, first⟩
    · obtain ⟨a', ha', ok⟩ := ih others hb
      exact ⟨a', .tail _ ha', ok⟩

namespace Envelope

variable {d : Envelope} {requested : Option Int} {x : RegisteredSchema}

/-- A version in a schema that was read from an envelope is below the bound, or it stands for a
value that was mistaken for it. -/
theorem cited_of_schema (h : d.schema requested = .ok x) {r : RegisteredReference}
    (hr : r ∈ x.references) : ∃ items j v, Json.member? d "references" = some (.array items) ∧
      j ∈ items ∧ j.Refers r.name r.subject v ∧ (v.Assigns r.version ∨ v.TakenFor r.version) := by
  obtain ⟨-, -, references⟩ := parts_of_schema h
  unfold Envelope.references at references
  split at references
  · rename_i items member
    obtain ⟨j, hj, checked⟩ := exists_of_mapM_ok (of_mapError_ok references) hr
    obtain ⟨v, refers, natural⟩ := RegisteredReference.of_check checked
    exact ⟨items, j, v, member, hj, refers, Check.natural_eq_ok.1 natural⟩
  · rw [← Except.ok.inj references] at hr
    cases hr

/-- The identifier of a schema is below the bound if the one that was asked for is. -/
theorem id_lt_of_schema (h : d.schema requested = .ok x)
    (small : ∀ id ∈ requested, id < numberBound) : x.id < numberBound := by
  have id := (parts_of_schema h).1
  unfold schemaId at id
  cases member : Json.member? d "id" with
  | none =>
    rw [member] at id
    cases requested with
    | none => cases id
    | some i => exact Except.ok.inj id ▸ small i rfl
  | some v =>
    rw [member] at id
    cases number : number? v with
    | none =>
      simp only [number, Option.map_none] at id
      cases id
    | some n =>
      simp only [number, Option.map_some] at id
      obtain rfl : n = x.id := Int.ofNat_inj.1 (Except.ok.inj id)
      exact (number?_eq_some.1 number).2

end Envelope

/-! ## The two ways -/

/-- A schema but for the version in one of its references. -/
structure Citation where
  id : Nat
  type : SchemaType
  text : Text
  before : List RegisteredReference
  name : Text
  subject : Text
  after : List RegisteredReference

/-- The schema with the version. -/
def Citation.schema (c : Citation) (n : Nat) : RegisteredSchema :=
  ⟨c.id, c.type, c.text, c.before ++ ⟨c.name, c.subject, n⟩ :: c.after⟩

theorem Citation.schema_injective {c : Citation} (h : c.schema m = c.schema n) : m = n := by
  have references := congrArg RegisteredSchema.references h
  have last := List.append_cancel_left references
  exact congrArg RegisteredReference.version (List.cons.inj last).1

namespace Envelope

/-- The schema is read from the envelope, which was asked for by the identifier `requested`, if by
any, up to the one version, for which there is the value `v`. -/
structure Cites (d : Envelope) (requested : Option Int) (c : Citation) (v : Json) : Prop where
  id : d.schemaId requested = .ok c.id
  type : d.schemaType = c.type
  text : d.schemaText = .ok c.text
  references : ∃ front j back, Json.member? d "references" = some (.array (front ++ j :: back)) ∧
    front.mapM RegisteredReference.check = .ok c.before ∧ j.Refers c.name c.subject v ∧
    back.mapM RegisteredReference.check = .ok c.after

variable {d answer : Envelope} {requested : Option Int} {c : Citation}

/-- The error for a reference that is malformed. -/
def malformed (is : List Issue) : ResolutionError :=
  .parse "Error parsing reference" (some (Issue.textAll is))

/-- It is up to the value which schema is read. -/
theorem Cites.schema_eq (h : d.Cites requested c v) :
    d.schema requested =
      (((Check.natural v).under (.field "version")).mapError malformed).map c.schema := by
  have natural : Check.natural (.int c.id) = .ok c.id := by simp [Check.natural, Check.integer]
  obtain ⟨front, j, back, member, before, refers, after⟩ := h.references
  have items : (front ++ j :: back).mapM RegisteredReference.check =
      ((Check.natural v).under (.field "version")).map
        fun n => c.before ++ ⟨c.name, c.subject, n⟩ :: c.after := by
    rw [List.mapM_append, List.mapM_cons, before, after, check_of_refers refers]
    cases Check.natural v <;> rfl
  have references : d.references =
      (((Check.natural v).under (.field "version")).mapError malformed).map
        fun n => c.before ++ ⟨c.name, c.subject, n⟩ :: c.after := by
    unfold Envelope.references
    rw [member]
    dsimp only
    rw [items]
    cases Check.natural v <;> rfl
  unfold schema
  rw [h.id, h.text, references, h.type]
  cases Check.natural v with
  | error is => rfl
  | ok n =>
    simp only [bind, Except.bind, natural]
    rfl

/-- How the value `v` fares as the version in the answer to a registration and as the one in an
envelope, where the other references are well-formed. -/
structure Ways (answer d : Envelope) (requested : Option Int) (c : Citation) (v : Json) : Prop where
  assigned : ∀ n, answer.version = .ok n ↔ v.Assigns n
  refused : (∀ n, ¬ v.Assigns n) →
    answer.version = .error (.parse "Could not get version from response" none)
  cited : ∀ n, d.schema requested = .ok (c.schema n) ↔ v.Assigns n ∨ v.TakenFor n
  malformed : (∀ n, ¬ v.Assigns n ∧ ¬ v.TakenFor n) → ∃ p : Problem,
    d.schema requested = .error (.parse "Error parsing reference"
      (some (Issue.textAll [⟨[.field "version"], p⟩])))
  /-- The two ways differ for values that are mistaken, and for no others. -/
  agree : (∀ n, answer.version = .ok n ↔ d.schema requested = .ok (c.schema n)) ↔
    ∀ n, ¬ v.TakenFor n

theorem version_eq_ok (h : Json.member? answer "version" = some v) :
    answer.version = .ok n ↔ v.Assigns n := by
  rw [← number?_eq_some]
  unfold version member?
  rw [h]
  cases number : number? v <;> simp [number]

theorem version_eq_error (h : Json.member? answer "version" = some v)
    (none : ∀ n, ¬ v.Assigns n) :
    answer.version = .error (.parse "Could not get version from response" .none) := by
  unfold version member?
  rw [h]
  cases number : number? v with
  | none => simp [number]
  | some n => exact (none n (number?_eq_some.1 number)).elim

theorem Cites.schema_eq_ok (h : d.Cites requested c v) :
    d.schema requested = .ok (c.schema n) ↔ v.Assigns n ∨ v.TakenFor n := by
  rw [← Check.natural_eq_ok, h.schema_eq]
  cases Check.natural v with
  | error is => constructor <;> rintro ⟨⟩
  | ok m =>
    constructor
    · intro same
      rw [Citation.schema_injective (Except.ok.inj same)]
    · rintro ⟨⟩
      rfl

theorem Cites.schema_eq_error (h : d.Cites requested c v)
    (none : ∀ n, ¬ v.Assigns n ∧ ¬ v.TakenFor n) : ∃ p : Problem,
    d.schema requested = .error (.parse "Error parsing reference"
      (some (Issue.textAll [⟨[.field "version"], p⟩]))) := by
  rw [h.schema_eq]
  cases natural : Check.natural v with
  | ok n => exact (not_or.2 (none n) (Check.natural_eq_ok.1 natural)).elim
  | error is =>
    obtain ⟨p, rfl⟩ := Check.problem_of_natural natural
    exact ⟨p, rfl⟩

theorem ways (member : Json.member? answer "version" = some v) (cites : d.Cites requested c v) :
    Ways answer d requested c v where
  assigned _ := version_eq_ok member
  refused := version_eq_error member
  cited _ := cites.schema_eq_ok
  malformed := cites.schema_eq_error
  agree := by
    refine forall_congr' fun n => ?_
    rw [version_eq_ok member, cites.schema_eq_ok]
    constructor
    · intro same taken
      exact (same.2 (.inr taken)).not_takenFor taken
    · intro untaken
      simp [untaken]

end Envelope

/-! ## What a client gives -/

/-- Whatever holds of all ends of a program holds of them also with what it has done. -/
theorem Program.Ends.proceeds {σ α : Type} {I : Interface} {Q : α → Prop} {p : Program σ I α}
    (h : p.Ends Q) (es : List (Act σ I)) :
    p.Proceeds (fun _ => True) (fun _ a => Q a) es := by
  induction p generalizing es with
  | done a => exact h
  | update f next ih => exact fun s => ih s (h s) _
  | ask c next ih => exact ⟨trivial, fun r => ih r (h r) _⟩
  | await c next ih => exact ⟨trivial, fun w => ih w (h w) _⟩
  | acquire l next ih => exact fun w => ih w (h w) _
  | release l next ih => exact fun u => ih u (h u) _

namespace Client

open Act Routine

variable {settings : Settings}

/-- The request was answered with an envelope that has, for the version of the reference, a value
that is mistaken for it. -/
def Misstates (a : Act State Exchange.interface) (r : RegisteredReference) : Prop :=
  ∃ response d items j v, a.reply? = some (.value (.ok response)) ∧
    Envelope.ofResponse response = .ok d ∧ Json.member? d "references" = some (.array items) ∧
    j ∈ items ∧ j.Refers r.name r.subject v ∧ v.TakenFor r.version

/-- After the acts the numbers in the schema are below the bound, but for versions that were
misstated. -/
structure Bounded (es : List (Act State Exchange.interface)) (y : RegisteredSchema) : Prop where
  id : y.id < Envelope.numberBound
  versions : ∀ r ∈ y.references, r.version < Envelope.numberBound ∨ ∃ a ∈ calls es, Misstates a r

/-- The operations of a client that give schemas. An identifier that is asked for is below the
bound. -/
inductive Inquiry {I : Interface} (c : Client I) : Routine I RegisteredSchema → Prop where
  | fetchById {id : Int} (h : id < Envelope.numberBound) : Inquiry c (c.fetchById id)
  | fetchByIdAndType {id : Int} (h : id < Envelope.numberBound) (type : SchemaType) :
    Inquiry c (c.fetchByIdAndType id type)
  | fetchBySubject (n : Naming) : Inquiry c (c.fetchBySubject n)
  | fetchReference (r : RegisteredReference) : Inquiry c (c.fetchReference r)
  | register (subject : Text) (x : SuppliedSchema) : Inquiry c (c.register subject x)

/-- Whenever the routine gives a schema, its numbers are below the bound, but for versions that were
misstated. -/
def Bounds (x : Routine Exchange.interface RegisteredSchema) : Prop :=
  x.run.Proceeds (fun _ => True) (fun es r => ∀ y, r = .ok y → Bounded es y) []

theorem Bounds.operation {name : String} {x : Routine Exchange.interface RegisteredSchema}
    (h : Bounds x) : Bounds (operation name x) := by
  refine proceeds_operation h fun es s t r ended y hy => ?_
  obtain ⟨id, versions⟩ := ended y hy
  refine ⟨id, ?_⟩
  rwa [calls_changed]

theorem bounds_lookup (r : Resource) {requested : Option Int}
    (small : ∀ id ∈ requested, id < Envelope.numberBound) :
    Bounds (do
      let envelope ← (direct settings).send r none
      resolving (envelope.schema requested)) := by
  refine proceeds_field r none _ trivial (fun e _ y hy => by cases hy)
    fun url w changes address marked y hy => ?_
  obtain ⟨response, d, rfl, read, given⟩ := of_reading_ok hy
  refine ⟨Envelope.id_lt_of_schema given small, fun r hr => ?_⟩
  obtain ⟨items, j, v, member, hj, refers, value⟩ := Envelope.cited_of_schema given hr
  rcases value with assigned | taken
  · exact .inl assigned.2
  · -- The one request that was made has misstated the version.
    refine .inr ⟨_, ?_, response, d, items, j, v, reply?_request url _ none, read, member, hj,
      refers, taken⟩
    rw [calls_request marked.quiet]
    exact List.mem_append_right _ (.head _)

theorem bounds_fetchById {id : Int} (small : id < Envelope.numberBound) :
    Bounds ((direct settings).fetchById id) :=
  (bounds_lookup (.schemaById id) (by simpa using small)).operation

theorem id_lt {d : Envelope} {n : Nat} (h : d.id = .ok n) : n < Envelope.numberBound := by
  unfold Envelope.id at h
  split at h
  · cases h
    exact Envelope.member?_lt ‹_›
  · cases h

/-- A registration gives what the registry has assigned. -/
theorem bounds_register (subject : Text) (x : SuppliedSchema) :
    Bounds ((direct settings).register subject x) := by
  refine Bounds.operation ?_
  have gives : Gives (fun y => y.id < Envelope.numberBound ∧ ∀ r ∈ y.references, r.Plain)
      (do
        let references ← (direct settings).registerForest x.type x.references
        (direct settings).posting subject x references) := by
    refine (gives_registerForest _ x.type x.references).bind fun references plain => ?_
    refine (gives_anything _).bind fun envelope _ => ?_
    refine (gives_resolving fun n => id_lt (n := n)).bind fun id small => ?_
    exact (gives_anything _).bind fun _ _ => gives_pure ⟨small, plain⟩
  refine (Program.Ends.proceeds gives []).imp fun r es ended y hy => ?_
  obtain ⟨small, plain⟩ := ended y hy
  exact ⟨small, fun r hr => .inl (plain r hr).version⟩

theorem Inquiry.bounds {x : Routine Exchange.interface RegisteredSchema}
    (h : Inquiry (direct settings) x) : Bounds x := by
  cases h with
  | fetchById small => exact bounds_fetchById small
  | @fetchByIdAndType id small type =>
    refine Bounds.operation ?_
    unfold Bounds
    rw [Routine.run_bind]
    refine (bounds_fetchById small).bind fun r es ended => ?_
    cases r with
    | error f => exact ended
    | ok x =>
      show Program.Proceeds _ _ (ExceptT.run (if x.type ≠ type then _ else _)) _
      split
      · rintro y ⟨⟩
      · exact ended
  | fetchBySubject n =>
    refine Bounds.operation ?_
    cases hs : n.subject with
    | error e => rintro y ⟨⟩
    | ok subject =>
      cases hx : n.schema with
      | none => exact bounds_lookup (.latest subject) (by simp)
      | some x => exact bounds_register subject x
  | fetchReference r => exact (bounds_lookup (.version r.subject r.version) (by simp)).operation
  | register subject x => exact bounds_register subject x

/-- In the answer to a registration a version is an integer from zero up to the bound, and whatever
else stands there is refused. In the references of an envelope such integers are versions as well,
but so is what is mistaken for one: a larger integer, a truth value, a floating-point number without
a fraction, or a text that denotes one; the rest is refused there too. The two ways agree on a value
exactly if it is not mistaken for any version. And when an operation of a client gives a schema,
its identifier is below the bound, and so is each version that no response has misstated. -/
theorem versions_assigned (settings : Settings) :
    (∀ (answer d : Envelope) (requested : Option Int) (c : Citation) (v : Json),
      Json.member? answer "version" = some v → d.Cites requested c v →
        Envelope.Ways answer d requested c v) ∧
    ∀ (x : Routine Exchange.interface RegisteredSchema) (es : List (Act State Exchange.interface))
      (y : RegisteredSchema),
      Inquiry (direct settings) x → Program.Path x.run es (.done (.ok y)) → Bounded es y :=
  ⟨fun _ _ _ _ _ member cites => Envelope.ways member cites,
    fun _ _ y inquiry path => inquiry.bounds.path path y rfl⟩

/-! ### A schema with one reference -/

/-- A schema that has one reference. -/
def single : Citation := ⟨1, .avro, "x", [], "a", "b", []⟩

/-- Its envelope, with the value for the version of the reference. -/
def citing (v : Json) : Envelope :=
  [(.ofString "schema", .string "x"),
   (.ofString "references",
    .array [.record [("name", .string "a"), ("subject", .string "b"), ("version", v)]])]

theorem cites_citing (v : Json) : (citing v).Cites (some 1) single v where
  id := rfl
  type := rfl
  text := rfl
  references := by
    refine ⟨[], _, [], rfl, rfl, ⟨_, rfl, ?_, ?_, ?_⟩, rfl⟩ <;>
      simp [Envelope.member?_cons, single]

/-- A world in which every request is answered with the envelope. -/
def stating (v : Json) : Program.World Exchange.interface Unit :=
  steady (.ok ⟨200, Utf8.encode (Json.write Json.spaced (.object (citing v)))⟩)

/-- The version seven comes in both ways, and a client gives it. -/
theorem versions_assigned_seven :
    Envelope.Ways [(.ofString "version", .int 7)] (citing (.int 7)) (some 1) single (.int 7) ∧
      ∃ es, Program.Path ((direct bare).fetchById 1).run es (.done (.ok (single.schema 7))) ∧
        Bounded es (single.schema 7) := by
  let p := ((direct bare).fetchById 1).run
  let s := State.initial Level.info false
  have path := p.path_acts (stating (.int 7)) s ()
  have given : (p.run (stating (.int 7)) s ()).1 = .ok (single.schema 7) := by decide +kernel
  rw [given] at path
  obtain ⟨ways, bounded⟩ := versions_assigned bare
  exact ⟨ways _ _ _ _ _ rfl (cites_citing _), _, path, bounded _ _ _ (.fetchById (by decide)) path⟩

/-- A truth value passes for a version in an envelope, though not in the answer to a registration,
and a client gives a version that reaches the bound. -/
theorem versions_stretched :
    ((citing (.bool true)).schema (some 1) = .ok (single.schema 1) ∧
      Envelope.version [(.ofString "version", .bool true)] =
        .error (.parse "Could not get version from response" none)) ∧
    ∃ es y, Program.Path ((direct bare).fetchById 1).run es (.done (.ok y)) ∧
      ∃ r ∈ y.references, ¬ r.version < Envelope.numberBound := by
  let p := ((direct bare).fetchById 1).run
  let s := State.initial Level.info false
  have path := p.path_acts (stating (.int 0x100000000)) s ()
  have given : (p.run (stating (.int 0x100000000)) s ()).1 = .ok (single.schema 0x100000000) := by
    decide +kernel
  rw [given] at path
  exact ⟨⟨(cites_citing _).schema_eq_ok.2 (.inr (.bool true)), rfl⟩, _, _, path, _, .head _,
    by decide⟩

end Client

end Registrar
