import Registrar.Proofs.Client.Levels
import Registrar.Text.Hex

/-!
# Where requests go

A subject becomes one segment of an address: it holds unreserved characters and escapes only, and it
is decoded to the subject. So an address tells which resource a request is about, and whatever
operations send them, two requests with one address are about one resource.
-/

namespace Registrar

/-! ## Segments -/

namespace Percent

/-- The characters that need no escape. -/
def Unreserved (c : Char) : Prop := c.isAlphanum ∨ c ∈ ['_', '.', '-', '~']

/-- Only unreserved characters, and escapes of two hexadecimal digits. -/
inductive Escaped : List Char → Prop where
  | nil : Escaped []
  | plain {c : Char} {cs : List Char} (h : Unreserved c) (rest : Escaped cs) : Escaped (c :: cs)
  | escape {a b : Char} {cs : List Char} {m n : Nat} (high : Hex.digit? (.char a) = some m)
    (low : Hex.digit? (.char b) = some n) (rest : Escaped cs) : Escaped ('%' :: a :: b :: cs)

/-- The bytes that a segment stands for. A percent sign that starts no escape stands for itself, as
other characters do. -/
def decode : List Char → Bytes
  | '%' :: a :: b :: cs =>
    match Hex.digit? (.char a), Hex.digit? (.char b) with
    | some m, some n => UInt8.ofNat (16 * m + n) :: decode cs
    | _, _ => 0x25 :: decode (a :: b :: cs)
  | c :: cs => Utf8.encode [c] ++ decode cs
  | [] => []

theorem decode_plain {c : Char} (h : c ≠ '%') (cs : List Char) :
    decode (c :: cs) = Utf8.encode [c] ++ decode cs := by
  rw [decode]
  rintro a b ds rfl
  cases h rfl

theorem decode_escape {a b : Char} {m n : Nat} (high : Hex.digit? (.char a) = some m)
    (low : Hex.digit? (.char b) = some n) (cs : List Char) :
    decode ('%' :: a :: b :: cs) = UInt8.ofNat (16 * m + n) :: decode cs := by
  rw [decode, high, low]

theorem digit?_hexDigit {n : Nat} (h : n < 16) : Hex.digit? (.char (hexDigit n)) = some n := by
  have all : ∀ k : Fin 16, Hex.digit? (.char (hexDigit k)) = some k.val := by decide
  exact all ⟨n, h⟩

/-- A byte that stands for itself is an unreserved character of ASCII. -/
theorem unreserved_ofNat {b : UInt8} (h : isUnreserved b) :
    Unreserved (Char.ofNat b.toNat) ∧ b.toNat < 0x80 := by
  have all : ∀ n : Fin 256, isUnreserved (UInt8.ofNat n) →
      ((Char.ofNat n).isAlphanum ∨ Char.ofNat n ∈ ['_', '.', '-', '~']) ∧ n.val < 0x80 := by
    decide +kernel
  have same := all ⟨b.toNat, b.toNat_lt⟩
  rw [UInt8.ofNat_toNat] at same
  exact same h

theorem escaped_encodeByte (b : UInt8) {cs : List Char} (rest : Escaped cs) :
    Escaped (encodeByte b ++ cs) := by
  have bound := b.toNat_lt
  unfold encodeByte
  split
  · rename_i h
    exact .plain (unreserved_ofNat h).1 rest
  · exact .escape (digit?_hexDigit (by omega)) (digit?_hexDigit (by omega)) rest

theorem decode_encodeByte (b : UInt8) (cs : List Char) :
    decode (encodeByte b ++ cs) = b :: decode cs := by
  have bound := b.toNat_lt
  unfold encodeByte
  split
  · rename_i h
    have plain : Char.ofNat b.toNat ≠ '%' := fun same =>
      (isUnreserved_toNat h).1 ((toNat_ofNat b).symm.trans (congrArg Char.toNat same))
    have ascii : (Char.ofNat b.toNat).toNat < 0x80 := by
      rw [toNat_ofNat]
      exact (unreserved_ofNat h).2
    rw [List.singleton_append, decode_plain plain, Utf8.encode_cons, Utf8.encode_nil,
      Utf8.encodeChar_of_ascii ascii, toNat_ofNat, UInt8.ofNat_toNat]
    rfl
  · rw [List.cons_append, List.cons_append, List.singleton_append,
      decode_escape (digit?_hexDigit (by omega)) (digit?_hexDigit (by omega))]
    have value : 16 * (b.toNat / 16) + b.toNat % 16 = b.toNat := by omega
    rw [value, UInt8.ofNat_toNat]

theorem escaped_encodeBytes (bs : Bytes) : Escaped (encodeBytes bs) := by
  induction bs with
  | nil => exact .nil
  | cons b bs ih => exact escaped_encodeByte b ih

theorem decode_encodeBytes (bs : Bytes) : decode (encodeBytes bs) = bs := by
  induction bs with
  | nil => rfl
  | cons b bs ih => rw [encodeBytes_cons, decode_encodeByte, ih]

/-- No character of a segment structures an address. -/
theorem Escaped.notMem {cs : List Char} (h : Escaped cs) : ∀ c ∈ cs, c ∉ ['/', '?', '#'] := by
  have digit {a : Char} {m : Nat} (h : Hex.digit? (.char a) = some m) : a ∉ ['/', '?', '#'] := by
    intro mem
    simp only [List.mem_cons, List.not_mem_nil, or_false] at mem
    rcases mem with rfl | rfl | rfl <;> cases h
  induction h with
  | nil => simp
  | plain unreserved _ ih =>
    refine List.forall_mem_cons.2 ⟨fun mem => ?_, ih⟩
    simp only [List.mem_cons, List.not_mem_nil, or_false] at mem
    rcases mem with rfl | rfl | rfl <;> revert unreserved <;> unfold Unreserved <;> decide
  | escape high low _ ih =>
    exact List.forall_mem_cons.2 ⟨by decide, List.forall_mem_cons.2 ⟨digit high,
      List.forall_mem_cons.2 ⟨digit low, ih⟩⟩⟩

end Percent

/-! ## Requests -/

/-- What is left of a program may do its own part. -/
theorem Program.Path.trans {σ : Type} {I : Interface} {α : Type} {p q r : Program σ I α}
    {es es' : List (Act σ I)} (h : Path p es q) (h' : Path q es' r) : Path p (es ++ es') r := by
  induction h with
  | refl p => exact h'
  | update s _ ih => exact .update s (ih h')
  | ask v _ ih => exact .ask v (ih h')
  | await w _ ih => exact .await w (ih h')
  | acquire w _ ih => exact .acquire w (ih h')
  | release u _ ih => exact .release u (ih h')

/-- The address depends on the base URL only. -/
theorem Client.url_congr {I J : Interface} {c : Client I} {c' : Client J}
    (same : c.settings.url = c'.settings.url) (r : Resource) : c.url r = c'.url r := by
  unfold Client.url
  rw [same]

namespace Client

open Act Routine

variable {α : Type} {settings : Settings} {gets posts : List Resource}
  {es : List (Act State Exchange.interface)}

/-- A request that gets one of the resources `gets` or posts a document to one of `posts`. -/
inductive Goes (settings : Settings) (gets posts : List Resource) :
    Act State Exchange.interface → Prop where
  | get {r : Resource} {url : Text} {w : Wake (Except Failure Response)} (hr : r ∈ gets)
    (address : (direct settings).url r = .ok url) : Goes settings gets posts (request url w none)
  | post {r : Resource} {url : Text} {w : Wake (Except Failure Response)} {body : Json}
    (hr : r ∈ posts) (address : (direct settings).url r = .ok url) :
    Goes settings gets posts (request url w (some body))

/-- Whatever comes of its requests and whatever others do meanwhile, all that the routine calls are
requests that get one of the resources `gets` or post a document to one of `posts`. -/
def Sends (settings : Settings) (gets posts : List Resource)
    (x : Routine Exchange.interface α) : Prop :=
  ∀ es q, Program.Path x.run es q → ∀ a ∈ calls es, Goes settings gets posts a

/-- The same of the calls that the routine has made when it ends. -/
def Sends.AtEnd (settings : Settings) (gets posts : List Resource)
    (x : Routine Exchange.interface α) : Prop :=
  x.run.Proceeds (fun _ => True) (fun es _ => ∀ a ∈ calls es, Goes settings gets posts a) []

/-- A routine can be brought to its end from everywhere, so it is enough to look at its ends. -/
theorem Sends.AtEnd.sends {x : Routine Exchange.interface α} (h : AtEnd settings gets posts x) :
    Sends settings gets posts x := by
  intro es q path a ha
  -- What is left of the program ends when it is cancelled at each further call.
  have rest := q.path_acts (steady (.error .cancelled)) (State.initial Level.info false) ()
  refine Program.Proceeds.path h (path.trans rest) a ?_
  rw [List.nil_append, calls, List.filter_append]
  exact List.mem_append_left _ ha

/-- Recording an operation sends nothing. -/
theorem Sends.AtEnd.operation {name : String} {x : Routine Exchange.interface α}
    (h : AtEnd settings gets posts x) : AtEnd settings gets posts (operation name x) := by
  refine proceeds_operation h fun es s t _ sent => ?_
  rwa [calls_changed]

/-- What looks a schema up sends one request. -/
theorem atEnd_lookup (r : Resource) (requested : Option Int) :
    Sends.AtEnd settings [r] [] (do
      let envelope ← (direct settings).send r none
      resolving (envelope.schema requested)) := by
  refine proceeds_field r none _ trivial (fun e _ => by simp [calls])
    fun url w changes address marked a ha => ?_
  rw [calls_request marked.quiet] at ha
  rw [List.mem_singleton.1 ha]
  exact .get (.head _) address

/-- What follows a plan goes to the resources of the plan. -/
theorem Follows.goes {plan : List Duty} {cs : List (Act State Exchange.interface)}
    {o : Option Failure} (h : Follows settings plan cs o) :
    ∀ a ∈ cs, Goes settings [] (plan.map Duty.resource) a := by
  induction h with
  | done => simp
  | posted address outcome rest ih =>
    refine List.forall_mem_cons.2 ⟨.post (.head _) address, fun a ha => ?_⟩
    cases ih a ha with
    | get hr => cases hr
    | post hr address => exact .post (.tail _ hr) address
  | failed address outcome =>
    intro a ha
    rw [List.mem_singleton.1 ha]
    exact .post (.head _) address
  | unaddressed => simp

theorem Posted.goes {plan : List Duty} {r : Except Failure α} (h : Posted settings plan [] es r) :
    ∀ a ∈ calls es, Goes settings [] (plan.map Duty.resource) a :=
  h.follows.goes

/-- Nothing is sent for references that are nested too deeply. -/
theorem atEnd_unsent {name : String} (type : SchemaType) {roots : List SuppliedReference}
    (high : settings.maxDepth < SuppliedReference.heightAll roots)
    (k : List RegisteredReference → Routine Exchange.interface α) :
    Sends.AtEnd settings gets posts
      (operation name ((direct settings).registerForest type roots >>= k)) := by
  obtain ⟨n, y, -, -, refused⟩ := registerForest_refused (direct settings) type high
  refine Sends.AtEnd.operation ?_
  unfold Sends.AtEnd
  rw [refused, Routine.run_bind]
  intro a ha
  cases ha

/-- Where the documents of a registration go. -/
def registrations (subject : Text) (x : SuppliedSchema) : List Resource :=
  (Duty.ofForest x.references ++ [(⟨subject, .id⟩ : Duty)]).map Duty.resource

/-- Where the documents go with which a reference is registered. -/
def referenceRegistrations (subject : Text) (y : SuppliedReference) : List Resource :=
  (Duty.ofForest y.references ++ Duty.ofReference subject).map Duty.resource

theorem atEnd_register (subject : Text) (x : SuppliedSchema) :
    Sends.AtEnd settings [] (registrations subject x) ((direct settings).register subject x) := by
  by_cases fits : SuppliedReference.heightAll x.references ≤ settings.maxDepth
  · refine (proceeds_register subject x fits).imp fun r es ended => ?_
    rcases ended with ⟨f, posted, -⟩ | ⟨es', posted, root⟩
    · exact (posted.stop [⟨subject, .id⟩] : Posted _ _ _ _ (.error f : Except Failure Unit)).goes
    · exact (posted.append root).goes
  · exact atEnd_unsent x.type (Nat.lt_of_not_le fits) _

theorem atEnd_registerReference (subject : Text) (type : SchemaType) (y : SuppliedReference) :
    Sends.AtEnd settings [] (referenceRegistrations subject y)
      ((direct settings).registerReference subject type y) := by
  by_cases fits : SuppliedReference.heightAll y.references ≤ settings.maxDepth
  · refine (proceeds_registerReference subject type y fits).imp fun r es ended => ?_
    obtain ⟨r', posted, -⟩ := ended
    exact posted.goes
  · exact atEnd_unsent type (Nat.lt_of_not_le fits) _

/-! ## Operations -/

/-- What a lookup by naming gets, and where it posts documents. -/
def destinations (n : Naming) : List Resource × List Resource :=
  match n.subject, n.schema with
  | .error _, _ => ([], [])
  | .ok subject, none => ([.latest subject], [])
  | .ok subject, some x => ([], registrations subject x)

theorem atEnd_fetchById (id : Int) :
    Sends.AtEnd settings [.schemaById id] [] ((direct settings).fetchById id) :=
  (atEnd_lookup (.schemaById id) (some id)).operation

theorem atEnd_fetchByIdAndType (id : Int) (type : SchemaType) :
    Sends.AtEnd settings [.schemaById id] [] ((direct settings).fetchByIdAndType id type) := by
  refine Sends.AtEnd.operation ?_
  unfold Sends.AtEnd
  rw [Routine.run_bind]
  refine (atEnd_fetchById id).bind fun r es sent => ?_
  cases r with
  | error f => exact sent
  | ok x =>
    show Program.Proceeds _ _ (ExceptT.run (if x.type ≠ type then _ else _)) _
    split
    · exact sent
    · exact sent

theorem atEnd_fetchBySubject (n : Naming) :
    Sends.AtEnd settings (destinations n).1 (destinations n).2
      ((direct settings).fetchBySubject n) := by
  refine Sends.AtEnd.operation ?_
  unfold destinations
  cases hs : n.subject with
  | error e =>
    intro a ha
    cases ha
  | ok subject =>
    cases hx : n.schema with
    | none => exact atEnd_lookup (.latest subject) none
    | some x => exact atEnd_register subject x

theorem atEnd_fetchReference (r : RegisteredReference) :
    Sends.AtEnd settings [.version r.subject r.version] [] ((direct settings).fetchReference r) :=
  (atEnd_lookup (.version r.subject r.version) none).operation

/-- Every subject that is ordinary text is one segment of an address, made of unreserved characters
and escapes and decoded to the bytes of the subject. Each operation sends requests about its own
resources only: a lookup gets the schema of its identifier, the latest one of its subject or the one
of its reference, and a registration posts to the versions of the subjects or to the subjects. And
clients of one base URL have one address for no two resources, so an address tells whether a request
is about an identifier, the latest schema, a version, the versions or a subject, and about which
identifier, subject and version. -/
theorem addresses_tell_resources (settings settings' : Settings)
    (same : settings.url = settings'.url) :
    (∀ s : String, ∃ segment, Percent.encode (.ofString s) = .ok segment ∧
      Percent.Escaped segment.toList ∧ (∀ c ∈ segment.toList, c ∉ ['/', '?', '#']) ∧
      Percent.decode segment.toList = Utf8.encode s.toList) ∧
    ((∀ id, Sends settings [.schemaById id] [] ((direct settings).fetchById id)) ∧
      (∀ id type,
        Sends settings [.schemaById id] [] ((direct settings).fetchByIdAndType id type)) ∧
      (∀ n, Sends settings (destinations n).1 (destinations n).2
        ((direct settings).fetchBySubject n)) ∧
      (∀ r, Sends settings [.version r.subject r.version] [] ((direct settings).fetchReference r)) ∧
      (∀ subject x,
        Sends settings [] (registrations subject x) ((direct settings).register subject x)) ∧
      ∀ subject type y, Sends settings [] (referenceRegistrations subject y)
        ((direct settings).registerReference subject type y)) ∧
    ∀ r r' url, (direct settings).url r = .ok url → (direct settings').url r' = .ok url →
      r = r' := by
  refine ⟨fun s => ?_, ⟨fun id => (atEnd_fetchById id).sends,
    fun id type => (atEnd_fetchByIdAndType id type).sends,
    fun n => (atEnd_fetchBySubject n).sends, fun r => (atEnd_fetchReference r).sends,
    fun subject x => (atEnd_register subject x).sends,
    fun subject type y => (atEnd_registerReference subject type y).sends⟩, ?_⟩
  · obtain ⟨segment, encoded⟩ := Percent.encode_ofString s
    obtain ⟨cs, chars, same⟩ := Percent.of_encode encoded
    obtain rfl : s.toList = cs := Text.ofChars_injective chars
    have escaped := Percent.escaped_encodeBytes (Utf8.encode s.toList)
    rw [← same] at escaped
    refine ⟨segment, encoded, escaped, escaped.notMem, ?_⟩
    rw [same, Percent.decode_encodeBytes]
  · intro r r' url address address'
    have moved : (direct settings).url r' = (direct settings').url r' := url_congr same r'
    exact url_injective address (moved.trans address')

/-- A subject with a slash is no way into another resource, also for a client with another limit. -/
theorem addresses_tell_resources_slash :
    (∃ segment, Percent.encode "a/versions" = .ok segment ∧ '/' ∉ segment.toList) ∧
      ∀ url, (direct bare).url (.versions "a") = .ok url →
        (direct shallow).url (.subject "a/versions") ≠ .ok url := by
  obtain ⟨segments, -, distinct⟩ := addresses_tell_resources bare shallow rfl
  obtain ⟨segment, encoded, -, plain, -⟩ := segments "a/versions"
  refine ⟨⟨segment, encoded, fun slash => plain _ slash (by decide)⟩, ?_⟩
  intro url address address'
  cases distinct _ _ url address address'

end Client

end Registrar
