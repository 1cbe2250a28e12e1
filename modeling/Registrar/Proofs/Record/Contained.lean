import Registrar.Proofs.Client.Posting
import Registrar.Proofs.Client.Registering
import Registrar.Proofs.Record.History

/-!
# Which errors escape

When the registry answers with responses whose bodies can be read, or not at all, decoding and
encoding fail with errors of resolution, with one exception: a reference told by the registry may
have a subject that cannot be written into an address, and following it fails with an error that is
none. So much is known of the schemas that a cache keeps, whatever was done before: their references
can be addressed or have been told, and what is kept for a naming has an identifier that fits the
header of a record.
-/

namespace Registrar

open Exchange (Call)

variable {ε ν : Type}

/-! ## Worlds -/

/-- A response with a body that can be read or fails to resolve, or an error of resolution. -/
inductive Exchange.Civil : Except Failure Response → Prop where
  | response (r : Response) (h : ∀ g, Envelope.document r.body ≠ .error (.foreign g)) :
    Civil (.ok r)
  | error (f : ResolutionError) : Civil (.error (.resolution f))

/-- A world all of whose replies are civil. -/
structure Program.World.Civil (w : World Exchange.interface ε) : Prop where
  get : ∀ url e, Exchange.Civil (w.reply (Call.get url) e).1
  post : ∀ url body e, Exchange.Civil (w.reply (Call.post url body) e).1

/-- The world may tell the reference, in an envelope that it replies with. -/
def Program.World.Mentions (w : World Exchange.interface ε) (r : RegisteredReference) : Prop :=
  ∃ url e response envelope references, (w.reply (Call.get url) e).1 = .ok response ∧
    Envelope.ofResponse response = .ok envelope ∧
    Envelope.references envelope = .ok references ∧ r ∈ references

/-- An error of resolution, or what comes of following a reference that the world has told and that
has no address. -/
inductive Contained (w : Program.World Exchange.interface ε) : Failure → Prop where
  | resolution (f : ResolutionError) : Contained w (.resolution f)
  | unaddressed {r : RegisteredReference} {u : Text.Unencodable} (told : w.Mentions r)
    (h : Percent.encode r.subject = .error u) : Contained w (.foreign (.ofUnencodable u))

/-! ## Envelopes -/

namespace Envelope

/-- A body that can be read gives an envelope or fails to resolve. -/
theorem allowed_ofResponse {F : Failure → Prop} (plain : Plainly F) {r : Response}
    (h : ∀ g, document r.body ≠ .error (.foreign g)) :
    Allowed F (fun d => ofResponse r = .ok d) (ofResponse r) := by
  cases hr : ofResponse r with
  | ok d => exact .ok rfl
  | error f =>
    rcases failure_of_ofResponse hr with ⟨g, rfl, -⟩ | ⟨g, rfl, unread⟩
    · exact .error (plain g)
    · exact absurd unread (h g)

theorem lt_idBound {d : Envelope} {name : String} {n : Nat} (h : d.member? name = some n) :
    n < Frame.idBound := by
  have := member?_lt h
  unfold numberBound at this
  unfold Frame.idBound
  omega

end Envelope

/-! ## Addresses -/

/-- A resource has no address only because of its subject. -/
theorem Client.encode_of_url {settings : Settings} {r : Resource} {f : Failure}
    (h : (direct settings).url r = .error f) : ∃ s tail u, r.place = some (s, tail) ∧
      Percent.encode s = .error u ∧ f = .foreign (.ofUnencodable u) := by
  unfold Client.url at h
  cases r with
  | schemaById id => cases h
  | _ s =>
    simp only [Resource.path, Resource.subjectPath] at h
    cases hu : Percent.encode s with
    | ok t =>
      rw [hu] at h
      cases h
    | error u =>
      rw [hu] at h
      cases h
      exact ⟨s, _, u, rfl, hu, rfl⟩

namespace Client

open Cache Routine

variable {settings : Settings} {w : Program.World Exchange.interface ε} {F : Failure → Prop}

/-! ## Requests -/

/-- The envelope stands in a reply of the world. -/
def Replied (w : Program.World Exchange.interface ε) (d : Envelope) : Prop :=
  ∃ url e response, (w.reply (Call.get url) e).1 = .ok response ∧
    Envelope.ofResponse response = .ok d

/-- The failures that are allowed suffice for an address. -/
def Addresses (settings : Settings) (F : Failure → Prop) (r : Resource) : Prop :=
  ∀ f, (direct settings).url r = .error f → F f

theorem comes_response (civil : w.Civil) (plain : Plainly F) (url : Text) (body : Option Json) :
    Worldly.Comes F (fun r => (∀ g, Envelope.document r.body ≠ .error (.foreign g)) ∧
      (body = none → ∃ e, (w.reply (Call.get url) e).1 = .ok r)) (response w url body) := by
  intro e
  cases body with
  | none =>
    rw [run_response]
    dsimp only
    have polite := civil.get url e
    cases hr : (w.reply (Call.get url) e).1 with
    | error f =>
      rw [hr] at polite
      cases polite
      exact .error (plain _)
    | ok r =>
      rw [hr] at polite
      cases polite with
      | response r h => exact .ok ⟨h, fun _ => ⟨e, hr⟩⟩
  | some body =>
    rw [run_response_post]
    have polite := civil.post url (Utf8.encode (Json.write Json.spaced body)) e
    generalize (w.reply (Call.post url (Utf8.encode (Json.write Json.spaced body))) e).1 = reply
      at polite ⊢
    cases polite with
    | response r h => exact .ok ⟨h, nofun⟩
    | error f => exact .error (plain f)

theorem comes_answer (civil : w.Civil) (plain : Plainly F) {r : Resource} (body : Option Json)
    (address : Addresses settings F r) :
    Worldly.Comes F (fun d => body = none → Replied w d) (answer w settings r body) := by
  have reachable : Allowed F (fun _ => True) ((direct settings).url r) := by
    cases h : (direct settings).url r with
    | error f => exact .error (address f h)
    | ok url => exact .ok trivial
  refine (Worldly.comes_ofExcept reachable).bind fun url _ => ?_
  refine (comes_response civil plain url body).bind fun reply ⟨readable, told⟩ => ?_
  refine Worldly.comes_ofExcept ((Envelope.allowed_ofResponse plain readable).mono (fun _ => id) ?_)
  intro d hd get
  obtain ⟨e, he⟩ := told get
  exact ⟨url, e, reply, he, hd⟩

/-- A schema that is fetched was told by the world, and unless it was asked for by its identifier
this fits the header of a record. -/
theorem comes_fetched (civil : w.Civil) (plain : Plainly F) {r : Resource}
    (address : Addresses settings F r) (requested : Option Int) :
    Worldly.Comes F (fun x => (∀ ref ∈ x.references, w.Mentions ref) ∧
      (requested = none → x.id < Frame.idBound)) (fetched w settings r requested) := by
  refine (comes_answer civil plain none address).bind fun d told => ?_
  refine Worldly.comes_ofExcept ?_
  cases hd : d.schema requested with
  | error f => exact .error (plain f)
  | ok x =>
    obtain ⟨url, e, response, reply, envelope⟩ := told rfl
    refine .ok ⟨fun ref href => ?_, ?_⟩
    · exact ⟨url, e, response, d, _, reply, envelope, (Envelope.parts_of_schema hd).2.2, href⟩
    · rintro rfl
      exact Envelope.lt_idBound (Envelope.member?_of_schema hd)

/-! ## Registrations -/

/-- The reference can be followed. -/
def Addressed (r : RegisteredReference) : Prop := ∃ t, Percent.encode r.subject = .ok t

/-- An address is missing only if the subject cannot be encoded. -/
theorem addresses_of_place {s : Text} {tail : String} {r : Resource}
    (place : r.place = some (s, tail))
    (h : ∀ u, Percent.encode s = .error u → F (.foreign (.ofUnencodable u))) :
    Addresses settings F r := by
  intro f hf
  obtain ⟨s', tail', u, place', hu, rfl⟩ := encode_of_url hf
  cases place.symm.trans place'
  exact h u hu

theorem upholds_send (civil : w.Civil) (plain : Plainly F) {r : Resource} (body : Option Json)
    (address : Addresses settings F r) :
    Upholds w (fun _ _ => True) F (fun d => body = none → Replied w d)
      ((direct settings).send r body) :=
  (yields_send settings r body).upholds (comes_answer civil plain body address)

theorem upholds_postReference (civil : w.Civil) (plain : Plainly F) (subject name : String)
    (type : SchemaType) (text : Text) (below : List RegisteredReference) :
    Upholds w (fun _ _ => True) F Addressed
      ((direct settings).postReference (.ofString subject) name type text below) := by
  obtain ⟨t, ht⟩ := Percent.encode_ofString subject
  have address {r : Resource} {tail : String} (place : r.place = some (.ofString subject, tail)) :
      Addresses settings F r := addresses_of_place place fun u hu => by cases ht.symm.trans hu
  refine (upholds_send civil plain _ (address rfl)).bind fun added _ => ?_
  refine (upholds_resolving (P := fun _ => True) plain fun _ _ => trivial).bind fun _ _ => ?_
  refine (upholds_send civil plain _ (address rfl)).bind fun stored _ => ?_
  refine (upholds_resolving (P := fun _ => True) plain fun _ _ => trivial).bind fun version _ => ?_
  exact upholds_pure ⟨t, ht⟩

mutual

theorem upholds_postTree (civil : w.Civil) (plain : Plainly F) (type : SchemaType) :
    (r : SuppliedReference) → Upholds w (fun _ _ => True) F Addressed
      ((direct settings).postTree type r)
  | .mk name subject text below => by
    rw [postTree]
    exact (upholds_postTrees civil plain type below).bind fun _ _ =>
      upholds_postReference civil plain _ _ _ _ _

theorem upholds_postTrees (civil : w.Civil) (plain : Plainly F) (type : SchemaType) :
    (rs : List SuppliedReference) → Upholds w (fun _ _ => True) F (fun xs => ∀ x ∈ xs, Addressed x)
      ((direct settings).postTrees type rs)
  | [] => by
    rw [postTrees]
    exact upholds_pure (List.forall_mem_nil _)
  | r :: rs => by
    rw [postTrees]
    refine (upholds_postTree civil plain type r).bind fun first hf => ?_
    refine (upholds_postTrees civil plain type rs).bind fun others ho => ?_
    exact upholds_pure (List.forall_mem_cons.2 ⟨hf, ho⟩)

end

theorem upholds_registerForest (civil : w.Civil) (plain : Plainly F) (type : SchemaType)
    (rs : List SuppliedReference) :
    Upholds w (fun _ _ => True) F (fun xs => ∀ x ∈ xs, Addressed x)
      ((direct settings).registerForest type rs) := by
  by_cases fits : SuppliedReference.heightAll rs ≤ settings.maxDepth
  · rw [registerForest_eq (direct settings) type fits]
    exact (upholds_postTrees civil plain type rs).rewording plain _
  · obtain ⟨e, failed⟩ := registerForest_deep (direct settings) type (Nat.lt_of_not_le fits)
    rw [failed]
    exact upholds_throw (plain e)

theorem upholds_operation {α : Type} {P : α → Prop} (name : String)
    {x : Routine Exchange.interface α} {Inv : Cache → ε → Prop} (h : Upholds w Inv F P x) :
    Upholds w Inv F P (operation name x) :=
  h.logged (l := ⟨logger, _, Level.debug, false⟩) rfl rfl

theorem upholds_register (civil : w.Civil) (plain : Plainly F) {subject : Text}
    (address : Addresses settings F (.versions subject)) (x : SuppliedSchema) :
    Upholds w (fun _ _ => True) F
      (fun y => (∀ ref ∈ y.references, Addressed ref) ∧ y.id < Frame.idBound)
      ((direct settings).register subject x) := by
  refine upholds_operation _ ((upholds_registerForest civil plain _ _).bind fun refs hrefs => ?_)
  refine (upholds_send civil plain _ address).bind fun d _ => ?_
  refine (upholds_resolving (P := (· < Frame.idBound)) plain fun id hid => ?_).bind fun id hid => ?_
  · unfold Envelope.id at hid
    split at hid
    · rename_i member
      cases hid
      exact Envelope.lt_idBound member
    · cases hid
  · exact (upholds_note _ _ _ _).bind fun _ _ => upholds_pure ⟨hrefs, hid⟩

/-! ## Lookups -/

/-- What is known of a schema that is kept at a slot. -/
structure Vouched (w : Program.World Exchange.interface ε) (s : Slot) (x : RegisteredSchema) :
    Prop where
  references : ∀ ref ∈ x.references, Addressed ref ∨ w.Mentions ref
  fits : s.map = .naming → x.id < Frame.idBound

theorem upholds_fetchById (civil : w.Civil) (plain : Plainly F) (id : Int) :
    Upholds w (fun _ _ => True) F (Vouched w (.ofId id)) ((direct settings).fetchById id) := by
  refine ((yields_fetchById settings id).upholds
    (comes_fetched civil plain (fun f hf => ?_) _)).mono fun x hx => ?_
  · obtain ⟨s, tail, u, place, -⟩ := encode_of_url hf
    cases place
  · exact ⟨fun ref href => .inr (hx.1 ref href), nofun⟩

theorem upholds_fetchReference (civil : w.Civil) (plain : Plainly F) {r : RegisteredReference}
    (address : Addresses settings F (.version r.subject r.version)) :
    Upholds w (fun _ _ => True) F (Vouched w (.ofReference r))
      ((direct settings).fetchReference r) := by
  refine ((yields_fetchReference settings r).upholds
    (comes_fetched civil plain address _)).mono fun x hx => ?_
  exact ⟨fun ref href => .inr (hx.1 ref href), nofun⟩

theorem upholds_fetchBySubject (civil : w.Civil) (plain : Plainly F) {n : Naming}
    (reached : ∀ s u, n.subject = .ok s → Percent.encode s = .error u →
      F (.foreign (.ofUnencodable u))) :
    Upholds w (fun _ _ => True) F (Vouched w (.ofNaming n))
      ((direct settings).fetchBySubject n) := by
  refine upholds_operation _ ((upholds_resolving plain fun s hs => hs).bind fun s hs => ?_)
  split
  · refine (upholds_register civil plain (addresses_of_place rfl fun u => reached s u hs) _).mono
      fun x hx => ?_
    exact ⟨fun ref href => .inl (hx.1 ref href), fun _ => hx.2⟩
  · refine (upholds_send civil plain none
      (addresses_of_place rfl fun u => reached s u hs)).bind fun d told => ?_
    refine upholds_resolving plain fun x hx => ?_
    obtain ⟨url, e, response, reply, envelope⟩ := told rfl
    refine ⟨fun ref href => .inr ?_, fun _ => Envelope.lt_idBound (Envelope.member?_of_schema hx)⟩
    exact ⟨url, e, response, d, _, reply, envelope, (Envelope.parts_of_schema hx).2.2, href⟩

/-- Every schema that is kept is vouched for. -/
def Sane (w : Program.World Exchange.interface ε) (c : Cache) : Prop :=
  ∀ p ∈ c.entries, ∀ x, p.2 = .schema x → Vouched w p.1 x

theorem Sane.sub {c c' : Cache} (h : Sane w c) (sub : c'.entries ⊆ c.entries) : Sane w c' :=
  fun p hp => h p (sub hp)

/-- A lookup keeps a schema that its loader vouches for. -/
theorem upholds_vouched {s : Slot} {loader : Loader Exchange.interface}
    (plain : Plainly F) (outside : Keeps SameCache loader)
    (h : Upholds w (fun _ _ => True) F (Vouched w s) loader) :
    Upholds w (fun c _ => Sane w c) F (Vouched w s) (getOrLoad s loader) := by
  refine upholds_getOrLoad outside (fun c e x sane hx => ?_) fun c st e sane missing => ?_
  · cases x with
    | schema x => exact .ok (sane _ (Assoc.mem_of_get? hx) x rfl)
    | error f => exact .error (plain f)
  · have allowed := (h st e trivial).2
    refine ⟨allowed, fun c' filled p hp x hx => ?_⟩
    rcases filled.of_mem hp with old | ⟨same, new⟩
    · exact sane p old x hx
    · rw [hx] at new
      have recalls := recalls_kept new
      generalize (loader.run.run w st e).1 = r at allowed recalls
      cases recalls
      cases allowed with
      | ok h =>
        rw [same]
        exact h

/-- References that are known lead to more of them. -/
theorem upholds_resolveReference (settings : Settings) (civil : w.Civil) (plain : Plainly F)
    (followed : ∀ r u, w.Mentions r → Percent.encode r.subject = .error u →
      F (.foreign (.ofUnencodable u))) (r : RegisteredReference)
    (known : Addressed r ∨ w.Mentions r) :
    Upholds w (fun c _ => Sane w c) F (fun x => ∀ r ∈ x.references, Addressed r ∨ w.Mentions r)
      ((direct settings).resolveReference r) := by
  have address : Addresses settings F (.version r.subject r.version) := by
    refine addresses_of_place rfl fun u hu => ?_
    rcases known with ⟨t, ht⟩ | told
    · cases ht.symm.trans hu
    · exact followed r u told hu
  exact (upholds_vouched plain (keeps_fetchReference settings r)
    (upholds_fetchReference civil plain address)).mono fun x hx => hx.references

theorem upholds_resolveId (settings : Settings) (civil : w.Civil) (plain : Plainly F) (id : Int) :
    Upholds w (fun c _ => Sane w c) F (fun x => ∀ r ∈ x.references, Addressed r ∨ w.Mentions r)
      ((direct settings).resolveId id) :=
  (upholds_vouched plain (keeps_fetchById settings id) (upholds_fetchById civil plain id)).mono
    fun _ hx => hx.references

theorem upholds_resolveNaming (settings : Settings) (civil : w.Civil) (plain : Plainly F)
    {n : Naming}
    (reached : ∀ s u, n.subject = .ok s → Percent.encode s = .error u →
      F (.foreign (.ofUnencodable u))) :
    Upholds w (fun c _ => Sane w c) F
      (fun x => x.id < Frame.idBound ∧ ∀ r ∈ x.references, Addressed r ∨ w.Mentions r)
      ((direct settings).resolveNaming n) :=
  (upholds_vouched plain (keeps_fetchBySubject settings n)
    (upholds_fetchBySubject civil plain reached)).mono fun _ hx => ⟨hx.fits rfl, hx.references⟩

end Client

/-! ## Histories -/

open Client Routine

variable {w : Program.World Exchange.interface ε} {settings : Settings} {Later : ε → ε → Prop}
  {st : State} {e : ε}

theorem lasting_sane (civil : w.Civil) : Lasting w settings Later (fun c _ => Sane w c) where
  empty c _ empty p hp := by
    rw [empty] at hp
    cases hp
  pruned _ _ sane := sane.sub (List.filter_subset_self _)
  later _ _ _ sane _ := sane
  byId id := (upholds_resolveId settings civil (fun _ => trivial) id).mono fun _ _ => trivial
  byNaming n := (upholds_resolveNaming settings civil (fun _ => trivial)
    fun _ _ _ _ => trivial).mono fun _ _ => trivial
  byReference r := by
    refine (upholds_vouched (fun _ => trivial) (keeps_fetchReference settings r) ?_).mono
      fun _ _ => trivial
    exact upholds_fetchReference civil (fun _ => trivial) fun _ _ => trivial

/-- The strings of the naming that make up its subject are ordinary text. -/
structure Naming.Ordinary (n : Naming) : Prop where
  topic : ∀ t ∈ n.topic, ∃ s : String, t = .ofString s
  recordName : ∀ t ∈ n.recordName, ∃ s : String, t = .ofString s
  name : ∀ x ∈ n.schema, ∀ t ∈ x.name, ∃ s : String, t = .ofString s

theorem Naming.Ordinary.record {n : Naming} (h : n.Ordinary) {t : Text} (hr : n.record = .ok t) :
    ∃ s : String, t = .ofString s := by
  unfold Naming.record at hr
  split at hr <;> split at hr <;> cases hr
  · exact h.recordName _ ‹_›
  · exact h.name _ ‹_› _ ‹_›

theorem Naming.Ordinary.topicText {n : Naming} (h : n.Ordinary) :
    ∃ s : String, n.topicText = .ofString s := by
  unfold Naming.topicText
  cases ht : n.topic with
  | none => exact ⟨"None", rfl⟩
  | some t => exact h.topic t ht

/-- Such a naming has an ordinary subject, if it has one. -/
theorem Naming.Ordinary.subject {n : Naming} (h : n.Ordinary) {t : Text} (hs : n.subject = .ok t) :
    ∃ s : String, t = .ofString s := by
  obtain ⟨topic, ht⟩ := h.topicText
  unfold Naming.subject at hs
  split at hs
  · exact h.record hs
  · cases hs
    refine ⟨topic ++ "-" ++ if n.isKey then "key" else "value", ?_⟩
    rw [ht]
    split <;> simp [Text.ofString]
  · obtain ⟨name, hn, rfl⟩ := of_map_ok hs
    obtain ⟨record, rfl⟩ := h.record hn
    exact ⟨topic ++ "-" ++ record, by rw [ht]; simp [Text.ofString]⟩

/-- Only errors of resolution escape from decoding and encoding, but for one error: a reference that
the world has told and that has no address. -/
theorem contained (civil : w.Civil) (h : History w settings Later st e) (codec : Codec ν)
    (decodes : ∀ s p xs, codec.decode s p xs ≠ .error .cancelled)
    (encodes : ∀ s v xs, codec.encode s v xs ≠ .error .cancelled) :
    let d := Archive.decoder settings codec
    let c := Archive.encoder settings codec
    (∀ data, Allowed (Contained w) (fun _ => True) ((d.decode data).run.run w st e).1) ∧
      (∀ r, Allowed (Contained w) (fun _ => True) ((d.decodeRecord r).run.run w st e).1) ∧
      (∀ n, n.Ordinary →
        (∀ v, Allowed (Contained w) (fun _ => True) ((c.encode v n).run.run w st e).1) ∧
        ∀ payload, Allowed (Contained w) (fun _ => True)
          ((c.encodeBytes (some payload) n).run.run w st e).1) ∧
      ∀ n x, st.cache.find? (.ofNaming n) = some (.schema x) → x.id < Frame.idBound := by
  intro d c
  have sane := h.upheld (lasting_sane civil)
  have plain : Plainly (Contained w) := fun f => .resolution f
  have tolerable : codec.Tolerable (Contained w) := by
    constructor
    · rintro s p xs (f | f | _) hf
      · exact .inl (.resolution f)
      · exact .inr ⟨f, rfl⟩
      · exact absurd hf (decodes s p xs)
    · rintro s v xs (f | f | _) hf
      · exact .inl (.resolution f)
      · exact .inr ⟨f, rfl⟩
      · exact absurd hf (encodes s v xs)
  have byReference := upholds_resolveReference settings civil plain
    fun _ _ told => .unaddressed told
  have byId := upholds_resolveId settings civil plain
  refine ⟨fun data => ?_, fun r => ?_, fun n ordinary => ?_, fun n x hx => ?_⟩
  · exact (d.upholds_decode plain tolerable byId byReference data st e sane).2
  · exact (d.upholds_decodeRecord plain tolerable byId byReference r st e sane).2
  · have byNaming := upholds_resolveNaming settings (n := n) civil plain
      fun t u ht hu => by
        obtain ⟨s, rfl⟩ := ordinary.subject ht
        obtain ⟨t, encoded⟩ := Percent.encode_ofString s
        cases encoded.symm.trans hu
    have framed (x : RegisteredSchema) (p : Bytes) (fits : x.id < Frame.idBound) :
        Upholds w (fun c _ => Sane w c) (Contained w) (fun _ => True) (Encoder.frame x (some p)) :=
      Encoder.upholds_frame fits (by simp)
    constructor
    · exact fun v => (c.upholds_encode byNaming plain tolerable byReference framed v st e sane).2
    · exact fun payload =>
        (c.upholds_encodeBytes byNaming (fun x hx => framed x payload hx) st e sane).2
  · exact (sane _ (Assoc.mem_of_get? hx) x rfl).fits rfl

/-! ## A reference without an address -/

/-- A schema with a reference to a subject that is a lone surrogate. -/
def stray : RegisteredSchema := ⟨1, .avro, "stray", [⟨"r", [.surrogate 0], 1⟩]⟩

/-- The body that tells this schema. -/
def strayBody : Bytes :=
  Utf8.encode (Json.write Json.spaced
    (Envelope.registration stray.type stray.text stray.references))

theorem read_stray : read (some 1) (.ok ⟨200, strayBody⟩) = .ok stray := by decide +kernel

/-- What is read as a schema can be read. -/
theorem readable_of_read {requested : Option Int} {r : Response} {x : RegisteredSchema}
    (h : read requested (.ok r) = .ok x) (g : ForeignError) :
    Envelope.document r.body ≠ .error (.foreign g) := by
  intro unread
  change (Envelope.ofResponse r >>= fun envelope =>
    (envelope.schema requested).mapError Failure.resolution) = _ at h
  unfold Envelope.ofResponse at h
  rw [unread] at h
  split at h <;> cases h

/-- A registry that tells this schema whatever it is asked. -/
def straying : Program.World Exchange.interface Unit := steady (.ok ⟨200, strayBody⟩)

theorem straying_get (url : Text) (e : Unit) :
    (straying.reply (Call.get url) e).1 = .ok ⟨200, strayBody⟩ := rfl

theorem civil_straying : straying.Civil :=
  ⟨fun _ _ => .response _ (readable_of_read read_stray),
    fun _ _ _ => .response _ (readable_of_read read_stray)⟩

/-- Nothing is kept but this schema, for its identifier. -/
def StrayOnly (c : Cache) : Prop := ∀ s x, c.find? s = some x → s = .ofId 1 ∧ x = .schema stray

theorem upholds_stray (F : Failure → Prop) :
    Upholds straying (fun c _ => StrayOnly c) F (· = stray) ((direct bare).resolveId 1) := by
  refine Cache.upholds_getOrLoad (keeps_fetchById bare 1) (fun c e x only hx => ?_)
    fun c st e only missing => ?_
  · obtain ⟨-, rfl⟩ := only _ x hx
    exact .ok rfl
  · have loaded : (((direct bare).fetchById 1).run.run straying st e).1 = .ok stray := by
      obtain ⟨url, address⟩ : ∃ url, (direct bare).url (.schemaById 1) = .ok url := ⟨_, rfl⟩
      have given := yields_fetchById (w := straying) bare 1 st e
      rw [run_fetched bare address, straying_get, read_stray] at given
      exact (Prod.mk.inj given).1
    rw [loaded]
    refine ⟨.ok rfl, fun c' filled s x hx => ?_⟩
    by_cases same : s = .ofId 1
    · rw [same, filled.here] at hx
      cases hx
      exact ⟨same, rfl⟩
    · rw [filled.elsewhere s same] at hx
      exact only s x hx

/-- The reference of this schema cannot be followed. -/
theorem upholds_strayReference :
    Upholds straying (fun c _ => StrayOnly c) (· = .foreign (.ofUnencodable ⟨0, 0, 0⟩))
      (fun _ => False) ((direct bare).resolveReference ⟨"r", [.surrogate 0], 1⟩) := by
  refine Cache.upholds_getOrLoad (keeps_fetchReference bare _) (fun c e x only hx => ?_)
    fun c st e only missing => ?_
  · cases (only _ x hx).1
  · have failed :
        (((direct bare).fetchReference ⟨"r", [.surrogate 0], 1⟩).run.run straying st e).1 =
          .error (.foreign (.ofUnencodable ⟨0, 0, 0⟩)) := by
      have given := yields_fetchReference (w := straying) bare ⟨"r", [.surrogate 0], 1⟩ st e
      rw [run_fetched_of_error bare (f := .foreign (.ofUnencodable ⟨0, 0, 0⟩)) rfl] at given
      exact (Prod.mk.inj given).1
    rw [failed]
    refine ⟨.error rfl, fun c' filled s x hx => only s x ?_⟩
    rw [← hx, Cache.find?, Cache.find?, filled.entries]
    rfl

/-- A registered schema with such a reference makes decoding fail in a way that is no matter of
resolution. -/
theorem escapes_stray :
    (((Archive.decoder bare Codec.raw).decode (some [0, 0, 0, 0, 1])).run.run straying
      (State.initial Level.info true) ()).1 = .error (.foreign (.ofUnencodable ⟨0, 0, 0⟩)) := by
  have framed : Frame.split (some [0, 0, 0, 0, 1]) = .framed 1 [] := by decide
  have empty : StrayOnly (State.initial Level.info true).cache := by
    intro s x hx
    cases hx
  suffices fails : Upholds straying (fun c _ => StrayOnly c)
      (· = .foreign (.ofUnencodable ⟨0, 0, 0⟩)) (fun _ => False)
      ((Archive.decoder bare Codec.raw).decode (some [0, 0, 0, 0, 1])) from fails.fails empty
  unfold Decoder.decode
  rw [framed]
  refine (Decoder.upholds_getSchema (d := Archive.decoder bare Codec.raw)
    (upholds_stray _)).bind fun x hx => ?_
  rw [hx]
  refine Upholds.bind (P := fun _ => False) ?_ fun _ h => h.elim
  show Upholds _ _ _ _ (Closure.search 2 (direct bare).resolveReference
    [⟨⟨"r", [.surrogate 0], 1⟩, 1, false⟩] ⟨[], [], []⟩)
  rw [Closure.search, if_neg List.not_mem_nil, if_neg Bool.false_ne_true, if_neg (by decide)]
  exact upholds_strayReference.bind fun _ h => h.elim

/-- Such a registry and a codec of bytes. -/
theorem contained_straying :
    let n := Naming.byTopic "orders" false
    Allowed (Contained straying) (fun _ => True)
        (((Archive.decoder bare Codec.raw).decode (some [0, 0, 0, 0, 1])).run.run straying
          (State.initial Level.info true) ()).1 ∧
      n.Ordinary ∧ Allowed (Contained straying) (fun _ => True)
        (((Archive.encoder bare Codec.raw).encode (.bytes []) n).run.run straying
          (State.initial Level.info true) ()).1 := by
  intro n
  have ordinary : n.Ordinary := by
    refine ⟨fun t ht => ?_, fun t ht => ?_, fun x hx => ?_⟩
    · cases ht
      exact ⟨"orders", rfl⟩
    · cases ht
    · cases hx
  have decodes (s p xs) : Codec.raw.decode s p xs ≠ .error .cancelled := nofun
  have encodes (s v xs) : Codec.raw.encode s v xs ≠ .error .cancelled := by
    intro h
    cases v <;> cases h
  have start : History straying bare (fun _ _ => True) (State.initial Level.info true) () :=
    .start rfl
  obtain ⟨decoded, -, encoded, -⟩ := contained civil_straying start Codec.raw decodes encodes
  exact ⟨decoded (some [0, 0, 0, 0, 1]), ordinary, (encoded n ordinary).1 (.bytes [])⟩

end Registrar
