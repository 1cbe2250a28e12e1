import Registrar.Proofs.Client.Repository
import Registrar.Proofs.Client.Shelves

/-!
# A registry that is a repository

`Shelves.library` is the registry that keeps bodies on shelves and also lends them: those who ask
for a version of a subject get the members of its body behind the identifier of the body.
-/

namespace Registrar.Shelves

open Exchange (Call)
open Client Posting

/-- The identifier of a body. -/
def number (s : Shelves) (body : Bytes) : Nat := (s.map Prod.snd).idxOf body + 1

/-- The body can be lent as this version: its numbers are not too large. -/
def Lendable (s : Shelves) (body : Bytes) (version : Nat) : Prop :=
  version < Envelope.numberBound ∧ s.number body < Envelope.numberBound

instance (s : Shelves) (body : Bytes) (version : Nat) : Decidable (s.Lendable body version) :=
  inferInstanceAs (Decidable (_ ∧ _))

/-- The body at the version that an address names. -/
def page (s : Shelves) (base url : Text) : Option Bytes :=
  match split base url with
  | some (segment, rest) =>
    (((s.versions segment).zipIdx 1).find? fun b =>
      rest = Text.ofString ("/versions/" ++ toString b.2) ∧ s.Lendable b.1 b.2).map Prod.fst
  | none => none

/-- The members of a body behind its identifier. -/
def lend (s : Shelves) (body : Bytes) : Response :=
  match Envelope.document body with
  | .ok (.object members) =>
    ⟨200, Utf8.encode (Json.write Json.spaced
      (.object ((Text.ofString "id", .int (s.number body)) :: members)))⟩
  | _ => ⟨500, []⟩

/-- The registry at the base URL that lends what it keeps. -/
def library (base : Text) : Program.World Exchange.interface Shelves where
  reply
    | .get url, s => (.ok (((s.page base url).map s.lend).getD ⟨404, []⟩), s)
    | .post url body, s => (registry base).reply (.post url body) s
    | .close, s => ((), s)

/-- The bodies at versions of subjects that can be lent. -/
def held (s : Shelves) : Holdings := fun t =>
  (s.stored t.1 t.2).bind fun body =>
    if s.Lendable body t.2 then some (s.number body, body) else none

variable {s s' : Shelves} {subject segment : String} {body : Bytes} {base : Text} {v n : Nat}

/-! ## What is held -/

theorem held_eq_some_iff {t : Text} {id : Nat} :
    s.held (t, v) = some (id, body) ↔ s.stored t v = some body ∧ s.number body = id ∧
      v < Envelope.numberBound ∧ id < Envelope.numberBound := by
  unfold held
  rw [Option.bind_eq_some_iff]
  constructor
  · rintro ⟨body', kept, given⟩
    obtain ⟨⟨version, number⟩, same⟩ := Option.ite_none_right_eq_some.1 given
    cases same
    exact ⟨kept, rfl, version, number⟩
  · rintro ⟨kept, rfl, version, number⟩
    exact ⟨body, kept, if_pos ⟨version, number⟩⟩

/-- A body that is stored is a version of the subject. -/
theorem getElem?_of_stored {t : Text} (h : s.stored t v = some body) :
    ∃ segment n, Percent.encode t = .ok segment ∧ v = n + 1 ∧
      (s.versions (.ofString segment))[n]? = some body := by
  unfold stored at h
  split at h
  · exact ⟨_, _, ‹_›, rfl, h⟩
  · cases h

theorem mem_of_mem_versions {segment : Text} (h : body ∈ s.versions segment) :
    body ∈ s.map Prod.snd := by
  obtain ⟨p, hp, rfl⟩ := List.mem_map.1 h
  exact List.mem_map_of_mem (List.mem_of_mem_filter hp)

theorem length_versions_le (s : Shelves) (segment : Text) :
    (s.versions segment).length ≤ s.length := by
  rw [versions, List.length_map]
  exact List.length_filter_le ..

/-- A body keeps its identifier. -/
theorem number_of_prefix (h : s <+: s') (hb : body ∈ s.map Prod.snd) :
    s'.number body = s.number body := by
  obtain ⟨later, rfl⟩ := h
  rw [number, number, List.map_append, List.idxOf_append_of_mem hb]

theorem held_of_prefix (h : s <+: s') {t : Closure.Target} {p : Nat × Bytes}
    (hp : s.held t = some p) : s'.held t = some p := by
  obtain ⟨kept, id, bounds⟩ := held_eq_some_iff.1 hp
  obtain ⟨_, _, -, -, place⟩ := getElem?_of_stored kept
  have mem := mem_of_mem_versions (List.mem_of_getElem? place)
  have same := number_of_prefix h mem
  have kept' := stored_of_prefix h kept
  exact held_eq_some_iff.2 ⟨kept', same.trans id, bounds⟩

theorem prefix_library (c : Call) (s : Shelves) : s <+: ((library base).reply c s).2 := by
  cases c with
  | get url => exact List.prefix_refl s
  | post url body => exact prefix_reply (.post url body) s
  | close => exact List.prefix_refl s

/-! ## Numbers -/

theorem member?_of_number {name : String} {d : Envelope} (bound : n < Envelope.numberBound) :
    Envelope.member? ((Text.ofString name, .int n) :: d) name = some n := by
  rw [Envelope.member?, Envelope.member?_cons, if_pos rfl, Option.bind_some, Envelope.number?,
    if_pos ⟨Int.natCast_nonneg n, bound⟩, Int.toNat_natCast]

theorem idxOf_le {l : List Bytes} (h : l[n]? = some body) : l.idxOf body ≤ n := by
  have mem : body ∈ l.take (n + 1) :=
    List.mem_of_getElem? (by rwa [List.getElem?_take_of_lt (Nat.lt_succ_self n)])
  have early := List.idxOf_lt_length_of_mem mem
  rw [← List.take_append_drop (n + 1) l, List.idxOf_append_of_mem mem]
  exact Nat.le_of_lt_succ (Nat.lt_of_lt_of_le early (List.length_take_le ..))

/-! ## Posting -/

theorem add_length_le (s : Shelves) (segment : Text) (body : Bytes) :
    (s.add segment body).length ≤ s.length + 1 := by
  unfold add
  split <;> simp

theorem mem_versions_add (s : Shelves) (segment : Text) (body : Bytes) :
    body ∈ (s.add segment body).versions segment := by
  unfold add
  split
  · assumption
  · simp [versions]

theorem address_eq {t : Text} (encoded : Percent.encode t = .ok segment) (tail : String) :
    address base t tail =
      .ok (base ++ (Text.ofString ("/subjects/" ++ segment) ++ Text.ofString tail)) := by
  unfold address
  rw [encoded]
  simp [Text.ofString, String.toList_append]

variable {settings : Settings} {json : Json}

/-- A body that is posted to the versions of a subject is kept there. -/
theorem run_answer_versions {t : Text} (encoded : Percent.encode t = .ok segment)
    (bytes : Utf8.encode (Json.write Json.spaced json) = body)
    (bound : (s.add (.ofString segment) body).number body < Envelope.numberBound) :
    (answer (library settings.url) settings (.versions t) (some json)).run s =
      (.ok [(Text.ofString "id", .int ((s.add (.ofString segment) body).number body))],
        s.add (.ofString segment) body) := by
  rw [Repository.answer_versions, run_post_ok_iff]
  refine ⟨_, _, address_eq encoded _, ?_, ofResponse_numbered bound⟩
  have parts := split_below settings.url (Percent.slash_encode encoded) "/versions" (by decide)
  simp only [library, registry, parts, bytes]
  exact if_pos trivial

/-- The version of a body is told to those who post it to its subject. -/
theorem run_answer_subject {t : Text} (encoded : Percent.encode t = .ok segment)
    (bytes : Utf8.encode (Json.write Json.spaced json) = body)
    (kept : body ∈ s.versions (.ofString segment))
    (bound : ((s.versions (.ofString segment)).idxOf body + 1 : Nat) < Envelope.numberBound) :
    (answer (library settings.url) settings (.subject t) (some json)).run s =
      (.ok [(Text.ofString "version",
        .int ((s.versions (.ofString segment)).idxOf body + 1 : Nat))], s) := by
  rw [Repository.answer_subject, run_post_ok_iff]
  refine ⟨_, _, address_eq encoded _, ?_, ofResponse_numbered bound⟩
  have parts := split_below settings.url (Percent.slash_encode encoded) "" (by decide)
  simp only [library, registry, parts, bytes]
  rw [if_neg (by decide), if_pos ⟨rfl, kept⟩]

/-! ## Lending -/

theorem url_version {t : Text} (encoded : Percent.encode t = .ok segment) (v : Nat) :
    (direct settings).url (.version t v) =
      .ok (settings.url ++ (Text.ofString ("/subjects/" ++ segment) ++
        Text.ofString ("/versions/" ++ toString v))) := by
  simp [Client.url, Resource.path, Resource.subjectPath, encoded, Except.map, direct, Text.ofString,
    String.toList_append]

theorem mem_zipIdx_versions {t : Text} (encoded : Percent.encode t = .ok segment) :
    (body, v) ∈ (s.versions (.ofString segment)).zipIdx 1 ↔ s.stored t v = some body := by
  rw [List.mk_mem_zipIdx_iff_le_and_getElem?_sub]
  cases v <;> simp [stored, encoded]

/-- The address of a version names the body that is held there. -/
theorem page_eq_some_iff {t : Text} (encoded : Percent.encode t = .ok segment) :
    s.page base (base ++ (Text.ofString ("/subjects/" ++ segment) ++
      Text.ofString ("/versions/" ++ toString v))) = some body ↔
        s.held (t, v) = some (s.number body, body) := by
  have named {m : Nat} (same : Text.ofString ("/versions/" ++ toString v) =
      Text.ofString ("/versions/" ++ toString m)) : v = m :=
    toString_nat_injective ((String.append_right_inj _).1 (Text.ofString_injective same))
  unfold page
  rw [split_below base (Percent.slash_encode encoded) _
    (by simp [Text.ofString, String.toList_append]), held_eq_some_iff]
  dsimp only
  constructor
  · intro paged
    obtain ⟨⟨b, m⟩, found, rfl⟩ := Option.map_eq_some_iff.1 paged
    have shown := List.find?_some found
    obtain ⟨same, lendable⟩ := of_decide_eq_true shown
    obtain rfl := named same
    exact ⟨(mem_zipIdx_versions encoded).1 (List.mem_of_find?_eq_some found), rfl, lendable⟩
  · rintro ⟨kept, -, lendable⟩
    have isSome : (((s.versions (.ofString segment)).zipIdx 1).find? fun b =>
        Text.ofString ("/versions/" ++ toString v) = Text.ofString ("/versions/" ++ toString b.2) ∧
          s.Lendable b.1 b.2).isSome :=
      List.find?_isSome.2
        ⟨(body, v), (mem_zipIdx_versions encoded).2 kept, decide_eq_true ⟨rfl, lendable⟩⟩
    obtain ⟨⟨b, m⟩, found⟩ := Option.isSome_iff_exists.1 isSome
    have shown := List.find?_some found
    obtain ⟨same, -⟩ := of_decide_eq_true shown
    obtain rfl := named same
    have there := (mem_zipIdx_versions encoded).1 (List.mem_of_find?_eq_some found)
    obtain rfl := Option.some.inj (kept.symm.trans there)
    rw [found]
    rfl

/-- The members that are lent for the document of a schema. -/
def lent (x : RegisteredSchema) : Envelope :=
  (Text.ofString "id", .int x.id) :: Envelope.registered x

theorem legible_lent {x : RegisteredSchema} (plain : x.Plain)
    (bound : x.id < Envelope.numberBound) : (Json.object (lent x)).Legible Json.maxNesting := by
  have items := Envelope.legibleItems_toJson plain.references 987
  have digits := Envelope.length_toDigits_le bound
  have three : [Text.ofString "id", Text.ofString "schema", Text.ofString "schemaType"].Nodup := by
    decide
  have four : [Text.ofString "id", Text.ofString "schema", Text.ofString "schemaType",
      Text.ofString "references"].Nodup := by
    decide
  unfold lent Envelope.registered
  split
  · exact ⟨three, Text.settled_ofChars _, digits, Text.settled_ofChars _, plain.text,
      Text.settled_ofChars _, plain.name, trivial⟩
  · exact ⟨four, Text.settled_ofChars _, digits, Text.settled_ofChars _, plain.text,
      Text.settled_ofChars _, plain.name, Text.settled_ofChars _, items, trivial⟩

/-- What is lent tells the schema. -/
theorem tells_lent {x : RegisteredSchema} (plain : x.Plain) : (lent x).Tells x := by
  have behind (key : String) (ne : "id" ≠ key) :
      Json.member? (lent x) key = Json.member? (Envelope.registered x) key :=
    (Envelope.member?_cons "id" key _ _).trans (if_neg ne)
  obtain ⟨text, ⟨name, named, type⟩, items, listed, denoted⟩ :=
    Envelope.tells_registered plain.type
  exact ⟨(behind _ (by decide)).trans text, ⟨name, (behind _ (by decide)).trans named, type⟩,
    items, (behind _ (by decide)).trans listed, denoted⟩

theorem ofResponse_lend {x : RegisteredSchema} (plain : x.Plain)
    (bound : x.id < Envelope.numberBound)
    (id : s.number (posted x.type x.text x.references) = x.id) :
    Envelope.ofResponse (s.lend (posted x.type x.text x.references)) = .ok (lent x) := by
  have document := Envelope.document_registration plain
  rw [registration_eq] at document
  unfold lend
  rw [posted, document]
  dsimp only
  rw [← posted, id]
  exact Envelope.ofResponse_document (Envelope.document_write (legible_lent plain bound))

/-- What is lent at a version is what is answered when it is asked for. -/
theorem run_answer_version_of_encoded (s : Shelves) (settings : Settings) {t : Text}
    (encoded : Percent.encode t = .ok segment) (v : Nat) :
    ∃ url, (∀ body, s.page settings.url url = some body ↔
        s.held (t, v) = some (s.number body, body)) ∧
      (answer (library settings.url) settings (.version t v) none).run s =
        (Envelope.ofResponse (((s.page settings.url url).map s.lend).getD ⟨404, []⟩), s) := by
  refine ⟨_, fun body => page_eq_some_iff encoded, ?_⟩
  unfold answer
  rw [url_version encoded, Worldly.run_bind, Worldly.run_ofExcept]
  dsimp only
  rw [Worldly.run_bind, run_response]
  exact Worldly.run_ofExcept ..

theorem run_answer_version {t : Text} {x : RegisteredSchema} (plain : x.Plain)
    (kept : s.held (t, v) = some (x.id, posted x.type x.text x.references)) :
    (answer (library settings.url) settings (.version t v) none).run s = (.ok (lent x), s) := by
  obtain ⟨stored, id, -, bound⟩ := held_eq_some_iff.1 kept
  obtain ⟨segment, -, encoded, -, -⟩ := getElem?_of_stored stored
  obtain ⟨url, page, answered⟩ := run_answer_version_of_encoded s settings encoded v
  have lent := (page _).2 (kept.trans (by rw [id]))
  rw [answered, lent, Option.map_some, Option.getD_some, ofResponse_lend plain bound id]

/-- Nothing is told of a version that is not held. -/
theorem run_answer_version_of_none {t : Text} (missing : s.held (t, v) = none) :
    ∃ f, (answer (library settings.url) settings (.version t v) none).run s = (.error f, s) := by
  cases encoded : Percent.encode t with
  | error u =>
    have unaddressed : (direct settings).url (.version t v) =
        .error (.foreign (.ofUnencodable u)) := by
      simp [Client.url, Resource.path, Resource.subjectPath, encoded, Except.map]
    unfold answer
    rw [unaddressed]
    exact ⟨_, rfl⟩
  | ok segment =>
    obtain ⟨url, page, answered⟩ := run_answer_version_of_encoded s settings encoded v
    have absent : s.page settings.url url = none := by
      rw [Option.eq_none_iff_forall_ne_some]
      intro body paged
      cases missing.symm.trans ((page body).1 paged)
    rw [answered, absent]
    exact ⟨_, rfl⟩

/-! ## The repository -/

/-- A new body finds a place as long as the shelves are not too long. -/
theorem appends (settings : Settings) (subject : String) (type : SchemaType) (text : Text)
    (references : List RegisteredReference)
    (room : (s.length + (n + 1) : Nat) < Envelope.numberBound) :
    ∃ d s' id version, (answer (library settings.url) settings (.versions subject)
        (some (Envelope.registration type text references))).run s = (.ok d, s') ∧
      d.id = .ok id ∧ s'.held (subject, version) = some (id, posted type text references) ∧
      (s'.length + n : Nat) < Envelope.numberBound := by
  obtain ⟨segment, encoded⟩ := Percent.encode_ofString subject
  let body := posted type text references
  let s' := s.add (.ofString segment) body
  have mem : body ∈ s'.versions (.ofString segment) := mem_versions_add ..
  have length : s'.length ≤ s.length + 1 := add_length_le ..
  have version : (s'.versions (.ofString segment)).idxOf body < s'.length :=
    Nat.lt_of_lt_of_le (List.idxOf_lt_length_of_mem mem) (length_versions_le ..)
  have number : s'.number body ≤ s'.length := by
    have := List.idxOf_lt_length_of_mem (mem_of_mem_versions mem)
    rwa [List.length_map] at this
  have bound : (s'.number body : Int) < Envelope.numberBound := by omega
  refine ⟨_, s', s'.number body, (s'.versions (.ofString segment)).idxOf body + 1,
    run_answer_versions encoded (encode_registration ..) bound, ?_,
    held_eq_some_iff.2 ⟨?_, rfl, by omega, bound⟩, by omega⟩
  · rw [Envelope.id, member?_of_number bound]
  · simp only [stored, encoded]
    exact List.getElem?_idxOf mem

/-- A body that is held is found by its first version. -/
theorem finds (settings : Settings) {subject : Text} {id : Nat} {type : SchemaType} {text : Text}
    {references : List RegisteredReference}
    (kept : s.held (subject, v) = some (id, posted type text references)) :
    ∃ d version, (answer (library settings.url) settings (.subject subject)
        (some (Envelope.registration type text references))).run s = (.ok d, s) ∧
      d.version = .ok version ∧
      s.held (subject, version) = some (id, posted type text references) := by
  obtain ⟨stored, number, version, bound⟩ := held_eq_some_iff.1 kept
  obtain ⟨segment, n, encoded, rfl, place⟩ := getElem?_of_stored stored
  have mem := List.mem_of_getElem? place
  have first := idxOf_le place
  have small : ((s.versions (.ofString segment)).idxOf (posted type text references) + 1 : Nat) <
      Envelope.numberBound := by
    omega
  refine ⟨_, _, run_answer_subject encoded (encode_registration ..) mem small, ?_,
    held_eq_some_iff.2 ⟨?_, number, small, bound⟩⟩
  · rw [Envelope.version, member?_of_number small]
  · simp only [Shelves.stored, encoded]
    exact List.getElem?_idxOf mem

/-- The registry is a repository. -/
def repository (settings : Settings) : Repository (library settings.url) settings where
  held := held
  room s n := (s.length + n : Nat) < Envelope.numberBound
  keeps c h := held_of_prefix (prefix_library c _) h
  bounded h := (held_eq_some_iff.1 h).2.2.1
  appends subject type text references room _ :=
    appends settings subject type text references room
  finds kept :=
    let ⟨d, version, told, named, kept'⟩ := finds settings kept
    ⟨d, _, _, version, told, named, kept', fun _ room => room⟩
  returns plain kept := ⟨_, _, run_answer_version plain kept,
    member?_of_number (held_eq_some_iff.1 kept).2.2.2, tells_lent plain⟩
  misses missing answered := by
    obtain ⟨f, failed⟩ := run_answer_version_of_none missing
    cases failed.symm.trans answered

end Registrar.Shelves
