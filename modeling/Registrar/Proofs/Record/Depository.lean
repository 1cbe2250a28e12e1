import Registrar.Proofs.Client.Library
import Registrar.Proofs.Record.Archive

/-!
# A registry that is an archive

`Shelves.depository` is a registry that takes the documents of schemas and nothing else. It gives
them out like a library, and also to those who ask for an identifier or for the latest version of a
subject. It keeps bytes, so of a schema that is not settled it keeps what documents give back.
-/

namespace Registrar

instance (r : RegisteredReference) : Decidable r.Plain :=
  decidable_of_iff (r.name.Settled ∧ r.subject.Settled ∧ r.version < Envelope.numberBound)
    ⟨fun ⟨name, subject, version⟩ => ⟨name, subject, version⟩, fun h => ⟨h.1, h.2, h.3⟩⟩

instance (x : RegisteredSchema) : Decidable x.Plain :=
  decidable_of_iff (SchemaType.ofRegistryName (some x.type.registryName) = .ok x.type ∧
      x.type.registryName.Settled ∧ x.text.Settled ∧ ∀ r ∈ x.references, r.Plain)
    ⟨fun ⟨type, name, text, references⟩ => ⟨type, name, text, references⟩,
      fun h => ⟨h.1, h.2, h.3, h.4⟩⟩

namespace Shelves

open Exchange (Call)
open Client Posting

/-! ## Documents -/

/-- The schema with the identifier of which the body is the document, if it is one. -/
def told? (id : Nat) (body : Bytes) : Option RegisteredSchema :=
  match Envelope.document body with
  | .ok (.object members) =>
    match Envelope.schema members (some id) with
    | .ok x => if x.Plain ∧ posted x.type x.text x.references = body then some x else none
    | .error _ => none
  | _ => none

theorem document_posted {x : RegisteredSchema} (plain : x.Plain) :
    Envelope.document (posted x.type x.text x.references) =
      .ok (.object (Envelope.registered x)) := by
  rw [← encode_registration]
  exact Envelope.document_registration plain

theorem told?_eq_some_iff {id : Nat} {body : Bytes} {x : RegisteredSchema} :
    told? id body = some x ↔
      x.Plain ∧ x.id = id ∧ body = posted x.type x.text x.references := by
  constructor
  · intro h
    unfold told? at h
    split at h
    · rename_i members document
      split at h
      · rename_i y read
        obtain ⟨⟨plain, rfl⟩, same⟩ := Option.ite_none_right_eq_some.1 h
        cases same
        obtain ⟨rfl⟩ := Except.ok.inj (document.symm.trans (document_posted plain))
        have requested := (Envelope.parts_of_schema read).1
        unfold Envelope.schemaId at requested
        rw [Envelope.member?_id_registered] at requested
        exact ⟨plain, (Int.ofNat_inj.1 (Except.ok.inj requested)).symm, rfl⟩
      · cases h
    · cases h
  · rintro ⟨plain, rfl, rfl⟩
    unfold told?
    rw [document_posted plain]
    dsimp only
    rw [(Envelope.tells_registered plain.type).schema_requested (Envelope.bears_registered x _)]
    exact if_pos ⟨plain, rfl⟩

/-- A body that is a document is one whatever its identifier. -/
theorem exists_told?_of_isSome {body : Bytes} {m : Nat} (h : (told? m body).isSome) (n : Nat) :
    ∃ x, told? n body = some x := by
  obtain ⟨x, hx⟩ := Option.isSome_iff_exists.1 h
  obtain ⟨plain, -, rfl⟩ := told?_eq_some_iff.1 hx
  exact ⟨{ x with id := n },
    told?_eq_some_iff.2 ⟨⟨plain.type, plain.name, plain.text, plain.references⟩, rfl, rfl⟩⟩

/-! ## The registry -/

/-- The body that has the identifier. -/
def bearer (s : Shelves) (n : Nat) : Option Bytes :=
  (s.map Prod.snd).find? fun body => s.number body = n

/-- The schema of which a body is the document, if its identifier is not too large. -/
def entry (s : Shelves) (body : Bytes) : Option RegisteredSchema :=
  if s.number body < Envelope.numberBound then told? (s.number body) body else none

/-- The body for which an address asks. -/
def asked (s : Shelves) (base url : Text) : Option Bytes :=
  match split base url with
  | some (segment, rest) =>
    if rest = Text.ofString "/versions/latest" then (s.versions segment).getLast?
    else s.page base url
  | none =>
    (s.map Prod.snd).find? fun body =>
      url = base ++ Text.ofString ("/schemas/ids/" ++ toString (s.number body))

/-- The members of a body behind its identifier, if it is the document of a schema. -/
def issue (s : Shelves) (body : Bytes) : Response :=
  if (s.entry body).isSome then s.lend body else ⟨404, []⟩

/-- The registry at the base URL that takes documents of schemas only. -/
def depository (base : Text) : Program.World Exchange.interface Shelves where
  reply
    | .get url, s => (.ok (((s.asked base url).map s.issue).getD ⟨404, []⟩), s)
    | .post url body, s =>
      if (told? 0 body).isSome then (registry base).reply (.post url body) s
      else (.ok ⟨422, []⟩, s)
    | .close, s => ((), s)

variable {s s' : Shelves} {body : Bytes} {base : Text} {n : Nat} {x : RegisteredSchema}

theorem entry_eq_some_iff : s.entry body = some x ↔
    x.Plain ∧ x.id = s.number body ∧ body = posted x.type x.text x.references ∧
      x.id < Envelope.numberBound := by
  unfold entry
  rw [Option.ite_none_right_eq_some, told?_eq_some_iff]
  constructor
  · rintro ⟨bound, plain, id, same⟩
    rw [← id] at bound
    exact ⟨plain, id, same, bound⟩
  · rintro ⟨plain, id, same, bound⟩
    rw [id] at bound
    exact ⟨bound, plain, id, same⟩

theorem bearer_eq_some_iff : s.bearer n = some body ↔
    body ∈ s.map Prod.snd ∧ s.number body = n := by
  constructor
  · intro found
    have shown := List.find?_some found
    exact ⟨List.mem_of_find?_eq_some found, of_decide_eq_true shown⟩
  · rintro ⟨mem, rfl⟩
    obtain ⟨b, found⟩ : ∃ b, s.bearer (s.number body) = some b :=
      Option.isSome_iff_exists.1 (List.find?_isSome.2 ⟨body, mem, decide_eq_true rfl⟩)
    have shown := List.find?_some found
    have same := Nat.succ.inj (of_decide_eq_true shown)
    rw [found, (List.idxOf_inj mem).1 same.symm]

/-- A body that is kept is the one that has its identifier. -/
theorem bearer_bind_entry (mem : body ∈ s.map Prod.snd) (h : s.entry body = some x) :
    (s.bearer x.id).bind s.entry = some x := by
  have id := (entry_eq_some_iff.1 h).2.1
  rw [bearer_eq_some_iff.2 ⟨mem, id.symm⟩, Option.bind_some, h]

/-! ## Nothing is forgotten -/

theorem prefix_depository (c : Call) (s : Shelves) : s <+: ((depository base).reply c s).2 := by
  cases c with
  | get url => exact List.prefix_refl s
  | close => exact List.prefix_refl s
  | post url body =>
    simp only [depository]
    split
    · exact prefix_reply (.post url body) s
    · exact List.prefix_refl s

theorem mem_of_held {t : Closure.Target} {id : Nat} (h : s.held t = some (id, body)) :
    body ∈ s.map Prod.snd := by
  obtain ⟨_, _, -, -, place⟩ := getElem?_of_stored (held_eq_some_iff.1 h).1
  exact mem_of_mem_versions (List.mem_of_getElem? place)

theorem entry_of_prefix (h : s <+: s') (mem : body ∈ s.map Prod.snd) :
    s'.entry body = s.entry body := by
  rw [entry, entry, number_of_prefix h mem]

theorem bearer_bind_entry_of_prefix (h : s <+: s') (hx : (s.bearer n).bind s.entry = some x) :
    (s'.bearer n).bind s'.entry = some x := by
  obtain ⟨body, found, given⟩ := Option.bind_eq_some_iff.1 hx
  obtain ⟨mem, id⟩ := bearer_eq_some_iff.1 found
  have same := number_of_prefix h mem
  have found' : s'.bearer n = some body :=
    bearer_eq_some_iff.2 ⟨(h.map Prod.snd).mem mem, same.trans id⟩
  rw [found', Option.bind_some, entry_of_prefix h mem, given]

theorem held_bind_entry_of_prefix (h : s <+: s') {t : Closure.Target}
    (hx : ((s.held t).bind fun p => s.entry p.2) = some x) :
    ((s'.held t).bind fun p => s'.entry p.2) = some x := by
  obtain ⟨⟨id, body⟩, kept, given⟩ := Option.bind_eq_some_iff.1 hx
  have kept' := held_of_prefix h kept
  rw [kept', Option.bind_some, entry_of_prefix h (mem_of_held kept), given]

/-! ## What is given out -/

theorem mem_of_asked {url : Text} (h : s.asked base url = some body) : body ∈ s.map Prod.snd := by
  unfold asked at h
  split at h
  · split at h
    · exact mem_of_mem_versions (List.mem_of_getLast? h)
    · unfold page at h
      split at h
      · obtain ⟨⟨b, v⟩, found, rfl⟩ := Option.map_eq_some_iff.1 h
        have paged := List.mem_of_find?_eq_some found
        exact mem_of_mem_versions (List.fst_mem_of_mem_zipIdx paged)
      · cases h
  · exact List.mem_of_find?_eq_some h

/-- The address of an identifier asks for the body that has it. -/
theorem asked_id (s : Shelves) (base : Text) (n : Nat) :
    s.asked base (base ++ Text.ofString ("/schemas/ids/" ++ toString n)) = s.bearer n := by
  have apart : split base (base ++ Text.ofString ("/schemas/ids/" ++ toString n)) = none := by
    refine if_neg fun h => ?_
    have below := (List.prefix_append_right_inj base).1 (List.isPrefixOf_iff_prefix.1 h)
    simp [Text.ofString, String.toList_append] at below
  have named (m : Nat) : base ++ Text.ofString ("/schemas/ids/" ++ toString n) =
      base ++ Text.ofString ("/schemas/ids/" ++ toString m) ↔ m = n := by
    constructor
    · intro same
      have word := Text.ofString_injective (List.append_cancel_left same)
      exact (toString_nat_injective ((String.append_right_inj _).1 word)).symm
    · rintro rfl
      rfl
  unfold asked bearer
  rw [apart]
  simp only [named]

/-- The address of a version asks for the body that is held there. -/
theorem asked_version {t : Text} {segment : String} (encoded : Percent.encode t = .ok segment)
    (v : Nat) :
    s.asked base (base ++ (Text.ofString ("/subjects/" ++ segment) ++
      Text.ofString ("/versions/" ++ toString v))) = some body ↔
        s.held (t, v) = some (s.number body, body) := by
  have apart : Text.ofString ("/versions/" ++ toString v) ≠ Text.ofString "/versions/latest" := by
    intro same
    have place : (Resource.version t v).place = some (t, "/versions/latest") :=
      congrArg (fun tail => some (t, tail)) (Text.ofString_injective same)
    have latest : (Resource.latest t).place = some (t, "/versions/latest") := rfl
    cases Resource.place_injective place latest
  rw [← page_eq_some_iff encoded]
  unfold asked
  rw [split_below base (Percent.slash_encode encoded) _
    (by simp [Text.ofString, String.toList_append])]
  dsimp only
  rw [if_neg apart]

variable {settings : Settings} {r : Resource} {url : Text} {d : Envelope}

theorem ofResponse_issue (h : s.entry body = some x) :
    Envelope.ofResponse (s.issue body) = .ok (lent x) := by
  obtain ⟨plain, id, rfl, bound⟩ := entry_eq_some_iff.1 h
  rw [issue, h, if_pos Option.isSome_some]
  exact ofResponse_lend plain bound id.symm

theorem run_answer_get (addressed : (direct settings).url r = .ok url) (s : Shelves) :
    (answer (depository settings.url) settings r none).run s =
      (Envelope.ofResponse (((s.asked settings.url url).map s.issue).getD ⟨404, []⟩), s) := by
  unfold answer
  rw [addressed, Worldly.run_bind, Worldly.run_ofExcept]
  dsimp only
  rw [Worldly.run_bind, run_response]
  exact Worldly.run_ofExcept ..

/-- Those who ask for the document of a schema get it. -/
theorem run_answer_get_ok (addressed : (direct settings).url r = .ok url)
    (asks : s.asked settings.url url = some body) (h : s.entry body = some x) :
    (answer (depository settings.url) settings r none).run s = (.ok (lent x), s) := by
  rw [run_answer_get addressed, asks, Option.map_some, Option.getD_some, ofResponse_issue h]

/-- Nothing but documents of schemas is given out. -/
theorem of_answer_get (h : (answer (depository settings.url) settings r none).run s = (.ok d, s')) :
    s' = s ∧ ∃ url body x, (direct settings).url r = .ok url ∧
      s.asked settings.url url = some body ∧ s.entry body = some x ∧ d = lent x := by
  obtain ⟨url, s₁, addressed, -⟩ := Worldly.of_run_bind h
  rw [Worldly.run_ofExcept] at addressed
  have address := congrArg Prod.fst addressed
  rw [run_answer_get address] at h
  obtain ⟨read, rfl⟩ := Prod.mk.inj h
  cases asks : s.asked settings.url url with
  | none =>
    rw [asks] at read
    cases read
  | some body =>
    rw [asks, Option.map_some, Option.getD_some] at read
    cases given : s.entry body with
    | none =>
      rw [issue, given] at read
      cases read
    | some x =>
      rw [ofResponse_issue given] at read
      exact ⟨rfl, url, body, x, address, asks, given, (Except.ok.inj read).symm⟩

/-! ## What is taken -/

/-- A body that is taken is the document of a schema, and is answered with its identifier. -/
theorem of_deposited {subject : Text} {json : Json}
    (h : (post (depository base) base subject "/versions" json).run s = (.ok d, s')) :
    ∃ x, Utf8.encode (Json.write Json.spaced json) ∈ s'.map Prod.snd ∧
      s'.entry (Utf8.encode (Json.write Json.spaced json)) = some x ∧
      d = [(Text.ofString "id", .int x.id)] := by
  generalize hb : Utf8.encode (Json.write Json.spaced json) = body
  obtain ⟨url, response, addressed, replied, read⟩ := run_post_ok_iff.1 h
  rw [hb] at replied
  by_cases told : (told? 0 body).isSome
  · have replied := (if_pos told).symm.trans replied
    cases encoded : Percent.encode subject with
    | error u =>
      unfold address at addressed
      rw [encoded] at addressed
      cases addressed
    | ok segment =>
      obtain rfl := Except.ok.inj ((address_eq encoded _).symm.trans addressed)
      have parts := split_below base (Percent.slash_encode encoded) "/versions" (by decide)
      simp only [registry, parts] at replied
      obtain ⟨given, rfl⟩ := Prod.mk.inj ((if_pos trivial).symm.trans replied)
      obtain rfl := Except.ok.inj given
      obtain ⟨rfl, bound⟩ := of_numbered read
      obtain ⟨x, hx⟩ := exists_told?_of_isSome told (number (s.add (.ofString segment) body) body)
      obtain ⟨-, id, -⟩ := told?_eq_some_iff.1 hx
      refine ⟨x, mem_of_mem_versions (mem_versions_add ..), (if_pos bound).trans hx, ?_⟩
      rw [id]
      rfl
  · obtain ⟨given, -⟩ := Prod.mk.inj ((if_neg told).symm.trans replied)
    obtain rfl := Except.ok.inj given
    cases read

/-! ## The archive -/

theorem lt_idBound (h : (n : Int) < Envelope.numberBound) : n < Frame.idBound := by
  unfold Envelope.numberBound at h
  unfold Frame.idBound
  omega

/-- The registry is an archive. -/
def archive (settings : Settings) : Archive (depository settings.url) settings where
  schema s n := (s.bearer n).bind s.entry
  version s t := (s.held t).bind fun p => s.entry p.2
  bears_id h := by
    obtain ⟨body, found, given⟩ := Option.bind_eq_some_iff.1 h
    obtain ⟨-, id, -, bound⟩ := entry_eq_some_iff.1 given
    obtain rfl := id.trans (bearer_eq_some_iff.1 found).2
    exact ⟨rfl, lt_idBound bound⟩
  knows_version h := by
    obtain ⟨⟨id, body⟩, kept, given⟩ := Option.bind_eq_some_iff.1 h
    exact bearer_bind_entry (mem_of_held kept) given
  keeps_schema c := bearer_bind_entry_of_prefix (prefix_depository c _)
  keeps_version c := held_bind_entry_of_prefix (prefix_depository c _)
  answers_id h := by
    obtain ⟨body, found, given⟩ := Option.bind_eq_some_iff.1 h
    exact ⟨_, _, run_answer_get_ok rfl ((asked_id ..).trans found) given⟩
  tells_id _ h := by
    obtain ⟨rfl, url, body, x, addressed, asks, given, rfl⟩ := of_answer_get h
    obtain rfl := Except.ok.inj addressed
    obtain ⟨plain, id, -, bound⟩ := entry_eq_some_iff.1 given
    have found := (asked_id ..).symm.trans asks
    obtain rfl := id.trans (bearer_eq_some_iff.1 found).2
    exact ⟨x, bearer_bind_entry (mem_of_asked asks) given, tells_lent plain,
      .inr (member?_of_number bound)⟩
  tells_latest h hn := by
    obtain ⟨rfl, url, body, x, -, asks, given, rfl⟩ := of_answer_get h
    obtain ⟨plain, -, -, bound⟩ := entry_eq_some_iff.1 given
    obtain rfl := Option.some.inj ((member?_of_number bound).symm.trans hn)
    exact ⟨x, bearer_bind_entry (mem_of_asked asks) given, tells_lent plain⟩
  answers_version h := by
    obtain ⟨⟨id, body⟩, kept, given⟩ := Option.bind_eq_some_iff.1 h
    obtain ⟨stored, rfl, -⟩ := held_eq_some_iff.1 kept
    obtain ⟨segment, -, encoded, -, -⟩ := getElem?_of_stored stored
    have bound := (entry_eq_some_iff.1 given).2.2.2
    exact ⟨_, _, run_answer_get_ok (url_version encoded _) ((asked_version encoded _).2 kept) given,
      member?_of_number bound⟩
  tells_version := by
    intro s s' d n t h hn
    obtain ⟨rfl, url, body, x, addressed, asks, given, rfl⟩ := of_answer_get h
    obtain ⟨plain, id, -, bound⟩ := entry_eq_some_iff.1 given
    obtain rfl := Option.some.inj ((member?_of_number bound).symm.trans hn)
    cases encoded : Percent.encode t.1 with
    | error u =>
      have unaddressed : (direct settings).url (.version t.1 t.2) =
          .error (.foreign (.ofUnencodable u)) := by
        simp [Client.url, Resource.path, Resource.subjectPath, encoded, Except.map]
      cases unaddressed.symm.trans addressed
    | ok segment =>
      obtain rfl := Except.ok.inj ((url_version encoded _).symm.trans addressed)
      have kept : s'.held t = some (s'.number body, body) := (asked_version encoded _).1 asks
      refine ⟨x, ?_, rfl, tells_lent plain⟩
      rw [kept, Option.bind_some, given]
  stores := by
    intro s s' d subject json n members h hn document
    rw [Repository.answer_versions] at h
    obtain ⟨x, mem, given, rfl⟩ := of_deposited h
    obtain ⟨plain, -, same, bound⟩ := entry_eq_some_iff.1 given
    have id : Envelope.id [(Text.ofString "id", .int x.id)] = .ok x.id := by
      rw [Envelope.id, member?_of_number bound]
    obtain rfl := Except.ok.inj (id.symm.trans hn)
    rw [same, document_posted plain] at document
    obtain ⟨rfl⟩ := Except.ok.inj document
    exact ⟨x, bearer_bind_entry mem given, Envelope.tells_registered plain.type⟩

/-- A tree that uses one leaf twice. -/
def branching : SuppliedSchema :=
  ⟨none, .avro, "top", [.mk "a" "a" "inner" [.mk "c" "c" "leaf" []], .mk "c" "c" "leaf" []]⟩

end Shelves

end Registrar
