import Mathlib.Data.List.TakeWhile
import Registrar.Proofs.Client.Addresses
import Registrar.Proofs.Client.Ledger
import Registrar.Proofs.Envelope

/-!
# A registry that is a ledger

`Shelves.registry` keeps the bodies that are posted to the versions of a subject, each once. The
identifier of a body is its place among all, its version is its place among those of the subject. It
tells the version to those who post the body to the subject itself.
-/

namespace Registrar

open Exchange (Call)

/-- The bodies that are kept, each with the segment of the address that names its subject. -/
abbrev Shelves := List (Text × Bytes)

namespace Shelves

/-- The bodies that are kept for a subject. -/
def versions (s : Shelves) (segment : Text) : List Bytes :=
  (s.filter (·.1 = segment)).map Prod.snd

/-- Keeps a body, unless it is kept. -/
def add (s : Shelves) (segment : Text) (body : Bytes) : Shelves :=
  if body ∈ s.versions segment then s else s ++ [(segment, body)]

/-- The segment that names a subject in an address, and what follows it. -/
def split (base url : Text) : Option (Text × Text) :=
  let root := base ++ Text.ofString "/subjects/"
  if root.isPrefixOf url then
    let rest := url.drop root.length
    some (rest.takeWhile (· ≠ .char '/'), rest.dropWhile (· ≠ .char '/'))
  else none

/-- A response that tells a number, if it is none that is too large. -/
def numbered (name : String) (n : Nat) : Response :=
  if n < Envelope.numberBound then
    ⟨200, Utf8.encode (Json.write Json.spaced (.record [(name, .int n)]))⟩
  else ⟨500, []⟩

/-- The registry at the base URL. -/
def registry (base : Text) : Program.World Exchange.interface Shelves where
  reply
    | .get _, s => (.ok ⟨404, []⟩, s)
    | .post url body, s =>
      match split base url with
      | some (segment, rest) =>
        if rest = Text.ofString "/versions" then
          (.ok (numbered "id" (((s.add segment body).map Prod.snd).idxOf body + 1)),
            s.add segment body)
        else if rest = [] ∧ body ∈ s.versions segment then
          (.ok (numbered "version" ((s.versions segment).idxOf body + 1)), s)
        else (.ok ⟨404, []⟩, s)
      | none => (.ok ⟨404, []⟩, s)
    | .close, s => ((), s)

/-- The body at a version of a subject; the first version is one. -/
def stored (s : Shelves) (subject : Text) (version : Nat) : Option Bytes :=
  match Percent.encode subject, version with
  | .ok segment, n + 1 => (s.versions (.ofString segment))[n]?
  | _, _ => none

variable {s : Shelves} {segment : Text} {body : Bytes} {base : Text}

/-! ## Nothing is forgotten -/

theorem prefix_reply (c : Call) (s : Shelves) : s <+: ((registry base).reply c s).2 := by
  have added (segment : Text) (body : Bytes) : s <+: s.add segment body := by
    unfold add
    split
    · exact List.prefix_refl s
    · exact List.prefix_append s _
  cases c with
  | get url => exact List.prefix_refl s
  | close => exact List.prefix_refl s
  | post url body =>
    simp only [registry]
    split
    · split
      · exact added ..
      · split <;> exact List.prefix_refl s
    · exact List.prefix_refl s

theorem stored_of_prefix {s s' : Shelves} (h : s <+: s') {subject : Text} {v : Nat}
    (hb : s.stored subject v = some body) : s'.stored subject v = some body := by
  unfold stored at hb ⊢
  split at hb
  · rename_i segment n _
    obtain ⟨later, same⟩ : s.versions (.ofString segment) <+: s'.versions (.ofString segment) :=
      (h.filter _).map _
    rw [← same, List.getElem?_append_left (List.getElem?_eq_some_iff.1 hb).1]
    exact hb
  · cases hb

/-! ## The version is the one of the body -/

theorem ofResponse_numbered {name : String} {n : Nat} (bound : n < Envelope.numberBound) :
    Envelope.ofResponse (numbered name n) = .ok [(Text.ofString name, .int n)] := by
  have legible : (Json.object [(Text.ofString name, .int n)]).Legible Json.maxNesting :=
    ⟨List.nodup_singleton _, Text.settled_ofChars _, Envelope.length_toDigits_le bound, trivial⟩
  rw [numbered, if_pos bound]
  exact Envelope.ofResponse_document (Envelope.document_write legible)

theorem of_numbered {name : String} {n : Nat} {d : Envelope}
    (h : Envelope.ofResponse (numbered name n) = .ok d) :
    d = [(Text.ofString name, .int n)] ∧ n < Envelope.numberBound := by
  by_cases bound : n < Envelope.numberBound
  · exact ⟨Except.ok.inj (h.symm.trans (ofResponse_numbered bound)), bound⟩
  · rw [numbered, if_neg bound] at h
    cases h

theorem version_of_member {d : Envelope} {n : Nat} (bound : n < Envelope.numberBound)
    (h : Json.member? d "version" = some (.int n)) : d.version = .ok n := by
  have number : Envelope.number? (.int n) = some n := by
    rw [Envelope.number?, if_pos ⟨Int.natCast_nonneg n, bound⟩, Int.toNat_natCast]
  have member : d.member? "version" = some n := by
    rw [Envelope.member?, h, Option.bind_some, number]
  rw [Envelope.version, member]

/-- The address of a subject is split at the slash behind its segment. -/
theorem split_below (base : Text) {segment : String} (h : '/' ∉ segment.toList) (rest : Text)
    (below : ∀ s ∈ rest.head?, s = .char '/') :
    split base (base ++ (Text.ofString ("/subjects/" ++ segment) ++ rest)) =
      some (.ofString segment, rest) := by
  have parts : base ++ (Text.ofString ("/subjects/" ++ segment) ++ rest) =
      (base ++ Text.ofString "/subjects/") ++ (Text.ofString segment ++ rest) := by
    simp [Text.ofString, String.toList_append]
  have plain : ∀ x ∈ Text.ofString segment, decide (x ≠ .char '/') = true := by
    intro x hx
    obtain ⟨c, hc, rfl⟩ := List.mem_map.1 hx
    refine decide_eq_true fun same => h ?_
    exact Symbol.char.inj same ▸ hc
  unfold split
  dsimp only
  rw [parts, if_pos (List.isPrefixOf_iff_prefix.2 (List.prefix_append _ _)), List.drop_left]
  rw [List.takeWhile_append_of_pos plain, List.dropWhile_append_of_pos plain]
  cases rest with
  | nil => simp
  | cons s rest =>
    obtain rfl := below s rfl
    simp

theorem split_subject {segment : String} (h : '/' ∉ segment.toList) :
    split base (base ++ Text.ofString ("/subjects/" ++ segment)) =
      some (.ofString segment, []) := by
  have whole := split_below base h [] (by simp)
  rwa [List.append_nil] at whole

/-- What is answered to a body that is posted to a subject. -/
theorem of_asked {e e' : Shelves} {subject : Text} {body : Json} {d : Envelope}
    (h : (Posting.post (registry base) base subject "" body).run e = (.ok d, e')) :
    e' = e ∧ ∃ segment, Percent.encode subject = .ok segment ∧
      Utf8.encode (Json.write Json.spaced body) ∈ e.versions segment ∧
        Envelope.ofResponse (numbered "version" ((e.versions segment).idxOf
          (Utf8.encode (Json.write Json.spaced body)) + 1)) = .ok d := by
  obtain ⟨url, response, address, replied, read⟩ := Posting.run_post_ok_iff.1 h
  unfold Posting.address at address
  split at address
  · rename_i segment encoded
    cases address
    rw [String.append_empty] at replied
    simp only [registry, split_subject (Percent.slash_encode encoded)] at replied
    rw [if_neg (by decide)] at replied
    by_cases kept : Utf8.encode (Json.write Json.spaced body) ∈ e.versions segment
    · rw [if_pos ⟨trivial, kept⟩] at replied
      obtain ⟨given, rfl⟩ := Prod.mk.inj replied
      exact ⟨rfl, segment, encoded, kept, Except.ok.inj given ▸ read⟩
    · rw [if_neg fun h => kept h.2] at replied
      obtain ⟨given, rfl⟩ := Prod.mk.inj replied
      obtain rfl := Except.ok.inj given
      cases read
  · cases address

/-- The registry is a ledger. -/
def ledger (base : Text) : Ledger (registry base) base where
  stored := stored
  keeps c h := stored_of_prefix (prefix_reply c _) h
  answers := by
    intro e e' subject body d v h hv
    obtain ⟨rfl, segment, encoded, kept, read⟩ := of_asked h
    obtain ⟨rfl, bound⟩ := of_numbered read
    have told := Envelope.member?_cons "version" "version"
      (.int ↑((versions e' segment).idxOf (Utf8.encode (Json.write Json.spaced body)) + 1)) []
    obtain rfl := Except.ok.inj ((version_of_member bound (told.trans (if_pos rfl))).symm.trans hv)
    simp only [stored, encoded]
    exact List.getElem?_idxOf kept

end Shelves

end Registrar
