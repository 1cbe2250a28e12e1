import Registrar.Payload.Codec
import Registrar.Proofs.Json.Ascii
import Registrar.Proofs.Json.Reading

/-!
# Payloads that are documents

The codec of JSON documents writes a value in ASCII and reads it back as it was, with the members of
its objects in their order. It does so with every ordinary JSON value, if as many levels are read as
the value has, and with every value that it has read itself, if no floating-point number is in it.
-/

namespace Registrar

namespace Value

mutual

/-- Legible data is no other data after it has become a value. -/
theorem toJson_ofJson : (j : Json) → {levels : Nat} → j.Legible levels → (ofJson j).toJson = .ok j
  | .null, _, _ | .bool _, _, _ | .string _, _, _ => rfl
  | .int _, _, short => congrArg (Except.map Json.int) (if_pos short)
  | .array items, _ + 1, legible => by
    rw [ofJson, toJson, toItems_ofItems items legible]
    rfl
  | .object members, _ + 1, legible => by
    rw [ofJson, toJson, toMembers_ofMembers members legible.2]
    rfl

theorem toItems_ofItems : (vs : List Json) → {levels : Nat} → Json.LegibleItems levels vs →
    toItems (ofItems vs) = .ok vs
  | [], _, _ => rfl
  | v :: vs, _, legible => by
    rw [ofItems, toItems, toJson_ofJson v legible.1, toItems_ofItems vs legible.2]
    rfl

theorem toMembers_ofMembers : (ms : List (Text × Json)) → {levels : Nat} →
    Json.LegibleMembers levels ms → toMembers (ofMembers ms) = .ok ms
  | [], _, _ => rfl
  | (k, v) :: ms, _, legible => by
    rw [ofMembers, toMembers, keyText, toJson_ofJson v legible.2.1,
      toMembers_ofMembers ms legible.2.2]
    rfl

end

end Value

namespace Json

mutual

/-- A value without floating-point numbers, whose integers are not too long, whose strings are
ordinary text and whose objects have each key once. -/
def Ordinary : Json → Prop
  | .null => True
  | .bool _ => True
  | .int n => (Nat.toDigits 10 n.natAbs).length ≤ maxDigits
  | .float _ => False
  | .string t => ∃ s : String, t = .ofString s
  | .array items => OrdinaryItems items
  | .object members => (Assoc.keys members).Nodup ∧ OrdinaryMembers members

def OrdinaryItems : List Json → Prop
  | [] => True
  | v :: vs => Ordinary v ∧ OrdinaryItems vs

def OrdinaryMembers : List (Text × Json) → Prop
  | [] => True
  | (k, v) :: ms => (∃ s : String, k = .ofString s) ∧ Ordinary v ∧ OrdinaryMembers ms

end

mutual

/-- How many arrays and objects there are inside each other. -/
def height : Json → Nat
  | .array items => heightItems items + 1
  | .object members => heightMembers members + 1
  | _ => 0

def heightItems : List Json → Nat
  | [] => 0
  | v :: vs => max (height v) (heightItems vs)

def heightMembers : List (Text × Json) → Nat
  | [] => 0
  | (_, v) :: ms => max (height v) (heightMembers ms)

end

mutual

/-- An ordinary value can be read if it is not nested too deeply. -/
theorem legible_of_ordinary : (v : Json) → {levels : Nat} → v.Ordinary → v.height ≤ levels →
    v.Legible levels
  | .null, _, _, _ => trivial
  | .bool _, _, _, _ => trivial
  | .int _, _, short, _ => short
  | .string _, _, ⟨_, text⟩, _ => text ▸ Text.settled_ofChars _
  | .array items, _ + 1, ordinary, fits =>
    legibleItems_of_ordinary items ordinary (Nat.le_of_succ_le_succ fits)
  | .object members, _ + 1, ordinary, fits =>
    ⟨ordinary.1, legibleMembers_of_ordinary members ordinary.2 (Nat.le_of_succ_le_succ fits)⟩

theorem legibleItems_of_ordinary : (vs : List Json) → {levels : Nat} → OrdinaryItems vs →
    heightItems vs ≤ levels → LegibleItems levels vs
  | [], _, _, _ => trivial
  | v :: vs, _, ordinary, fits => by
    obtain ⟨first, others⟩ := Nat.max_le.1 fits
    exact ⟨legible_of_ordinary v ordinary.1 first, legibleItems_of_ordinary vs ordinary.2 others⟩

theorem legibleMembers_of_ordinary : (ms : List (Text × Json)) → {levels : Nat} →
    OrdinaryMembers ms → heightMembers ms ≤ levels → LegibleMembers levels ms
  | [], _, _, _ => trivial
  | (k, v) :: ms, _, ordinary, fits => by
    obtain ⟨first, others⟩ := Nat.max_le.1 fits
    obtain ⟨⟨s, rfl⟩, member, rest⟩ := ordinary
    exact ⟨Text.settled_ofChars _, legible_of_ordinary v member first,
      legibleMembers_of_ordinary ms rest others⟩

end

end Json

theorem Utf8.encode_ascii {cs : List Char} (h : ∀ c ∈ cs, c.toNat < 0x80) :
    ∀ b ∈ Utf8.encode cs, b < 0x80 := by
  intro b hb
  obtain ⟨c, hc, hb⟩ := List.mem_flatMap.1 hb
  rw [encodeChar_of_ascii (h c hc), List.mem_singleton] at hb
  rw [hb, UInt8.lt_iff_toNat_lt, UInt8.toNat_ofNat']
  exact Nat.lt_of_le_of_lt (Nat.mod_le _ _) (h c hc)

namespace Codec

variable {levels : Nat} {j : Json}

/-- The bytes of a document. -/
def documentBytes (j : Json) : Bytes := Utf8.encode (Json.write Json.compact j)

theorem documentEncode_ofJson (h : j.Legible levels) :
    documentEncode (.ofJson j) = .ok (documentBytes j) := by
  rw [documentEncode, Value.toJson_ofJson j h]
  rfl

theorem documentDecode_bytes (h : j.Legible levels) :
    documentDecode levels (documentBytes j) = .ok (.ofJson j) := by
  rw [documentDecode, documentBytes, Json.decode_write Json.compact_clear h]
  dsimp only
  rw [Json.read_write Json.compact_clear h]

theorem documentBytes_ascii (h : j.Legible levels) : ∀ b ∈ documentBytes j, b < 0x80 :=
  Utf8.encode_ascii (Json.write_ascii Json.compact_clear j h)

/-- What is read and holds no floating-point number can be read again. -/
theorem legible_of_decode {bs : Bytes} {v : Value} (h : documentDecode levels bs = .ok v)
    (floatless : v.Floatless) : ∃ j, v = .ofJson j ∧ j.Legible levels := by
  unfold documentDecode at h
  split at h
  · cases h
  · split at h
    · cases h
    · rename_i cs _ j read
      cases h
      exact ⟨j, rfl, Json.legible_of_readable j (Json.readable_of_read read) floatless⟩

/-- Every ordinary value is written in ASCII and read back as it was, keys in their order, if at
least as many levels are read as it has. And every payload that is read as a value without
floating-point numbers gives this value again when that is written, in ASCII too, and read with the
same limit. -/
theorem document_round_trips :
    (∀ j : Json, j.Ordinary → ∃ bs,
      (∀ levels x rs, (document levels).encode x (.ofJson j) rs = .ok bs) ∧ (∀ b ∈ bs, b < 0x80) ∧
      ∀ levels x rs, j.height ≤ levels → (document levels).decode x bs rs = .ok (.ofJson j)) ∧
    ∀ levels x rs payload v, (document levels).decode x payload rs = .ok v → v.Floatless →
      ∃ bs, (document levels).encode x v rs = .ok bs ∧ (∀ b ∈ bs, b < 0x80) ∧
        (document levels).decode x bs rs = .ok v := by
  constructor
  · intro j ordinary
    have legible := Json.legible_of_ordinary j ordinary (Nat.le_refl _)
    refine ⟨documentBytes j, fun _ _ _ => documentEncode_ofJson legible, documentBytes_ascii legible,
      fun levels _ _ fits => documentDecode_bytes (Json.legible_of_ordinary j ordinary fits)⟩
  · intro levels x rs payload v decoded floatless
    obtain ⟨j, rfl, legible⟩ := legible_of_decode decoded floatless
    exact ⟨documentBytes j, documentEncode_ofJson legible, documentBytes_ascii legible,
      documentDecode_bytes legible⟩

/-- A value with a character beyond ASCII and one beyond the sixteen-bit code units. -/
def sample : Json :=
  .object [(.ofString "b", .array [.int (-7), .null, .bool true]), (.ofString "é", .string "😀\n")]

theorem ordinary_sample : sample.Ordinary :=
  ⟨by decide, ⟨"b", rfl⟩,
    ⟨show (Nat.toDigits 10 7).length ≤ _ by decide, trivial, trivial, trivial⟩, ⟨"é", rfl⟩, ⟨"😀\n", rfl⟩, trivial⟩

/-- A document with spaces, a repeated key and a lone surrogate. -/
def untidy : Bytes :=
  Utf8.encode "\x7b \"k\": 1.5, \"s\": \"\\ud800\", \"k\" : [] \x7d".toList

/-- What is read of it. -/
def tidied : Value :=
  .map [(.string "k", .list []), (.string "s", .string [.surrogate ⟨0, by decide⟩])]

/-- A schema of documents. -/
def anything : RegisteredSchema := ⟨1, .json, "true", []⟩

/-- Equality of values is not decidable; whether one is `tidied` is. -/
def isTidied : Except Failure Value → Bool
  | .ok (.map [(.string k, .list []), (.string s, .string [.surrogate c])]) =>
    k == "k" && s == "s" && c == ⟨0, by decide⟩
  | _ => false

theorem eq_of_isTidied {out : Except Failure Value} (h : isTidied out = true) :
    out = .ok tidied := by
  unfold isTidied at h
  split at h
  · simp only [Bool.and_eq_true, beq_iff_eq] at h
    obtain ⟨⟨rfl, rfl⟩, rfl⟩ := h
    rfl
  · cases h

theorem decode_untidy : (document 2).decode anything untidy [] = .ok tidied :=
  eq_of_isTidied (by decide +kernel)

theorem document_round_trips_sample :
    (∃ bs, (document 2).encode anything (.ofJson sample) [] = .ok bs ∧ (∀ b ∈ bs, b < 0x80) ∧
      (document 2).decode anything bs [] = .ok (.ofJson sample)) ∧
    ∃ bs, (document 2).decode anything untidy [] = .ok tidied ∧ tidied.Floatless ∧
      (document 2).encode anything tidied [] = .ok bs ∧
        (document 2).decode anything bs [] = .ok tidied := by
  obtain ⟨written, again⟩ := document_round_trips
  obtain ⟨bs, encoded, ascii, decoded⟩ := written sample ordinary_sample
  have floatless : tidied.Floatless := ⟨trivial, trivial, trivial, trivial, trivial⟩
  obtain ⟨bs', encoded', -, decoded'⟩ := again 2 anything [] untidy tidied decode_untidy floatless
  exact ⟨⟨bs, encoded 2 anything [], ascii, decoded 2 anything [] (by decide)⟩, bs',
    decode_untidy, floatless, encoded', decoded'⟩

end Codec

end Registrar
