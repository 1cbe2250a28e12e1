import Registrar.Proofs.Json.RoundTrip

/-!
# Documents are ASCII

Whatever the characters of its strings are, a document consists of ASCII characters. Each of them is
one byte, so a document is decoded and read back from its bytes.
-/

namespace Registrar

/-! ## ASCII in UTF-8 -/

namespace Utf8

theorem encodeChar_of_ascii {c : Char} (h : c.toNat < 0x80) :
    String.utf8EncodeChar c = [UInt8.ofNat c.toNat] :=
  String.utf8EncodeChar_eq_singleton (Char.utf8Size_eq_one_iff.2 (Nat.le_of_lt_succ h))

theorem lead_of_ascii {n : Nat} (h : n < 0x80) : Lead.ofByte? (UInt8.ofNat n) = some ⟨n, []⟩ := by
  have value : (UInt8.ofNat n).toNat = n := by
    rw [UInt8.toNat_ofNat']
    omega
  have low : UInt8.ofNat n < 0x80 := by
    rw [UInt8.lt_iff_toNat_lt, value]
    exact h
  unfold Lead.ofByte?
  rw [if_pos low, value]

theorem decodeFrom_of_ascii {cs : List Char} (h : ∀ c ∈ cs, c.toNat < 0x80) (pos : Nat) :
    decodeFrom pos none (encode cs) = .ok cs := by
  induction cs generalizing pos with
  | nil => rfl
  | cons c cs ih =>
    have others := ih (fun d hd => h d (.tail _ hd)) (pos + 1)
    have first := h c (.head _)
    rw [encode_cons, encodeChar_of_ascii first]
    show decodeFrom pos none (UInt8.ofNat c.toNat :: encode cs) = _
    rw [decodeFrom, lead_of_ascii first]
    show (decodeFrom (pos + 1) none (encode cs)).map _ = _
    rw [others, Char.ofNat_toNat]
    rfl

/-- ASCII characters are decoded from their bytes. -/
theorem decode_encode_of_ascii {cs : List Char} (h : ∀ c ∈ cs, c.toNat < 0x80) :
    decode (encode cs) = .ok cs :=
  decodeFrom_of_ascii h 0

end Utf8

/-! ## Documents -/

namespace Json

theorem ascii_of_all {cs : List Char} (h : cs.all (·.toNat < 0x80) = true) :
    ∀ c ∈ cs, c.toNat < 0x80 := by
  simpa using h

theorem hexDigit_ascii (n : Nat) : (hexDigit (n % 16)).toNat < 0x80 := by
  have all : ∀ k : Fin 16, (hexDigit k).toNat < 0x80 := by decide
  exact all ⟨n % 16, Nat.mod_lt _ (by decide)⟩

theorem unitEscape_ascii (n : Nat) : ∀ c ∈ unitEscape n, c.toNat < 0x80 := by
  simp only [unitEscape, List.forall_mem_cons]
  exact ⟨by decide, by decide, hexDigit_ascii _, hexDigit_ascii _, hexDigit_ascii _,
    hexDigit_ascii _, by simp⟩

theorem escape_ascii (s : Symbol) : ∀ c ∈ escape s, c.toNat < 0x80 := by
  cases s with
  | surrogate u => exact unitEscape_ascii _
  | char c =>
    rw [escape, escapeChar]
    iterate 7
      split
      · exact ascii_of_all rfl
    split
    · rename_i printable
      simp only [Bool.and_eq_true, decide_eq_true_eq] at printable
      simp only [List.mem_singleton, forall_eq]
      omega
    split
    · exact unitEscape_ascii _
    · intro d hd
      rcases List.mem_append.1 hd with hd | hd <;> exact unitEscape_ascii _ d hd

theorem writeText_ascii (t : Text) : ∀ c ∈ writeText t, c.toNat < 0x80 := by
  intro c hc
  simp only [writeText, List.mem_append, List.mem_cons, List.mem_flatMap, List.not_mem_nil,
    or_false] at hc
  rcases hc with (rfl | ⟨s, -, hc⟩) | rfl
  · decide
  · exact escape_ascii s c hc
  · decide

theorem toString_ascii (n : Int) : ∀ c ∈ (toString n).toList, c.toNat < 0x80 := by
  intro c hc
  rw [Reader.toList_toString, List.mem_append] at hc
  rcases hc with hc | hc
  · split at hc
    · obtain rfl := List.mem_singleton.1 hc
      decide
    · exact absurd hc List.not_mem_nil
  · have digit := Nat.isDigit_of_mem_toDigits (by decide) (by decide) hc
    simp only [Char.isDigit, Bool.and_eq_true, decide_eq_true_eq] at digit
    exact Nat.lt_of_le_of_lt digit.2 (by decide)

theorem spaces_ascii {spaces : List Char} (h : ∀ c ∈ spaces, Reader.isSpace c) :
    ∀ c ∈ spaces, c.toNat < 0x80 := by
  intro c hc
  have blank := h c hc
  simp only [Reader.isSpace, Bool.or_eq_true, decide_eq_true_eq] at blank
  rcases blank with ((rfl | rfl) | rfl) | rfl <;> decide

theorem comma_ascii {l : Layout} (hl : l.Clear) : ∀ c ∈ l.comma, c.toNat < 0x80 := by
  obtain ⟨spaces, comma, blank⟩ := hl.comma
  rw [comma, List.forall_mem_cons]
  exact ⟨by decide, spaces_ascii blank⟩

theorem colon_ascii {l : Layout} (hl : l.Clear) : ∀ c ∈ l.colon, c.toNat < 0x80 := by
  obtain ⟨spaces, colon, blank⟩ := hl.colon
  rw [colon, List.forall_mem_cons]
  exact ⟨by decide, spaces_ascii blank⟩

mutual

/-- A legible value is written in ASCII. -/
theorem write_ascii {l : Layout} (hl : l.Clear) : (v : Json) → {levels : Nat} → v.Legible levels →
    ∀ c ∈ write l v, c.toNat < 0x80
  | .null, _, _ => by rw [write]; exact ascii_of_all rfl
  | .bool true, _, _ => by rw [write]; exact ascii_of_all rfl
  | .bool false, _, _ => by rw [write]; exact ascii_of_all rfl
  | .int n, _, _ => by
    rw [write]
    exact toString_ascii n
  | .string t, _, _ => by
    rw [write]
    exact writeText_ascii t
  | .array [], _, _ => by rw [write]; exact ascii_of_all rfl
  | .array (v :: vs), _ + 1, h => by
    rw [write]
    simp only [List.cons_append, List.forall_mem_cons, List.forall_mem_append]
    exact ⟨by decide, write_ascii hl v h.1, writeItems_ascii hl vs h.2⟩
  | .object [], _, _ => by rw [write]; exact ascii_of_all rfl
  | .object ((k, v) :: ms), _ + 1, h => by
    rw [write]
    simp only [List.cons_append, List.forall_mem_cons, List.forall_mem_append]
    exact ⟨by decide, ⟨⟨writeText_ascii k, colon_ascii hl⟩, write_ascii hl v h.2.2.1⟩,
      writeMembers_ascii hl ms h.2.2.2⟩

theorem writeItems_ascii {l : Layout} (hl : l.Clear) : (vs : List Json) → {levels : Nat} →
    LegibleItems levels vs → ∀ c ∈ writeItems l vs, c.toNat < 0x80
  | [], _, _ => by rw [writeItems]; exact ascii_of_all rfl
  | v :: vs, _, h => by
    rw [writeItems]
    simp only [List.forall_mem_append]
    exact ⟨⟨comma_ascii hl, write_ascii hl v h.1⟩, writeItems_ascii hl vs h.2⟩

theorem writeMembers_ascii {l : Layout} (hl : l.Clear) : (ms : List (Text × Json)) →
    {levels : Nat} → LegibleMembers levels ms → ∀ c ∈ writeMembers l ms, c.toNat < 0x80
  | [], _, _ => by rw [writeMembers]; exact ascii_of_all rfl
  | (k, v) :: ms, _, h => by
    rw [writeMembers]
    simp only [List.forall_mem_append]
    exact ⟨⟨⟨⟨comma_ascii hl, writeText_ascii k⟩, colon_ascii hl⟩, write_ascii hl v h.2.1⟩,
      writeMembers_ascii hl ms h.2.2⟩

end

/-- A document is decoded from its bytes. -/
theorem decode_write {l : Layout} (hl : l.Clear) {v : Json} {levels : Nat}
    (h : v.Legible levels) : Utf8.decode (Utf8.encode (write l v)) = .ok (write l v) :=
  Utf8.decode_encode_of_ascii (write_ascii hl v h)

end Json

end Registrar
