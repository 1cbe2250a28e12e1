import Registrar.Frame

/-!
# Frames are taken apart

A header gives the identifier that was put into it, and what follows the header is the payload. The
other way round, bytes that are taken for a frame are the frame of what was found in them, so that
the frames are exactly the bytes that `encode` gives.
-/

namespace Registrar.Frame

/-- Four bytes hold every identifier below the bound. -/
theorem idOfBytes_idBytes {id : Nat} (h : id < idBound) :
    idOfBytes (.ofNat (id >>> 24)) (.ofNat (id >>> 16)) (.ofNat (id >>> 8)) (.ofNat id) =
      id := by
  unfold idOfBytes
  simp only [UInt8.toNat_ofNat', Nat.shiftRight_eq_div_pow]
  unfold idBound at h
  omega

theorem split_header {id : Nat} (h : id < idBound) (payload : Bytes) :
    split (some (magic :: idBytes id ++ payload)) = .framed id payload := by
  show split (some (_ :: _ :: _ :: _ :: _ :: payload)) = _
  rw [split, if_pos rfl, idOfBytes_idBytes h]

/-- What a frame is made of can be taken from it. -/
theorem split_of_encode {id : Int} {payload framed : Bytes} (h : encode id payload = .ok framed) :
    split (some framed) = .framed id.toNat payload := by
  unfold encode at h
  split at h
  · rename_i range
    cases h
    exact split_header (by omega) payload
  · cases h

/-! ## Bytes that are taken for a frame -/

/-- Four bytes hold no identifier at or above the bound. -/
theorem idOfBytes_lt (a b c d : UInt8) : idOfBytes a b c d < idBound := by
  have := a.toNat_lt
  have := b.toNat_lt
  have := c.toNat_lt
  have := d.toNat_lt
  unfold idOfBytes idBound
  omega

/-- Different bytes stand for different numbers. -/
theorem idBytes_idOfBytes (a b c d : UInt8) : idBytes (idOfBytes a b c d) = [a, b, c, d] := by
  have := a.toNat_lt
  have := b.toNat_lt
  have := c.toNat_lt
  have := d.toNat_lt
  unfold idBytes idOfBytes
  simp only [Nat.shiftRight_eq_div_pow, List.cons.injEq, and_true]
  refine ⟨?_, ?_, ?_, ?_⟩ <;> apply UInt8.toNat.inj <;> rw [UInt8.toNat_ofNat'] <;> omega

theorem encode_eq_ok {id : Int} {payload raw : Bytes} :
    encode id payload = .ok raw ↔
      (0 ≤ id ∧ id < idBound) ∧ raw = magic :: idBytes id.toNat ++ payload := by
  unfold encode
  split
  · rename_i range
    simp [range, eq_comm]
  · rename_i range
    simp [range]

/-- There are two outcomes for bytes that are there, and unframed bytes are kept whole. -/
theorem split_cases (raw : Bytes) :
    split (some raw) = .unframed raw ∨ ∃ id payload, split (some raw) = .framed id payload := by
  unfold split
  grind

/-- What was found in a frame makes up the frame again. -/
theorem encode_of_split {raw payload : Bytes} {id : Nat}
    (h : split (some raw) = .framed id payload) : encode id payload = .ok raw := by
  unfold split at h
  split at h
  · cases h
  · rename_i m a b c d rest found
    cases found
    split at h
    · rename_i framed
      cases h
      have range := idOfBytes_lt a b c d
      apply encode_eq_ok.mpr
      refine ⟨⟨by omega, by omega⟩, ?_⟩
      simp [idBytes_idOfBytes, framed]
    · cases h
  · cases h

/-! ## The format -/

/-- The bytes are laid out as a frame: a zero, the identifier as four bytes with the most significant
one first, and the payload up to the end. -/
def Layout (id : Int) (payload raw : Bytes) : Prop :=
  ∃ a b c d : UInt8, raw = 0 :: a :: b :: c :: d :: payload ∧
    id = 0x1000000 * a.toNat + 0x10000 * b.toNat + 0x100 * c.toNat + d.toNat

theorem idOfBytes_eq (a b c d : UInt8) :
    (idOfBytes a b c d : Int) =
      0x1000000 * a.toNat + 0x10000 * b.toNat + 0x100 * c.toNat + d.toNat := by
  unfold idOfBytes
  omega

theorem layout_iff {id : Int} {payload raw : Bytes} :
    Layout id payload raw ↔ encode id payload = .ok raw := by
  constructor
  · rintro ⟨a, b, c, d, rfl, rfl⟩
    rw [← idOfBytes_eq]
    apply encode_of_split
    simp [split, magic]
  · intro h
    obtain ⟨range, rfl⟩ := encode_eq_ok.mp h
    refine ⟨_, _, _, _, rfl, ?_⟩
    rw [← idOfBytes_eq, idOfBytes_idBytes (by omega)]
    omega

/-- Bytes are the frame of an identifier and a payload exactly when these are found in them. -/
theorem encode_iff_split {id : Int} {payload raw : Bytes} :
    encode id payload = .ok raw ↔
      ∃ n : Nat, id = n ∧ split (some raw) = .framed n payload := by
  constructor
  · intro h
    have range := (encode_eq_ok.mp h).1
    exact ⟨id.toNat, by omega, split_of_encode h⟩
  · rintro ⟨n, rfl, h⟩
    exact encode_of_split h

/-- The format is exact in both directions. A frame is made for the identifiers of 32 bits and for no
other, it is laid out as the format says, and what it was made of is found in it. What is found in
bytes is an identifier of 32 bits and a payload that make up these bytes; where nothing is found, the
bytes are kept whole and are no frame. So no two identifiers and payloads have the same frame. -/
theorem encode_exact :
    (∀ (id : Int) (payload : Bytes),
      (∃ raw, encode id payload = .ok raw) ↔ 0 ≤ id ∧ id < 0x100000000) ∧
    (∀ (id : Int) (payload raw : Bytes),
      (encode id payload = .ok raw ↔ Layout id payload raw) ∧
      (encode id payload = .ok raw ↔
        ∃ n : Nat, id = n ∧ split (some raw) = .framed n payload)) ∧
    (∀ raw : Bytes,
      (∃ (n : Nat) (payload : Bytes), split (some raw) = .framed n payload ∧ n < 0x100000000 ∧
        encode n payload = .ok raw) ∨
      (split (some raw) = .unframed raw ∧
        ∀ (id : Int) (payload : Bytes), encode id payload ≠ .ok raw)) ∧
    ∀ (id id' : Int) (payload payload' : Bytes),
      (∃ raw, encode id payload = .ok raw ∧ encode id' payload' = .ok raw) ↔
        (0 ≤ id ∧ id < 0x100000000) ∧ id = id' ∧ payload = payload' := by
  have made : ∀ (id : Int) (payload : Bytes),
      (∃ raw, encode id payload = .ok raw) ↔ 0 ≤ id ∧ id < 0x100000000 := by
    intro id payload
    simp [encode_eq_ok, idBound]
  refine ⟨made, fun id payload raw => ⟨layout_iff.symm, encode_iff_split⟩, ?_, ?_⟩
  · intro raw
    obtain unframed | ⟨n, payload, framed⟩ := split_cases raw
    · refine .inr ⟨unframed, fun id payload h => ?_⟩
      obtain ⟨n, -, framed⟩ := encode_iff_split.mp h
      simp [unframed] at framed
    · have whole := encode_of_split framed
      have range := (made n payload).mp ⟨raw, whole⟩
      exact .inl ⟨n, payload, framed, by omega, whole⟩
  · intro id id' payload payload'
    constructor
    · rintro ⟨raw, h, h'⟩
      obtain ⟨n, rfl, found⟩ := encode_iff_split.mp h
      obtain ⟨n', rfl, found'⟩ := encode_iff_split.mp h'
      rw [found, framed.injEq] at found'
      obtain ⟨rfl, rfl⟩ := found'
      exact ⟨(made n payload).mp ⟨raw, h⟩, rfl, rfl⟩
    · rintro ⟨range, rfl, rfl⟩
      obtain ⟨raw, h⟩ := (made id payload).mpr range
      exact ⟨raw, h, h⟩

end Registrar.Frame
