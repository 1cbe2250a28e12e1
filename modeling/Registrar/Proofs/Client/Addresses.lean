import Registrar.Client.Lookup

/-!
# Addresses

A text has one percent-encoded form, which holds no slash, and no other text has the same. So no two
resources of the registry have one address.
-/

namespace Registrar

/-- What is mapped was there. -/
theorem of_map_ok {ε α β : Type} {x : Except ε α} {f : α → β} {b : β}
    (h : x.map f = .ok b) : ∃ a, x = .ok a ∧ b = f a := by
  cases x with
  | error e => cases h
  | ok a =>
    cases h
    exact ⟨a, rfl, rfl⟩

/-! ## Numbers -/

theorem toString_nat_injective {m n : Nat} (h : toString m = toString n) : m = n := by
  have digits : Nat.toDigits 10 m = Nat.toDigits 10 n := by
    rw [← Nat.toList_repr, ← Nat.toList_repr]
    exact congrArg _ h
  calc
    m = Nat.ofDigitChars 10 (Nat.toDigits 10 m) 0 := Nat.ofDigitChars_ten_toDigits.symm
    _ = n := by rw [digits, Nat.ofDigitChars_ten_toDigits]

theorem isDigit_of_mem_toString {n : Nat} {c : Char} (h : c ∈ (toString n).toList) :
    c.isDigit = true :=
  Nat.isDigit_of_mem_toDigits (by decide) (by decide) (Nat.toList_repr ▸ h)

theorem toString_int_injective {m n : Int} (h : toString m = toString n) : m = n := by
  -- Only what is written of a negative number starts with a sign.
  have sign {m n : Nat} (same : toString m = "-" ++ toString n) : False := by
    have sign : '-' ∈ (toString m).toList := by
      rw [same, String.toList_append]
      exact List.mem_append_left _ (.head _)
    exact absurd (isDigit_of_mem_toString sign) (by decide)
  match m, n with
  | .ofNat m, .ofNat n => exact congrArg _ (toString_nat_injective h)
  | .ofNat m, .negSucc n => exact (sign h).elim
  | .negSucc m, .ofNat n => exact (sign h.symm).elim
  | .negSucc m, .negSucc n =>
    have same := toString_nat_injective ((String.append_right_inj "-").1 h)
    exact congrArg _ (Nat.succ.inj same)

/-! ## Percent-encoding -/

theorem Utf8.encode_injective {cs ds : List Char} (h : encode cs = encode ds) : cs = ds := by
  have bytes : cs.utf8Encode = ds.utf8Encode := congrArg List.toByteArray h
  have same : String.ofList cs = String.ofList ds := String.toByteArray_inj.1 bytes
  exact String.ofList_injective same

theorem Text.of_charsFrom {t : Text} {pos : Nat} {cs : List Char} (h : charsFrom pos t = .ok cs) :
    t = ofChars cs := by
  fun_induction charsFrom pos t generalizing cs with
  | case1 => cases h; rfl
  | case2 pos c rest ih =>
    obtain ⟨ds, hr, rfl⟩ := of_map_ok h
    rw [ih hr, ofChars_cons]
  | case3 => cases h

namespace Percent

theorem toNat_ofNat (b : UInt8) : (Char.ofNat b.toNat).toNat = b.toNat := by
  have valid : b.toNat.isValidChar := .inl (Nat.lt_trans b.toNat_lt (by decide))
  rw [Char.ofNat, dif_pos valid]
  rfl

theorem hexDigit_injective {m n : Nat} (hm : m < 16) (hn : n < 16) (h : hexDigit m = hexDigit n) :
    m = n := by
  have all : ∀ m < 16, ∀ n < 16, hexDigit m = hexDigit n → m = n := by decide
  exact all m hm n hn h

/-- No character that stands for itself is a percent sign or a slash. -/
theorem isUnreserved_toNat {b : UInt8} (h : isUnreserved b) : b.toNat ≠ 0x25 ∧ b.toNat ≠ 0x2f := by
  refine ⟨fun percent => ?_, fun slash => ?_⟩
  · obtain rfl : b = 0x25 := UInt8.toNat_inj.1 percent
    cases h
  · obtain rfl : b = 0x2f := UInt8.toNat_inj.1 slash
    cases h

theorem slash_encodeByte (b : UInt8) : '/' ∉ encodeByte b := by
  unfold encodeByte
  split
  · rename_i h
    intro mem
    obtain same := List.mem_singleton.1 mem
    refine (isUnreserved_toNat h).2 ?_
    rw [← toNat_ofNat b, ← same]
    rfl
  · have digit : ∀ n < 16, '/' ≠ hexDigit n := by decide
    have bound := b.toNat_lt
    have high := digit (b.toNat / 16) (by omega)
    have low := digit (b.toNat % 16) (by omega)
    simp [high, low]

/-- The encoded form of a byte is no beginning of another one. -/
theorem encodeByte_injective {b b' : UInt8} {cs cs' : List Char}
    (h : encodeByte b ++ cs = encodeByte b' ++ cs') : b = b' ∧ cs = cs' := by
  have percent {b : UInt8} (h : isUnreserved b) : Char.ofNat b.toNat ≠ '%' := by
    intro same
    exact (isUnreserved_toNat h).1 ((toNat_ofNat b).symm.trans (congrArg Char.toNat same))
  unfold encodeByte at h
  split at h <;> split at h
  · obtain ⟨same, rfl⟩ := List.cons.inj h
    have toNat := congrArg Char.toNat same
    rw [toNat_ofNat, toNat_ofNat] at toNat
    exact ⟨UInt8.toNat_inj.1 toNat, rfl⟩
  · rename_i unreserved _
    exact (percent unreserved (List.cons.inj h).1).elim
  · rename_i _ unreserved
    exact (percent unreserved (List.cons.inj h).1.symm).elim
  · obtain ⟨-, h⟩ := List.cons.inj h
    obtain ⟨high, h⟩ := List.cons.inj h
    obtain ⟨low, rfl⟩ := List.cons.inj h
    have bound := b.toNat_lt
    have bound' := b'.toNat_lt
    have high := hexDigit_injective (by omega) (by omega) high
    have low := hexDigit_injective (by omega) (by omega) low
    exact ⟨UInt8.toNat_inj.1 (by omega), rfl⟩

theorem encodeBytes_injective {bs bs' : Bytes} (h : encodeBytes bs = encodeBytes bs') :
    bs = bs' := by
  have ne (b : UInt8) (bs : Bytes) : encodeBytes (b :: bs) ≠ [] := by
    rw [encodeBytes_cons, encodeByte]
    split <;> simp
  induction bs generalizing bs' with
  | nil =>
    cases bs' with
    | nil => rfl
    | cons b' bs' => exact (ne b' bs' h.symm).elim
  | cons b bs ih =>
    cases bs' with
    | nil => exact (ne b bs h).elim
    | cons b' bs' =>
      obtain ⟨rfl, rest⟩ := encodeByte_injective h
      rw [ih rest]

/-- Ordinary text can be encoded. -/
theorem encode_ofString (s : String) : ∃ t, encode (.ofString s) = .ok t := by
  unfold encode Text.ofString
  rw [Text.toChars_ofChars]
  exact ⟨_, rfl⟩

variable {t t' : Text} {s : String}

theorem of_encode (h : encode t = .ok s) :
    ∃ cs, t = Text.ofChars cs ∧ s.toList = encodeBytes (Utf8.encode cs) := by
  obtain ⟨cs, hc, rfl⟩ := of_map_ok h
  exact ⟨cs, Text.of_charsFrom hc, String.toList_ofList⟩

theorem encode_injective (h : encode t = .ok s) (h' : encode t' = .ok s) : t = t' := by
  obtain ⟨cs, rfl, hs⟩ := of_encode h
  obtain ⟨cs', rfl, hs'⟩ := of_encode h'
  rw [Utf8.encode_injective (encodeBytes_injective (hs.symm.trans hs'))]

/-- A segment holds no slash. -/
theorem slash_encode (h : encode t = .ok s) : '/' ∉ s.toList := by
  obtain ⟨cs, rfl, hs⟩ := of_encode h
  rw [hs, encodeBytes, List.mem_flatMap]
  rintro ⟨b, -, mem⟩
  exact slash_encodeByte b mem

end Percent

/-! ## Resources -/

namespace Resource

/-- The subject that a resource is below, and what follows it in the address. -/
def place : Resource → Option (Text × String)
  | .schemaById _ => none
  | .latest s => some (s, "/versions/latest")
  | .version s v => some (s, "/versions/" ++ toString v)
  | .versions s => some (s, "/versions")
  | .subject s => some (s, "")

variable {r r' : Resource} {s : Text} {tail p : String}

theorem place_injective (h : r.place = some (s, tail)) (h' : r'.place = some (s, tail)) :
    r = r' := by
  have letters (v : Nat) : "/versions/latest" ≠ "/versions/" ++ toString v := by
    intro same
    have word : "latest" = toString v := (String.append_right_inj "/versions/").1 same
    have letter : 'l' ∈ (toString v).toList := by
      rw [← word]
      decide
    exact absurd (isDigit_of_mem_toString letter) (by decide)
  have short {t : String} (v : Nat) (h : t.length < 10) : t ≠ "/versions/" ++ toString v := by
    rintro rfl
    have long : "/versions/".length = 10 := rfl
    rw [String.length_append] at h
    omega
  have bare (v : Nat) : "/versions" ≠ "/versions/" ++ toString v := short v (by decide)
  have nothing (v : Nat) : "" ≠ "/versions/" ++ toString v := short v (by decide)
  cases r <;> cases r' <;> grind [place, toString_nat_injective, String.append_right_inj]

/-- The address of a resource that is not below a subject. -/
theorem path_of_no_place (h : r.path = .ok p) (none : r.place = none) :
    ∃ n, r = .schemaById n ∧ p = "/schemas/ids/" ++ toString n := by
  cases r <;> cases none
  cases h
  exact ⟨_, rfl, rfl⟩

/-- The parts of the address of a resource that is below a subject. -/
theorem path_of_place (h : r.path = .ok p) (place : r.place = some (s, tail)) :
    ∃ segment, Percent.encode s = .ok segment ∧
      p = "/subjects/" ++ (segment ++ tail) ∧ ∀ c ∈ tail.toList.head?, c = '/' := by
  have below {q : String} (hq : subjectPath s = .ok q) :
      ∃ segment, Percent.encode s = .ok segment ∧ q = "/subjects/" ++ segment := by
    obtain ⟨segment, hs, rfl⟩ := of_map_ok hq
    exact ⟨segment, hs, rfl⟩
  cases r <;> cases place
  case latest =>
    obtain ⟨q, hq, rfl⟩ := of_map_ok h
    obtain ⟨segment, hs, rfl⟩ := below hq
    exact ⟨segment, hs, by simp [String.append_assoc], by simp⟩
  case version v =>
    obtain ⟨q, hq, rfl⟩ := of_map_ok h
    obtain ⟨segment, hs, rfl⟩ := below hq
    exact ⟨segment, hs, by simp [String.append_assoc], by simp⟩
  case versions =>
    obtain ⟨q, hq, rfl⟩ := of_map_ok h
    obtain ⟨segment, hs, rfl⟩ := below hq
    exact ⟨segment, hs, by simp [String.append_assoc], by simp⟩
  case subject =>
    obtain ⟨segment, hs, rfl⟩ := below h
    exact ⟨segment, hs, by simp, by simp⟩

/-- Two texts without a slash are the same if they are followed by the same. -/
theorem segment_injective {cs cs' ds ds' : List Char} (hc : '/' ∉ cs) (hc' : '/' ∉ cs')
    (hd : ∀ c ∈ ds.head?, c = '/') (hd' : ∀ c ∈ ds'.head?, c = '/') (h : cs ++ ds = cs' ++ ds') :
    cs = cs' ∧ ds = ds' := by
  induction cs generalizing cs' with
  | nil =>
    cases cs' with
    | nil => exact ⟨rfl, h⟩
    | cons c cs' =>
      obtain rfl : ds = c :: (cs' ++ ds') := h
      exact (hc' (hd c rfl ▸ .head _)).elim
  | cons c cs ih =>
    cases cs' with
    | nil =>
      obtain rfl : c :: (cs ++ ds) = ds' := h
      exact (hc (hd' c rfl ▸ .head _)).elim
    | cons c' cs' =>
      obtain ⟨rfl, others⟩ := List.cons.inj h
      obtain ⟨rfl, rest⟩ := ih (fun mem => hc (.tail _ mem)) (fun mem => hc' (.tail _ mem)) others
      exact ⟨rfl, rest⟩

/-- No two resources have one address. -/
theorem path_injective (h : r.path = .ok p) (h' : r'.path = .ok p) : r = r' := by
  have apart {t t' : String} : "/schemas/ids/" ++ t ≠ "/subjects/" ++ t' := by
    intro same
    have chars := congrArg String.toList same
    simp [String.toList_append] at chars
  cases hr : r.place with
  | none =>
    obtain ⟨n, rfl, rfl⟩ := path_of_no_place h hr
    cases hr' : r'.place with
    | none =>
      obtain ⟨n', rfl, same⟩ := path_of_no_place h' hr'
      rw [toString_int_injective ((String.append_right_inj _).1 same)]
    | some x =>
      obtain ⟨segment, -, same, -⟩ := path_of_place h' hr'
      exact (apart same).elim
  | some x =>
    obtain ⟨segment, hs, rfl, head⟩ := path_of_place h hr
    cases hr' : r'.place with
    | none =>
      obtain ⟨n', rfl, same⟩ := path_of_no_place h' hr'
      exact (apart same.symm).elim
    | some x' =>
      obtain ⟨segment', hs', same, head'⟩ := path_of_place h' hr'
      have chars := congrArg String.toList ((String.append_right_inj _).1 same)
      rw [String.toList_append, String.toList_append] at chars
      obtain ⟨first, rest⟩ := segment_injective (Percent.slash_encode hs)
        (Percent.slash_encode hs') head head' chars
      obtain rfl := String.toList_inj.1 first
      obtain ⟨s, tail⟩ := x
      obtain ⟨s', tail'⟩ := x'
      obtain rfl : tail = tail' := String.toList_inj.1 rest
      obtain rfl : s = s' := Percent.encode_injective hs hs'
      exact place_injective hr hr'

end Resource

/-- Nor do they below a base URL. -/
theorem Client.url_injective {I : Interface} {c : Client I} {r r' : Resource} {url : Text}
    (h : c.url r = .ok url) (h' : c.url r' = .ok url) : r = r' := by
  unfold Client.url at h h'
  split at h
  · rename_i path hp
    split at h'
    · rename_i path' hp'
      have same := List.append_cancel_left (Except.ok.inj (h.trans h'.symm))
      obtain rfl := Text.ofString_injective same
      exact Resource.path_injective hp hp'
    · cases h'
  · cases h

end Registrar
