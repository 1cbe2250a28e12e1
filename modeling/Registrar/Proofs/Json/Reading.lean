import Registrar.Payload.Value
import Registrar.Proofs.Json.RoundTrip

/-!
# What is read is legible

Whatever document the reader accepts, the value it gives is readable: its integers are no longer
than those that are read, its strings are settled, its objects have each key once, and it has no
more levels than were allowed. So it can be read once more after it was written, unless it holds
floating-point numbers, which come back as they were written but need not be written as they were
read.
-/

namespace Registrar

/-! ## Floating-point numbers -/

namespace Value

mutual

/-- No part of the value is a floating-point number. -/
def Floatless : Value → Prop
  | .float _ => False
  | .list items => FloatlessItems items
  | .tuple items => FloatlessItems items
  | .set items => FloatlessItems items
  | .map entries => FloatlessEntries entries
  | _ => True

def FloatlessItems : List Value → Prop
  | [] => True
  | v :: vs => Floatless v ∧ FloatlessItems vs

def FloatlessEntries : List (Value × Value) → Prop
  | [] => True
  | (k, v) :: es => Floatless k ∧ Floatless v ∧ FloatlessEntries es

end

end Value

namespace Json

open Reader

/-! ## Readable values -/

mutual

/-- What a reader of so many levels may give: a legible value, but with any floating-point
numbers. -/
def Readable : (levels : Nat) → Json → Prop
  | _, .null => True
  | _, .bool _ => True
  | _, .int n => (Nat.toDigits 10 n.natAbs).length ≤ maxDigits
  | _, .float _ => True
  | _, .string t => t.Settled
  | 0, .array _ => False
  | levels + 1, .array items => ReadableItems levels items
  | 0, .object _ => False
  | levels + 1, .object members => (Assoc.keys members).Nodup ∧ ReadableMembers levels members

def ReadableItems (levels : Nat) : List Json → Prop
  | [] => True
  | v :: vs => Readable levels v ∧ ReadableItems levels vs

def ReadableMembers (levels : Nat) : List (Text × Json) → Prop
  | [] => True
  | (k, v) :: ms => k.Settled ∧ Readable levels v ∧ ReadableMembers levels ms

end

theorem readableItems_iff {levels : Nat} {vs : List Json} :
    ReadableItems levels vs ↔ ∀ v ∈ vs, Readable levels v := by
  induction vs with
  | nil => simp [ReadableItems]
  | cons v vs ih => rw [ReadableItems, ih, List.forall_mem_cons]

theorem readableMembers_iff {levels : Nat} {ms : List (Text × Json)} :
    ReadableMembers levels ms ↔ ∀ m ∈ ms, m.1.Settled ∧ Readable levels m.2 := by
  induction ms with
  | nil => simp [ReadableMembers]
  | cons m ms ih => rw [ReadableMembers, ih, List.forall_mem_cons, and_assoc]

mutual

/-- A readable value without floating-point numbers can be read again. -/
theorem legible_of_readable : (v : Json) → {levels : Nat} → Readable levels v →
    (Value.ofJson v).Floatless → v.Legible levels
  | .null, _, _, _ => trivial
  | .bool _, _, _, _ => trivial
  | .int _, _, short, _ => short
  | .string _, _, settled, _ => settled
  | .array items, _ + 1, readable, floatless =>
    legibleItems_of_readable items readable floatless
  | .object members, _ + 1, readable, floatless =>
    ⟨readable.1, legibleMembers_of_readable members readable.2 floatless⟩

theorem legibleItems_of_readable : (vs : List Json) → {levels : Nat} → ReadableItems levels vs →
    Value.FloatlessItems (Value.ofItems vs) → LegibleItems levels vs
  | [], _, _, _ => trivial
  | v :: vs, _, readable, floatless =>
    ⟨legible_of_readable v readable.1 floatless.1,
      legibleItems_of_readable vs readable.2 floatless.2⟩

theorem legibleMembers_of_readable : (ms : List (Text × Json)) → {levels : Nat} →
    ReadableMembers levels ms → Value.FloatlessEntries (Value.ofMembers ms) →
    LegibleMembers levels ms
  | [], _, _, _ => trivial
  | (_, v) :: ms, _, readable, floatless =>
    ⟨readable.1, legible_of_readable v readable.2.1 floatless.2.1,
      legibleMembers_of_readable ms readable.2.2 floatless.2.2⟩

end

/-! ## What is left -/

namespace Reader

variable {t rest : Text}

theorem spanDigits_suffix (t : Text) : (Text.spanDigits t).2 <:+ t := by
  induction t with
  | nil => exact List.suffix_refl []
  | cons s t ih =>
    rw [Text.spanDigits]
    cases Text.plainDigit? s with
    | none => exact List.suffix_refl _
    | some d => exact ih.trans (List.suffix_cons s t)

theorem plainDigit?_lt {s : Symbol} {d : Nat} (h : Text.plainDigit? s = some d) : d < 10 := by
  cases s with
  | surrogate u => cases h
  | char c =>
    simp only [Text.plainDigit?, Option.ite_none_right_eq_some, Option.some.injEq] at h
    obtain ⟨digit, rfl⟩ := h
    simp only [Bool.and_eq_true, decide_eq_true_eq, Char.le_def] at digit
    have bound : c.toNat ≤ 0x39 := digit.2
    omega

theorem lt_of_mem_spanDigits {d : Nat} (h : d ∈ (Text.spanDigits t).1) : d < 10 := by
  induction t with
  | nil => cases h
  | cons s t ih =>
    rw [Text.spanDigits] at h
    cases hs : Text.plainDigit? s with
    | none =>
      rw [hs] at h
      cases h
    | some e =>
      rw [hs] at h
      rcases List.mem_cons.1 h with rfl | h
      · exact plainDigit?_lt hs
      · exact ih h

/-- One more digit makes a number longer by one digit at most. -/
theorem length_toDigits_le_succ (n : Nat) {d : Nat} (h : d < 10) :
    (Nat.toDigits 10 (n * 10 + d)).length ≤ (Nat.toDigits 10 n).length + 1 := by
  by_cases small : n * 10 + d < 10
  · rw [Nat.toDigits_of_lt_base small]
    simp
  · have quotient : (n * 10 + d) / 10 = n := by omega
    rw [Nat.toDigits_of_base_le (by decide) (by omega), quotient, List.length_append]
    exact Nat.le_refl _

/-- The number that digits stand for has no more digits. -/
theorem length_toDigits_ofDigits_le {d : Nat} {ds : List Nat} (h : ∀ e ∈ d :: ds, e < 10) :
    (Nat.toDigits 10 (Text.ofDigits (d :: ds))).length ≤ ds.length + 1 := by
  obtain ⟨first, others⟩ := List.forall_mem_cons.1 h
  have grows (n : Nat) : (Nat.toDigits 10 (ds.foldl (fun n d => n * 10 + d) n)).length ≤
      (Nat.toDigits 10 n).length + ds.length := by
    clear first h
    induction ds generalizing n with
    | nil => exact Nat.le_refl _
    | cons e ds ih =>
      obtain ⟨digit, others⟩ := List.forall_mem_cons.1 others
      have one := length_toDigits_le_succ n digit
      have rest := ih others (n * 10 + e)
      rw [List.foldl_cons, List.length_cons]
      omega
  have whole := grows d
  rw [Nat.toDigits_of_lt_base first] at whole
  have start : 0 * 10 + d = d := by omega
  rw [Text.ofDigits, List.foldl_cons, start]
  exact Nat.le_trans whole (Nat.le_of_eq (Nat.add_comm 1 _))

/-- The whole part has digits, and what is left stands behind it. -/
theorem of_whole? {ds : List Nat} (h : whole? t = some (ds, rest)) :
    rest <:+ t ∧ ∃ d ds', ds = d :: ds' ∧ ∀ e ∈ ds, e < 10 := by
  unfold whole? at h
  split at h
  · cases h
    exact ⟨List.suffix_cons _ _, 0, [], rfl, by simp⟩
  · have suffix := spanDigits_suffix t
    have digits := @lt_of_mem_spanDigits t
    rcases span : Text.spanDigits t with ⟨_ | ⟨d, ds'⟩, after⟩
    · rw [span] at h
      cases h
    · rw [span] at h suffix digits
      cases h
      exact ⟨suffix, d, ds', rfl, fun e he => digits he⟩

theorem fraction_suffix (t : Text) : (fraction t).2 <:+ t := by
  unfold fraction
  split
  · rename_i rest
    split
    · exact List.suffix_refl _
    · exact (spanDigits_suffix rest).trans (List.suffix_cons _ _)
  · exact List.suffix_refl _

theorem sign_suffix (t : Text) : (sign t).2 <:+ t := by
  unfold sign
  split
  · exact List.suffix_cons _ _
  · exact List.suffix_cons _ _
  · exact List.suffix_refl _

theorem exponent_suffix (t : Text) : (exponent t).2 <:+ t := by
  unfold exponent
  split
  · rename_i e after
    split
    · have suffix := (spanDigits_suffix (sign after).2).trans
        ((sign_suffix after).trans (List.suffix_cons e after))
      dsimp only
      split
      · exact List.suffix_refl _
      · rename_i span
        rwa [span] at suffix
    · exact List.suffix_refl _
  · exact List.suffix_refl _

/-- What is left stands behind the number, and the number has digits before its point. -/
theorem of_numeral? {n : Numeral} (h : numeral? t = some (n, rest)) :
    rest <:+ t ∧ ∃ d ds, n.whole = d :: ds ∧ ∀ e ∈ n.whole, e < 10 := by
  unfold numeral? at h
  split at h
  rename_i negative unsigned start
  have front : unsigned <:+ t := by
    split at start
    · cases start
      exact List.suffix_cons _ _
    · cases start
      exact List.suffix_refl _
  cases hw : whole? unsigned with
  | none =>
    rw [hw] at h
    cases h
  | some parts =>
    obtain ⟨ds, after⟩ := parts
    rw [hw] at h
    cases h
    obtain ⟨behind, d, ds', rfl, digits⟩ := of_whole? hw
    have left := (exponent_suffix (fraction after).2).trans (fraction_suffix after)
    exact ⟨left.trans (behind.trans front), d, ds', rfl, digits⟩

theorem natAbs_signed (negative : Bool) (n : Nat) : (signed negative n).natAbs = n := by
  cases negative <;> simp [signed]

/-- An integer that is read is no longer than those that are. -/
theorem Numeral.readable {n : Numeral} {d : Nat} {ds : List Nat} (whole : n.whole = d :: ds)
    (digits : ∀ e ∈ n.whole, e < 10) {v : Json} (h : n.value = .ok v) (levels : Nat) :
    Readable levels v := by
  unfold Numeral.value at h
  split at h
  · split at h
    · cases h
    · rename_i short
      cases h
      rw [whole] at short digits ⊢
      have long := length_toDigits_ofDigits_le digits
      rw [Readable, natAbs_signed]
      simp only [List.length_cons] at short
      omega
  · cases h
    trivial

theorem of_scalar {v : Json} (h : scalar t = .ok (v, rest)) (levels : Nat) :
    rest <:+ t ∧ Readable levels v := by
  unfold scalar at h
  split at h
  · rename_i w v' found
    cases h
    refine ⟨List.drop_suffix _ _, ?_⟩
    have word := List.mem_of_find?_eq_some found
    simp only [words, List.mem_cons, List.not_mem_nil, or_false, Prod.mk.injEq] at word
    rcases word with ⟨-, rfl⟩ | ⟨-, rfl⟩ | ⟨-, rfl⟩ | ⟨-, rfl⟩ | ⟨-, rfl⟩ | ⟨-, rfl⟩
    all_goals simp [Readable]
  · split at h
    · rename_i n after hn
      obtain ⟨suffix, d, ds, whole, digits⟩ := of_numeral? hn
      cases hv : n.value with
      | error f =>
        rw [hv] at h
        cases h
      | ok v' =>
        rw [hv] at h
        cases h
        exact ⟨suffix, Numeral.readable whole digits hv levels⟩
    · cases h

/-- What is left stands behind the closing quote. -/
theorem symbols_suffix {opening ss : Text} (h : symbols opening t = .ok (ss, rest)) :
    rest <:+ t := by
  fun_induction symbols opening t generalizing ss rest with
  | case2 =>
    cases h
    exact List.suffix_cons _ _
  | case4 a b c d e after n hn ih =>
    obtain ⟨⟨ss', left⟩, read, h⟩ := of_bind_ok h
    cases h
    exact (ih read).trans ⟨[_, _, _, _, _, _], rfl⟩
  | case7 s after _ _ c hc ih =>
    obtain ⟨⟨ss', left⟩, read, h⟩ := of_bind_ok h
    cases h
    exact (ih read).trans ⟨[_, _], rfl⟩
  | case10 s after _ _ _ _ _ _ ih =>
    obtain ⟨⟨ss', left⟩, read, h⟩ := of_bind_ok h
    cases h
    exact (ih read).trans (List.suffix_cons _ _)
  | _ => cases h

/-- The text has no surrogates. -/
def Plain (t : Text) : Prop := ∀ s ∈ t, s.isSurrogate = false

theorem plain_ofChars (cs : List Char) : Plain (Text.ofChars cs) := by
  intro s hs
  obtain ⟨c, -, rfl⟩ := List.mem_map.1 hs
  rfl

theorem Plain.suffix (h : Plain t) (suffix : rest <:+ t) : Plain rest :=
  fun s hs => h s (suffix.mem hs)

theorem skip_suffix (t : Text) : skip t <:+ t := List.dropWhile_suffix _

theorem of_string {ss : Text} (plain : Plain t) (h : string t = .ok (ss, rest)) :
    rest <:+ t ∧ ss.Settled :=
  ⟨symbols_suffix h, (settled_symbols plain h).1⟩

end Reader

/-! ## Arrays and objects -/

/-- The members of an object are some of those that were read, and each key is there once. -/
theorem readable_ofMembers {levels : Nat} {ms : List (Text × Json)}
    (h : ∀ m ∈ ms, m.1.Settled ∧ Readable levels m.2) : Readable (levels + 1) (ofMembers ms) := by
  refine ⟨Assoc.nodup_keys_foldl_put ms .nil, readableMembers_iff.2 fun m hm => ?_⟩
  exact h m ((Assoc.mem_of_mem_foldl_put hm).resolve_left (by simp))

-- By induction on the fuel. Only strings need that the text is plain, which whatever is left of it
-- is too, so each part says where its rest stands.
mutual

theorem of_value : (n : Nat) → {levels : Nat} → {t rest : Text} → {v : Json} → Plain t →
    value n levels t = .ok (v, rest) → rest <:+ t ∧ Readable levels v
  | 0, _, _, _, _, _, h => by
    rw [value] at h
    cases h
  | n + 1, levels, t, rest, v, plain, h => by
    unfold value at h
    split at h
    · rename_i inside _
      obtain ⟨⟨s, left⟩, read, h⟩ := of_bind_ok h
      cases h
      obtain ⟨suffix, settled⟩ := of_string (plain.suffix (List.suffix_cons _ _)) read
      exact ⟨suffix.trans (List.suffix_cons _ _), settled⟩
    · cases h
    · -- An array, and an object further down, may be read on one level less.
      rename_i inside levels
      have begins := (skip_suffix inside).trans (List.suffix_cons (.char '[') inside)
      split at h
      · rename_i after empty
        cases h
        rw [empty] at begins
        exact ⟨(List.suffix_cons _ _).trans begins, trivial⟩
      · obtain ⟨⟨vs, left⟩, read, h⟩ := of_bind_ok h
        cases h
        obtain ⟨suffix, readable⟩ := of_items n (plain.suffix begins) read
        exact ⟨suffix.trans begins, readableItems_iff.2 readable⟩
    · cases h
    · rename_i inside levels
      have begins := (skip_suffix inside).trans (List.suffix_cons (.char '\x7b') inside)
      split at h
      · rename_i after empty
        cases h
        rw [empty] at begins
        have none : Readable (levels + 1) (ofMembers []) := readable_ofMembers (by simp)
        exact ⟨(List.suffix_cons _ _).trans begins, none⟩
      · obtain ⟨⟨ms, left⟩, read, h⟩ := of_bind_ok h
        cases h
        obtain ⟨suffix, readable⟩ := of_members n (plain.suffix begins) read
        exact ⟨suffix.trans begins, readable_ofMembers readable⟩
    · exact of_scalar h levels

theorem of_items : (n : Nat) → {levels : Nat} → {t rest : Text} → {vs : List Json} → Plain t →
    items n levels t = .ok (vs, rest) → rest <:+ t ∧ ∀ v ∈ vs, Readable levels v
  | 0, _, _, _, _, _, h => by
    rw [items] at h
    cases h
  | n + 1, levels, t, rest, vs, plain, h => by
    rw [items] at h
    obtain ⟨⟨v, after⟩, read, h⟩ := of_bind_ok h
    obtain ⟨suffix, readable⟩ := of_value n plain read
    have behind := (skip_suffix after).trans suffix
    dsimp only at h
    split at h
    · rename_i last
      cases h
      rw [last] at behind
      exact ⟨(List.suffix_cons _ _).trans behind, by simpa using readable⟩
    · rename_i others next
      obtain ⟨⟨ws, left⟩, read', h⟩ := of_bind_ok h
      cases h
      rw [next] at behind
      have further := (skip_suffix others).trans ((List.suffix_cons _ _).trans behind)
      obtain ⟨suffix', readable'⟩ := of_items n (plain.suffix further) read'
      exact ⟨suffix'.trans further, List.forall_mem_cons.2 ⟨readable, readable'⟩⟩
    · cases h

theorem of_members : (n : Nat) → {levels : Nat} → {t rest : Text} → {ms : List (Text × Json)} →
    Plain t → members n levels t = .ok (ms, rest) →
      rest <:+ t ∧ ∀ m ∈ ms, m.1.Settled ∧ Readable levels m.2
  | 0, _, _, _, _, _, h => by
    rw [members] at h
    cases h
  | n + 1, levels, t, rest, ms, plain, h => by
    unfold members at h
    split at h
    · rename_i inside
      obtain ⟨⟨k, named⟩, key, h⟩ := of_bind_ok h
      have opened := List.suffix_cons (.char '"') inside
      obtain ⟨suffix, settled⟩ := of_string (plain.suffix opened) key
      have behind := (skip_suffix named).trans (suffix.trans opened)
      dsimp only at h
      split at h
      · rename_i valued colon
        rw [colon] at behind
        have begins := (skip_suffix valued).trans ((List.suffix_cons _ _).trans behind)
        obtain ⟨⟨v, after⟩, read, h⟩ := of_bind_ok h
        obtain ⟨suffix', readable⟩ := of_value n (plain.suffix begins) read
        have ends := (skip_suffix after).trans (suffix'.trans begins)
        dsimp only at h
        split at h
        · rename_i last
          cases h
          rw [last] at ends
          exact ⟨(List.suffix_cons _ _).trans ends, by simpa using ⟨settled, readable⟩⟩
        · rename_i others next
          obtain ⟨⟨ns, left⟩, read', h⟩ := of_bind_ok h
          cases h
          rw [next] at ends
          have further := (skip_suffix others).trans ((List.suffix_cons _ _).trans ends)
          obtain ⟨suffix'', readable'⟩ := of_members n (plain.suffix further) read'
          exact ⟨suffix''.trans further,
            List.forall_mem_cons.2 ⟨⟨settled, readable⟩, readable'⟩⟩
        · cases h
      · cases h
    · cases h

end

/-- What is read from ordinary text is readable. -/
theorem readable_of_read {levels : Nat} {cs : List Char} {v : Json}
    (h : read levels (Text.ofChars cs) = .ok v) : Readable levels v := by
  have plain := plain_ofChars cs
  generalize Text.ofChars cs = t at h plain
  unfold read at h
  cases hd : document levels t with
  | error e =>
    rw [hd] at h
    cases h
  | ok w =>
    rw [hd] at h
    cases h
    unfold document at hd
    split at hd
    · cases hd
    · obtain ⟨⟨w, left⟩, read, hd⟩ := of_bind_ok hd
      dsimp only at hd
      split at hd
      · cases hd
        exact (of_value _ (plain.suffix (skip_suffix t)) read).2
      · cases hd

end Json

end Registrar
