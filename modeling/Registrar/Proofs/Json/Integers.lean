import Registrar.Json.Reader
import Registrar.Json.Writer

/-!
# Integers in documents

The decimal digits of an integer, with a sign in front of them if it is negative, are read back as
the integer when they end the text or stand before a comma or a closing bracket.
-/

namespace Registrar.Json.Reader

/-- Nothing is left, or what is left begins with a comma or a closing bracket. -/
def Closed (rest : Text) : Prop :=
  ∀ s ∈ rest.head?, s = .char ',' ∨ s = .char ']' ∨ s = .char '\x7d'

theorem closed_nil : Closed [] := by
  intro s h
  cases h

variable {rest : Text}

/-! ## Digits -/

theorem plainDigit?_of_isDigit {c : Char} (h : c.isDigit) :
    Text.plainDigit? (.char c) = some (c.toNat - 0x30) := by
  simp only [Char.isDigit, Bool.and_eq_true, decide_eq_true_eq] at h
  exact if_pos (by simpa [Char.le_def] using h)

theorem Closed.plainDigit?_head (h : Closed rest) {s : Symbol} (hs : s ∈ rest.head?) :
    Text.plainDigit? s = none := by
  rcases h s hs with rfl | rfl | rfl <;> decide

theorem spanDigits_closed (h : Closed rest) : Text.spanDigits rest = ([], rest) := by
  cases rest with
  | nil => rfl
  | cons s rest => rw [Text.spanDigits, h.plainDigit?_head rfl]

theorem spanDigits_append {cs : List Char} (digits : ∀ c ∈ cs, c.isDigit) (h : Closed rest) :
    Text.spanDigits (Text.ofChars cs ++ rest) = (cs.map (·.toNat - 0x30), rest) := by
  induction cs with
  | nil => exact spanDigits_closed h
  | cons c cs ih =>
    have others := ih fun d hd => digits d (.tail _ hd)
    show Text.spanDigits (.char c :: (Text.ofChars cs ++ rest)) = _
    rw [Text.spanDigits, plainDigit?_of_isDigit (digits c (.head _)), others]
    rfl

theorem ofDigits_eq (cs : List Char) :
    Text.ofDigits (cs.map (·.toNat - 0x30)) = Nat.ofDigitChars 10 cs 0 := by
  rw [Text.ofDigits, List.foldl_map, Nat.ofDigitChars_eq_foldl]
  congr
  funext n c
  rw [Nat.mul_comm]
  rfl

/-- The digits of a positive number do not start with a zero. -/
theorem toDigits_head_ne {n : Nat} (h : 0 < n) : (Nat.toDigits 10 n).head? ≠ some '0' := by
  induction n using Nat.strongRecOn with
  | _ n ih =>
    by_cases small : n < 10
    · rw [Nat.toDigits_of_lt_base small]
      simpa using Nat.ne_of_gt h
    · rw [Nat.toDigits_of_base_le (by decide) (by omega)]
      have := ih (n / 10) (by omega) (by omega)
      cases e : Nat.toDigits 10 (n / 10) with
      | nil => exact absurd e Nat.toDigits_ne_nil
      | cons c cs =>
        rw [e] at this
        exact this

/-! ## Numbers -/

/-- The digits of a number are its whole part. -/
theorem whole?_toDigits (n : Nat) (h : Closed rest) :
    whole? (Text.ofChars (Nat.toDigits 10 n) ++ rest) =
      some ((Nat.toDigits 10 n).map (·.toNat - 0x30), rest) := by
  have span := spanDigits_append
    (fun c => Nat.isDigit_of_mem_toDigits (b := 10) (n := n) (by decide) (by decide)) h
  rcases Nat.eq_zero_or_pos n with rfl | pos
  · rfl
  · have head := toDigits_head_ne pos
    cases e : Nat.toDigits 10 n with
    | nil => exact absurd e Nat.toDigits_ne_nil
    | cons c cs =>
      rw [e] at span head
      rw [whole?, span]
      · rfl
      · intro t ht
        simp_all

theorem fraction_closed (h : Closed rest) : fraction rest = ([], rest) := by
  unfold fraction
  split
  · rename_i t
    rcases h _ rfl with e | e | e <;> simp at e
  · rfl

theorem exponent_closed (h : Closed rest) : exponent rest = (none, rest) := by
  cases rest with
  | nil => rfl
  | cons s rest => rcases h _ rfl with rfl | rfl | rfl <;> rfl

/-- The numeral of an integer. -/
def numeralOf (n : Int) : Numeral :=
  ⟨n < 0, (Nat.toDigits 10 n.natAbs).map (·.toNat - 0x30), [], none⟩

/-- The characters of an integer. -/
theorem toList_toString (n : Int) :
    (toString n).toList = (if n < 0 then ['-'] else []) ++ Nat.toDigits 10 n.natAbs := by
  cases n with
  | ofNat m => exact Nat.toList_repr
  | negSucc m =>
    have text : toString (Int.negSucc m) = "-" ++ (m + 1).repr := rfl
    rw [text, String.toList_append, Nat.toList_repr, if_pos (Int.negSucc_lt_zero m)]
    rfl

theorem numeral?_toString (n : Int) (h : Closed rest) :
    numeral? (Text.ofChars (toString n).toList ++ rest) = some (numeralOf n, rest) := by
  have whole := whole?_toDigits n.natAbs h
  have head : ∀ t, Text.ofChars (Nat.toDigits 10 n.natAbs) ++ rest ≠ .char '-' :: t := by
    intro t e
    cases digits : Nat.toDigits 10 n.natAbs with
    | nil => exact absurd digits Nat.toDigits_ne_nil
    | cons c cs =>
      have isDigit := Nat.isDigit_of_mem_toDigits (b := 10) (by decide) (by decide)
        (digits ▸ List.mem_cons_self : c ∈ Nat.toDigits 10 n.natAbs)
      rw [digits] at e
      obtain rfl : c = '-' := by simpa using congrArg List.head? e
      simp at isDigit
  rw [toList_toString, Text.ofChars_append, List.append_assoc]
  generalize Text.ofChars (Nat.toDigits 10 n.natAbs) ++ rest = t at whole head ⊢
  unfold numeral?
  by_cases negative : n < 0
  · rw [if_pos negative]
    show (whole? t).bind _ = _
    rw [whole]
    simp [fraction_closed h, exponent_closed h, numeralOf, negative]
  · rw [if_neg negative, Text.ofChars_nil, List.nil_append]
    split
    rename_i negative' unsigned e
    split at e
    · exact absurd rfl (head _)
    · cases e
      rw [whole]
      simp [fraction_closed h, exponent_closed h, numeralOf, negative]

theorem value_numeralOf {n : Int} (short : (Nat.toDigits 10 n.natAbs).length ≤ maxDigits) :
    (numeralOf n).value = .ok (.int n) := by
  have magnitude : signed (n < 0) n.natAbs = n := by
    unfold signed
    split
    · rename_i negative
      have below := of_decide_eq_true negative
      omega
    · rename_i natural
      have above : ¬ n < 0 := mt decide_eq_true natural
      omega
  refine (if_neg (by simpa [numeralOf] using short)).trans ?_
  rw [numeralOf, ofDigits_eq, Nat.ofDigitChars_ten_toDigits, magnitude]

/-- Neither of the first two characters of a word that is a value is a digit. -/
theorem words_start {w : Text × Json} (hw : w ∈ words) :
    ∃ c d t, w.1 = .char c :: .char d :: t ∧ ¬ c.isDigit ∧ ¬ d.isDigit := by
  simp only [words, List.mem_cons, List.not_mem_nil, or_false] at hw
  rcases hw with rfl | rfl | rfl | rfl | rfl | rfl
  · exact ⟨'n', 'u', ['l', 'l'].map .char, by decide, by decide⟩
  · exact ⟨'t', 'r', ['u', 'e'].map .char, by decide, by decide⟩
  · exact ⟨'f', 'a', ['l', 's', 'e'].map .char, by decide, by decide⟩
  · exact ⟨'N', 'a', ['N'].map .char, by decide, by decide⟩
  · exact ⟨'I', 'n', ['f', 'i', 'n', 'i', 't', 'y'].map .char, by decide, by decide⟩
  · exact ⟨'-', 'I', ['n', 'f', 'i', 'n', 'i', 't', 'y'].map .char, by decide, by decide⟩

/-- No word that is a value starts like an integer. -/
theorem not_prefix_toString {w : Text × Json} (hw : w ∈ words) (n : Int) (rest : Text) :
    ¬ w.1 <+: Text.ofChars (toString n).toList ++ rest := by
  obtain ⟨a, b, t, start, ha, hb⟩ := words_start hw
  have digits : ∀ d ∈ Nat.toDigits 10 n.natAbs, d.isDigit := fun d =>
    Nat.isDigit_of_mem_toDigits (by decide) (by decide)
  rw [start, toList_toString]
  cases e : Nat.toDigits 10 n.natAbs with
  | nil => exact absurd e Nat.toDigits_ne_nil
  | cons d ds =>
    have isDigit := digits d (e ▸ .head _)
    rintro h
    split at h
    · obtain ⟨-, h⟩ := List.cons_prefix_cons.1 h
      obtain ⟨e, -⟩ := List.cons_prefix_cons.1 h
      exact hb (Symbol.char.inj e ▸ isDigit)
    · obtain ⟨e, -⟩ := List.cons_prefix_cons.1 h
      exact ha (Symbol.char.inj e ▸ isDigit)

/-- An integer that is not too long is read back as it was written. -/
theorem scalar_toString {n : Int} (short : (Nat.toDigits 10 n.natAbs).length ≤ maxDigits)
    (h : Closed rest) :
    scalar (Text.ofChars (toString n).toList ++ rest) = .ok (.int n, rest) := by
  have noWord : (words.find? fun w => w.1.isPrefixOf (Text.ofChars (toString n).toList ++ rest)) =
      none := by
    refine List.find?_eq_none.2 fun w hw => ?_
    rw [List.isPrefixOf_iff_prefix]
    exact not_prefix_toString hw n rest
  unfold scalar
  rw [noWord, numeral?_toString n h]
  dsimp only
  rw [value_numeralOf short]
  rfl

end Registrar.Json.Reader
