import Mathlib.Data.List.Chain
import Registrar.Json.Reader
import Registrar.Json.Writer

/-!
# Strings in documents

A string is read back as it was written if it is settled: no high surrogate stands directly before a
low one. The escapes of two such surrogates are the escape of one character, so no reader could tell
them from that character. Whatever string is read from a document is settled, and so is ordinary
text. Of any other string documents give back its settled form, in which such halves are joined.
-/

namespace Registrar

/-- Whether the symbol is the first half of a pair of surrogates. -/
def Symbol.isHigh : Symbol → Bool
  | .char _ => false
  | .surrogate u => u.val < 1024

/-- Whether the symbol is the second half of a pair of surrogates. -/
def Symbol.isLow : Symbol → Bool
  | .char _ => false
  | .surrogate u => 1024 ≤ u.val

/-- No two symbols side by side are the halves of a character. -/
def Text.Settled (t : Text) : Prop := t.IsChain fun a b => ¬(a.isHigh ∧ b.isLow)

instance (t : Text) : Decidable t.Settled := inferInstanceAs (Decidable (t.IsChain _))

/-- Ordinary text is settled. -/
theorem Text.settled_ofChars (cs : List Char) : (Text.ofChars cs).Settled := by
  refine List.isChain_map_of_isChain _ (R := fun _ _ => True) (fun _ _ _ => ?_) ?_
  · simp [Symbol.isHigh]
  · exact List.isChain_iff_getElem.2 fun _ _ => trivial

namespace Json.Reader

variable {opening rest after : Text} {ss : Text}

/-! ## Single symbols -/

theorem digit?_hexDigit {n : Nat} (h : n < 16) : Hex.digit? (.char (hexDigit n)) = some n := by
  have all : ∀ k : Fin 16, Hex.digit? (.char (hexDigit k)) = some k.val := by decide
  exact all ⟨n, h⟩

/-- The digits of a code unit stand for the code unit. -/
theorem unit?_hexDigits {n : Nat} (h : n < 0x10000) :
    unit? (.char (hexDigit (n / 4096 % 16))) (.char (hexDigit (n / 256 % 16)))
      (.char (hexDigit (n / 16 % 16))) (.char (hexDigit (n % 16))) = some n := by
  unfold unit?
  rw [digit?_hexDigit (by omega), digit?_hexDigit (by omega), digit?_hexDigit (by omega),
    digit?_hexDigit (by omega)]
  show some (((n / 4096 % 16 * 16 + n / 256 % 16) * 16 + n / 16 % 16) * 16 + n % 16) = some n
  congr 1
  omega

theorem symbols_quote : symbols opening (.char '"' :: rest) = .ok ([], rest) := by
  rw [symbols]

theorem symbols_plain {c : Char} (low : 0x20 ≤ c.toNat) (quote : c ≠ '"') (backslash : c ≠ '\\')
    (h : symbols opening rest = .ok (ss, after)) :
    symbols opening (.char c :: rest) = .ok (.char c :: ss, after) := by
  rw [symbols, if_neg (by simpa [Symbol.toNat] using low), h]
  · rfl
  all_goals simp [quote, backslash]

theorem symbols_short {c d : Char} (hu : c ≠ 'u') (hd : shortEscape? (.char c) = some d)
    (h : symbols opening rest = .ok (ss, after)) :
    symbols opening (.char '\\' :: .char c :: rest) = .ok (.char d :: ss, after) := by
  rw [symbols, hd]
  · dsimp only
    rw [h]
    rfl
  all_goals simp [hu]

theorem symbols_unit {n : Nat} (hn : n < 0x10000) (h : symbols opening rest = .ok (ss, after)) :
    symbols opening (Text.ofChars (unitEscape n) ++ rest) =
      .ok (attach (startsUnit rest) (.ofUnit n) ss, after) := by
  cases rest with
  | nil => cases h
  | cons s rest =>
    show symbols opening (.char '\\' :: .char 'u' :: _ :: _ :: _ :: _ :: s :: rest) = _
    rw [symbols, unit?_hexDigits hn]
    dsimp only
    rw [h]
    rfl

/-! ## Escapes -/

theorem attach_char (escaped : Bool) (c : Char) (t : Text) :
    attach escaped (.char c) t = .char c :: t := rfl

/-- A surrogate stays alone in front of a text with which it is settled. -/
theorem attach_settled {u : Fin 2048} {t : Text} (h : Text.Settled (.surrogate u :: t))
    (escaped : Bool) : attach escaped (.surrogate u) t = .surrogate u :: t := by
  unfold attach
  split
  · rename_i v w rest e
    cases e
    have apart := (List.isChain_cons_cons.1 h).1
    rw [if_neg]
    simp only [Symbol.isHigh, Symbol.isLow] at apart
    grind
  · rfl

theorem ofUnit_high {h : Nat} (bound : h < 1024) :
    Symbol.ofUnit (0xd800 + h) = .surrogate ⟨h, by omega⟩ := by
  rw [Symbol.ofUnit, dif_pos (by omega)]
  exact congrArg _ (Fin.ext (Nat.add_sub_cancel_left ..))

theorem ofUnit_low {l : Nat} (bound : l < 1024) :
    Symbol.ofUnit (0xdc00 + l) = .surrogate ⟨1024 + l, by omega⟩ := by
  have apart : 0xdc00 + l - 0xd800 = 1024 + l := by omega
  rw [Symbol.ofUnit, dif_pos (by omega)]
  exact congrArg _ (Fin.ext apart)

/-- A low surrogate has no partner behind it. -/
theorem attach_low {l : Nat} (bound : l < 1024) (escaped : Bool) (t : Text) :
    attach escaped (.ofUnit (0xdc00 + l)) t = .ofUnit (0xdc00 + l) :: t := by
  rw [ofUnit_low bound]
  unfold attach
  split
  · rename_i u v rest e
    cases e
    rw [if_neg (by simp)]
  · rfl

theorem attach_pair {h l : Nat} (hh : h < 1024) (hl : l < 1024) (t : Text) :
    attach true (.ofUnit (0xd800 + h)) (.ofUnit (0xdc00 + l) :: t) =
      .char (Char.ofNat (0x10000 + h * 1024 + l)) :: t := by
  rw [ofUnit_high hh, ofUnit_low hl, attach, if_pos (by simp [hh]), Nat.add_sub_cancel_left]

theorem ofUnit_toNat {c : Char} (h : c.toNat < 0x10000) : Symbol.ofUnit c.toNat = .char c := by
  have valid : c.toNat < 0xd800 ∨ 0xdfff < c.toNat ∧ c.toNat < 0x110000 := c.valid
  unfold Symbol.ofUnit
  rw [dif_neg (by omega), Char.ofNat_toNat]

/-- A character is read back in front of whatever can be read. -/
theorem symbols_escapeChar (c : Char) (h : symbols opening rest = .ok (ss, after)) :
    symbols opening (Text.ofChars (escapeChar c) ++ rest) = .ok (.char c :: ss, after) := by
  unfold escapeChar
  iterate 7
    split
    · subst c
      exact symbols_short (by decide) rfl h
  split
  · rename_i quote backslash _ _ _ _ _ printable
    simp only [Bool.and_eq_true, decide_eq_true_eq] at printable
    exact symbols_plain printable.1 quote backslash h
  split
  · rename_i small
    rw [symbols_unit small h, ofUnit_toNat small, attach_char]
  · -- There are two escapes, and the second one is read first.
    rename_i large
    have valid : c.toNat < 0xd800 ∨ 0xdfff < c.toNat ∧ c.toNat < 0x110000 := c.valid
    have high : (c.toNat - 0x10000) / 1024 < 1024 := by omega
    have low : (c.toNat - 0x10000) % 1024 < 1024 := by omega
    have whole : 0x10000 + (c.toNat - 0x10000) / 1024 * 1024 + (c.toNat - 0x10000) % 1024 =
        c.toNat := by
      omega
    have second := symbols_unit (n := 0xdc00 + (c.toNat - 0x10000) % 1024) (by omega) h
    rw [attach_low low] at second
    have first := symbols_unit (n := 0xd800 + (c.toNat - 0x10000) / 1024) (by omega) second
    have escaped (m : Nat) : startsUnit (Text.ofChars (unitEscape m) ++ rest) = true := rfl
    rw [escaped, attach_pair high low, whole, Char.ofNat_toNat] at first
    simpa [List.append_assoc] using first

/-- Symbols are read back up to the quote behind them. -/
theorem symbols_escape {t : Text} (h : t.Settled) (opening rest : Text) :
    symbols opening (Text.ofChars (t.flatMap escape) ++ .char '"' :: rest) = .ok (t, rest) := by
  induction t with
  | nil => exact symbols_quote
  | cons s t ih =>
    have others := ih h.tail
    rw [List.flatMap_cons, Text.ofChars_append, List.append_assoc]
    cases s with
    | char c => exact symbols_escapeChar c others
    | surrogate u =>
      have unit : Symbol.ofUnit (0xd800 + u.val) = .surrogate u := by
        rw [Symbol.ofUnit, dif_pos (by omega)]
        exact congrArg _ (Fin.ext (Nat.add_sub_cancel_left ..))
      rw [escape, symbols_unit (by omega) others, unit, attach_settled h]

/-- A settled string is read back as it was written. -/
theorem string_writeText {t : Text} (h : t.Settled) (rest : Text) :
    Text.ofChars (writeText t) ++ rest =
      .char '"' :: (Text.ofChars (t.flatMap escape) ++ .char '"' :: rest) ∧
    string (Text.ofChars (t.flatMap escape) ++ .char '"' :: rest) = .ok (t, rest) :=
  ⟨by simp [writeText], symbols_escape h _ rest⟩

/-! ## Halves of characters -/

theorem escapeChar_large {c : Char} (large : 0x10000 ≤ c.toNat) :
    escapeChar c = unitEscape (0xd800 + (c.toNat - 0x10000) / 1024) ++
      unitEscape (0xdc00 + (c.toNat - 0x10000) % 1024) := by
  unfold escapeChar
  iterate 7
    rw [if_neg (by rintro rfl; exact absurd large (by decide))]
  rw [if_neg, if_neg (by omega)]
  simp only [Bool.and_eq_true, decide_eq_true_eq]
  omega

/-- The halves of a character are written like the character. -/
theorem escape_halves {h l : Nat} (hh : h < 1024) (hl : l < 1024) :
    escape (.ofUnit (0xd800 + h)) ++ escape (.ofUnit (0xdc00 + l)) =
      escape (.char (Char.ofNat (0x10000 + h * 1024 + l))) := by
  have value : (Char.ofNat (0x10000 + h * 1024 + l)).toNat = 0x10000 + h * 1024 + l := by
    have valid : (0x10000 + h * 1024 + l).isValidChar := Or.inr (by omega)
    rw [Char.ofNat, dif_pos valid]
    rfl
  have high : (h * 1024 + l) / 1024 = h := by omega
  have low : (h * 1024 + l) % 1024 = l := by omega
  have second : 0xd800 + (1024 + l) = 0xdc00 + l := by omega
  rw [ofUnit_high hh, ofUnit_low hl, escape, escape, escape, escapeChar_large (by omega), value,
    Nat.add_assoc 0x10000, Nat.add_sub_cancel_left, high, low, second]

/-! ## Settled strings -/

theorem settled_cons_char {c : Char} {t : Text} (h : t.Settled) : Text.Settled (.char c :: t) := by
  cases t with
  | nil => exact .singleton _
  | cons s t => exact .cons_cons (by simp [Symbol.isHigh]) h

/-- A symbol stays apart from a text in which no partner waits. -/
theorem settled_attach {escaped : Bool} {s : Symbol} {t : Text} (h : t.Settled)
    (alone : escaped = false → ∀ u ∈ t.head?, u.isSurrogate = false) :
    (attach escaped s t).Settled := by
  unfold attach
  split
  · rename_i u v rest
    split
    · exact settled_cons_char h.tail
    · rename_i apart
      refine .cons_cons ?_ h
      cases escaped with
      | true => simpa [Symbol.isHigh, Symbol.isLow] using apart
      | false => exact absurd (alone rfl _ rfl) (by simp [Symbol.isSurrogate])
  · rename_i apart
    cases s with
    | char c => exact settled_cons_char h
    | surrogate u =>
      cases t with
      | nil => exact .singleton _
      | cons v rest =>
        cases v with
        | char c => exact .cons_cons (by simp [Symbol.isLow]) h
        | surrogate v => exact (apart u v rest rfl rfl).elim

/-- What is read as a string is settled. -/
theorem settled_symbols {opening t ss after : Text} (plain : ∀ s ∈ t, s.isSurrogate = false)
    (h : symbols opening t = .ok (ss, after)) :
    ss.Settled ∧ (startsUnit t = false → ∀ u ∈ ss.head?, u.isSurrogate = false) := by
  fun_induction symbols opening t generalizing ss after with
  | case1 => cases h
  | case2 =>
    cases h
    exact ⟨.nil, by simp⟩
  | case3 => cases h
  | case4 a b c d e rest n hn ih =>
    cases hr : symbols opening (e :: rest) with
    | error f =>
      rw [hr] at h
      cases h
    | ok p =>
      rw [hr] at h
      cases h
      obtain ⟨settled, alone⟩ := ih (fun s hs => plain s (by simp_all)) hr
      exact ⟨settled_attach settled alone, by simp [startsUnit]⟩
  | case5 => cases h
  | case6 => cases h
  | case7 s rest _ _ c hc ih =>
    cases hr : symbols opening rest with
    | error f =>
      rw [hr] at h
      cases h
    | ok p =>
      rw [hr] at h
      cases h
      obtain ⟨settled, -⟩ := ih (fun s hs => plain s (.tail _ (.tail _ hs))) hr
      exact ⟨settled_cons_char settled, by simp [Symbol.isSurrogate]⟩
  | case8 => cases h
  | case9 => cases h
  | case10 s rest _ _ _ _ _ _ ih =>
    cases hr : symbols opening rest with
    | error f =>
      rw [hr] at h
      cases h
    | ok p =>
      rw [hr] at h
      cases h
      obtain ⟨settled, -⟩ := ih (fun s hs => plain s (.tail _ hs)) hr
      have char := plain s (.head _)
      cases s with
      | char c => exact ⟨settled_cons_char settled, by simp [Symbol.isSurrogate]⟩
      | surrogate u => cases char

end Json.Reader

/-! ## Settling -/

namespace Text

open Json.Reader

/-- The text with the halves of characters joined. -/
def settle (t : Text) : Text := t.foldr (attach true) []

theorem settle_cons (s : Symbol) (t : Text) : settle (s :: t) = attach true s t.settle := rfl

theorem settled_settle (t : Text) : t.settle.Settled := by
  induction t with
  | nil => exact .nil
  | cons s t ih => exact settled_attach ih (by simp)

theorem settle_of_settled {t : Text} (h : t.Settled) : t.settle = t := by
  induction t with
  | nil => rfl
  | cons s t ih =>
    rw [settle_cons, ih h.tail]
    cases s with
    | char c => exact attach_char true c t
    | surrogate u => exact attach_settled h true

theorem settle_ne_nil {t : Text} (h : t ≠ []) : t.settle ≠ [] := by
  cases t with
  | nil => exact absurd rfl h
  | cons s t =>
    rw [settle_cons]
    unfold attach
    split
    · split <;> simp
    · simp

/-- Joined halves are escaped as they were. -/
theorem escape_attach (s : Symbol) (t : Text) :
    (attach true s t).flatMap Json.escape = Json.escape s ++ t.flatMap Json.escape := by
  unfold attach
  split
  · rename_i h l rest
    split
    · rename_i pair
      simp only [Bool.true_and, Bool.and_eq_true, decide_eq_true_eq] at pair
      obtain ⟨high, low⟩ := pair
      have halves := escape_halves high (l := l.val - 1024) (by omega)
      have first : Symbol.ofUnit (0xd800 + h.val) = .surrogate h := ofUnit_high high
      have second : Symbol.ofUnit (0xdc00 + (l.val - 1024)) = .surrogate l := by
        rw [ofUnit_low (by omega)]
        exact congrArg _ (Fin.ext (Nat.add_sub_cancel' low))
      rw [first, second] at halves
      rw [List.flatMap_cons, List.flatMap_cons, ← List.append_assoc, halves]
    · rfl
  · rfl

/-- A text and its settled form are written alike. -/
theorem escape_settle (t : Text) : t.settle.flatMap Json.escape = t.flatMap Json.escape := by
  induction t with
  | nil => rfl
  | cons s t ih => rw [settle_cons, escape_attach, ih, List.flatMap_cons]

end Text

end Registrar
