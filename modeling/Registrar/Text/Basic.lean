/-!
# Texts

A text is a sequence of characters and of surrogates that no partner completes: an escape in a JSON
document can name a single surrogate, so names, messages and schemas that come from documents may
hold one. `Text.ofString` embeds ordinary text. `Text.toChars` goes back and otherwise tells which
surrogates stand in the way, since a text that holds one has no UTF-8 form.
-/

namespace Registrar

/-- One position of a text; `surrogate u` stands for the code unit `0xd800 + u`. -/
inductive Symbol where
  | char (c : Char)
  | surrogate (u : Fin 2048)
  deriving DecidableEq, Repr

namespace Symbol

/-- Whether the symbol is a character of a class; no surrogate belongs to any. -/
def satisfies (p : Char → Bool) : Symbol → Bool
  | .char c => p c
  | .surrogate _ => false

def isSurrogate : Symbol → Bool
  | .char _ => false
  | .surrogate _ => true

/-- Applies a function to a character; a surrogate stays. -/
def map (f : Char → Char) : Symbol → Symbol
  | .char c => .char (f c)
  | .surrogate u => .surrogate u

/-- The symbol of a sixteen-bit code unit. -/
def ofUnit (n : Nat) : Symbol :=
  if h : 0xd800 ≤ n ∧ n < 0xe000 then .surrogate ⟨n - 0xd800, by omega⟩ else .char (Char.ofNat n)

/-- The code point. -/
def toNat : Symbol → Nat
  | .char c => c.toNat
  | .surrogate u => 0xd800 + u.val

end Symbol

/-- A sequence of characters and lone surrogates. -/
abbrev Text := List Symbol

namespace Text

def ofChars (cs : List Char) : Text := cs.map .char

def ofString (s : String) : Text := ofChars s.toList

instance : Coe String Text := ⟨ofString⟩

@[simp]
theorem ofChars_nil : ofChars [] = [] := rfl

@[simp]
theorem ofChars_cons (c : Char) (cs : List Char) : ofChars (c :: cs) = .char c :: ofChars cs := rfl

@[simp]
theorem ofChars_append (cs ds : List Char) : ofChars (cs ++ ds) = ofChars cs ++ ofChars ds := by
  simp [ofChars]

/-! ## Ordinary text -/

/-- Lone surrogates side by side, which no ordinary text holds: where they start, the first one, and
the number of those after it. -/
structure Unencodable where
  start : Nat
  first : Fin 2048
  others : Nat
  deriving DecidableEq, Repr

/-- A single surrogate is shown itself, several are given by their positions. -/
def Unencodable.message (u : Unencodable) : String :=
  let place :=
    if u.others = 0 then
      let unit := String.ofList (Nat.toDigits 16 (0xd800 + u.first.val))
      "character '\\u" ++ unit ++ "' in position " ++ toString u.start
    else "characters in position " ++ toString u.start ++ "-" ++ toString (u.start + u.others)
  "'utf-8' codec can't encode " ++ place ++ ": surrogates not allowed"

/-- The characters of a text that starts at position `pos`, or its first lone surrogates. -/
def charsFrom (pos : Nat) : Text → Except Unencodable (List Char)
  | [] => .ok []
  | .char c :: rest => (charsFrom (pos + 1) rest).map (c :: ·)
  | .surrogate u :: rest => .error ⟨pos, u, (rest.takeWhile Symbol.isSurrogate).length⟩

/-- The characters of a text, or its first lone surrogates. -/
def toChars (t : Text) : Except Unencodable (List Char) := charsFrom 0 t

theorem charsFrom_ofChars (pos : Nat) (cs : List Char) : charsFrom pos (ofChars cs) = .ok cs := by
  induction cs generalizing pos with
  | nil => rfl
  | cons c cs ih => simp [charsFrom, ih, Except.map]

@[simp]
theorem toChars_ofChars (cs : List Char) : toChars (ofChars cs) = .ok cs := charsFrom_ofChars 0 cs

/-- The text as a string, or its first lone surrogates. -/
def asString (t : Text) : Except Unencodable String := t.toChars.map String.ofList

@[simp]
theorem asString_ofString (s : String) : asString (ofString s) = .ok s := by
  simp [asString, ofString, Except.map]

theorem ofChars_injective {cs ds : List Char} (h : ofChars cs = ofChars ds) : cs = ds := by
  have := congrArg toChars h
  simpa using this

theorem ofString_injective {s t : String} (h : ofString s = ofString t) : s = t :=
  String.toList_inj.1 (ofChars_injective h)

end Text

end Registrar
