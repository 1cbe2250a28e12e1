import Registrar.Text.Basic
import Registrar.Text.Utf8

/-!
# Bytes as text without loss

Any sequence of bytes has a text: the characters whose UTF-8 forms stand in it, and for each byte
that is part of none the surrogate `dc00` plus the byte. `Text.ofBytes` gives it and `Text.toBytes`
goes back. A text may hold other surrogates, which stand for no byte; and surrogates that stand for
bytes may follow each other so that the bytes are a character, which is then what is read back.
-/

namespace Registrar

namespace Text

/-! ## Writing -/

/-- The surrogate that stands for a byte. -/
def ofByte (b : UInt8) : Symbol := .surrogate ⟨0x400 + b.toNat, by have := b.toNat_lt; omega⟩

/-- The byte that a surrogate stands for; those below `80` are characters and need none. -/
def byte? (u : Fin 2048) : Option UInt8 :=
  if 0x480 ≤ u.val ∧ u.val < 0x500 then some (UInt8.ofNat (u.val - 0x400)) else none

/-- The bytes of a text that starts at position `pos`, or its first surrogates from the one that
stands for no byte. -/
def bytesFrom (pos : Nat) : Text → Except Unencodable Bytes
  | [] => .ok []
  | .char c :: rest => (bytesFrom (pos + 1) rest).map (String.utf8EncodeChar c ++ ·)
  | .surrogate u :: rest =>
    match byte? u with
    | some b => (bytesFrom (pos + 1) rest).map (b :: ·)
    | none => .error ⟨pos, u, (rest.takeWhile Symbol.isSurrogate).length⟩

/-- The bytes of a text. -/
def toBytes (t : Text) : Except Unencodable Bytes := bytesFrom 0 t

/-! ## Reading -/

open Utf8 (Lead Open)

/-- The symbols for the bytes of a sequence that is not completed. -/
def abandoned : Option Open → Text
  | none => []
  | some o => (o.first :: o.seen.reverse).map ofByte

/-- What a byte that may start a character gives, and the sequence that it opens. -/
def opened (b : UInt8) : Text × Option Open :=
  match Lead.ofByte? b with
  | none => ([ofByte b], none)
  | some ⟨v, []⟩ => ([.char (Char.ofNat v)], none)
  | some ⟨v, r :: rs⟩ => ([], some ⟨0, b, [], v, r, rs⟩)

/-- What a byte gives inside the sequence `o` if one is open, and the sequence that is open then. -/
def advanced (o : Option Open) (b : UInt8) : Text × Option Open :=
  match o.filter (·.expected.contains b) with
  | none => (abandoned o ++ (opened b).1, (opened b).2)
  | some o =>
    let v := o.value * 64 + (b.toNat - 0x80)
    match o.later with
    | [] => ([.char (Char.ofNat v)], none)
    | r :: rs => ([], some ⟨o.start, o.first, b :: o.seen, v, r, rs⟩)

/-- The text of bytes inside the sequence `o` if one is open. -/
def ofBytesFrom (o : Option Open) : Bytes → Text
  | [] => abandoned o
  | b :: bs => (advanced o b).1 ++ ofBytesFrom (advanced o b).2 bs

/-- The text of bytes. -/
def ofBytes (bs : Bytes) : Text := ofBytesFrom none bs

end Text

end Registrar
