/-!
# UTF-8

Bytes are lists of octets. `Utf8.encode` writes characters as bytes, `Utf8.decode` reads them back
or names the first fault: where the ill-formed sequence starts, which bytes it covers, and why no
character begins with them.

A sequence is ill formed at its first byte when no character starts that way, and later when a byte
that should continue it is missing or lies outside the range which the first byte allows. The ranges
after `e0`, `ed`, `f0` and `f4` are narrower, so that overlong forms, surrogates and values above
`10ffff` are refused at their second byte.
-/

namespace Registrar

/-- A sequence of octets. -/
abbrev Bytes := List UInt8

namespace Utf8

/-! ## Writing -/

/-- The bytes of a sequence of characters. -/
def encode (cs : List Char) : Bytes := cs.flatMap String.utf8EncodeChar

@[simp]
theorem encode_nil : encode [] = [] := rfl

@[simp]
theorem encode_cons (c : Char) (cs : List Char) :
    encode (c :: cs) = String.utf8EncodeChar c ++ encode cs := rfl

@[simp]
theorem encode_append (cs ds : List Char) : encode (cs ++ ds) = encode cs ++ encode ds := by
  simp [encode]

/-! ## Faults -/

/-- Why a sequence of bytes is no character. -/
inductive Reason where
  | invalidStart
  | invalidContinuation
  | unexpectedEnd
  deriving DecidableEq, Repr

def Reason.message : Reason → String
  | .invalidStart => "invalid start byte"
  | .invalidContinuation => "invalid continuation byte"
  | .unexpectedEnd => "unexpected end of data"

/-- The first ill-formed sequence: its position and the bytes it covers, the first one apart. -/
structure Fault where
  reason : Reason
  start : Nat
  first : UInt8
  others : Bytes
  deriving DecidableEq, Repr

namespace Fault

/-- Two lower-case hexadecimal digits. -/
def hexByte (b : UInt8) : String :=
  String.ofList [Nat.digitChar (b.toNat / 16), Nat.digitChar (b.toNat % 16)]

/-- A single byte is shown itself, several are given by their positions. -/
def message (f : Fault) : String :=
  let place :=
    match f.others with
    | [] => "byte 0x" ++ hexByte f.first ++ " in position " ++ toString f.start
    | _ :: _ =>
      "bytes in position " ++ toString f.start ++ "-" ++ toString (f.start + f.others.length)
  "'utf-8' codec can't decode " ++ place ++ ": " ++ f.reason.message

end Fault

/-! ## Reading -/

/-- A closed range of octets. -/
structure Range where
  low : UInt8
  high : UInt8
  deriving DecidableEq, Repr

def Range.contains (r : Range) (b : UInt8) : Bool := r.low ≤ b && b ≤ r.high

/-- The range of an unrestricted continuation byte. -/
def Range.continuation : Range := ⟨0x80, 0xbf⟩

/-- What the first byte of a sequence says: its payload and the ranges of the bytes to follow. -/
structure Lead where
  payload : Nat
  tail : List Range
  deriving DecidableEq, Repr

/-- Reads a first byte; `none` if no character starts with it. -/
def Lead.ofByte? (b : UInt8) : Option Lead :=
  let any := Range.continuation
  if b < 0x80 then some ⟨b.toNat, []⟩
  else if b < 0xc2 then none
  else if b < 0xe0 then some ⟨b.toNat - 0xc0, [any]⟩
  else if b = 0xe0 then some ⟨0, [⟨0xa0, 0xbf⟩, any]⟩
  else if b = 0xed then some ⟨0xd, [⟨0x80, 0x9f⟩, any]⟩
  else if b < 0xf0 then some ⟨b.toNat - 0xe0, [any, any]⟩
  else if b = 0xf0 then some ⟨0, [⟨0x90, 0xbf⟩, any, any]⟩
  else if b < 0xf4 then some ⟨b.toNat - 0xf0, [any, any, any]⟩
  else if b = 0xf4 then some ⟨4, [⟨0x80, 0x8f⟩, any, any]⟩
  else none

/-- A sequence that has begun and is not complete. -/
structure Open where
  start : Nat
  first : UInt8
  /-- The continuation bytes so far, the last one in front. -/
  seen : Bytes
  value : Nat
  expected : Range
  later : List Range
  deriving DecidableEq, Repr

def Open.fault (o : Open) (r : Reason) : Fault := ⟨r, o.start, o.first, o.seen.reverse⟩

/-- Decodes from position `pos`, inside the sequence `o` if one is open. -/
def decodeFrom (pos : Nat) : Option Open → Bytes → Except Fault (List Char)
  | none, [] => .ok []
  | some o, [] => .error (o.fault .unexpectedEnd)
  | none, b :: bs =>
    match Lead.ofByte? b with
    | none => .error ⟨.invalidStart, pos, b, []⟩
    | some ⟨v, []⟩ => (decodeFrom (pos + 1) none bs).map (Char.ofNat v :: ·)
    | some ⟨v, r :: rs⟩ => decodeFrom (pos + 1) (some ⟨pos, b, [], v, r, rs⟩) bs
  | some o, b :: bs =>
    if o.expected.contains b then
      let v := o.value * 64 + (b.toNat - 0x80)
      match o.later with
      | [] => (decodeFrom (pos + 1) none bs).map (Char.ofNat v :: ·)
      | r :: rs =>
        decodeFrom (pos + 1) (some ⟨o.start, o.first, b :: o.seen, v, r, rs⟩) bs
    else
      .error (o.fault .invalidContinuation)

/-- The characters that the bytes encode, or the first fault. -/
def decode (bs : Bytes) : Except Fault (List Char) := decodeFrom 0 none bs

end Utf8

end Registrar
