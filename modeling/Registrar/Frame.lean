import Registrar.Error

/-!
# Framed records

The key or the value of a record is framed when it starts with the byte zero and the identifier of
its schema as four bytes, the most significant one first. What follows is the payload.
-/

namespace Registrar

/-- What the bytes of a key or a value are. -/
inductive Frame where
  /-- The record has no bytes at all. -/
  | absent
  /-- The bytes have no header; they are kept whole. -/
  | unframed (raw : Bytes)
  | framed (id : Nat) (payload : Bytes)
  deriving DecidableEq, Repr

namespace Frame

/-- The first byte of every framed record. -/
def magic : UInt8 := 0

/-- The first identifier that no longer fits the header. -/
def idBound : Nat := 0x100000000

/-- The number that four bytes stand for. -/
def idOfBytes (a b c d : UInt8) : Nat :=
  ((a.toNat * 256 + b.toNat) * 256 + c.toNat) * 256 + d.toNat

/-- The four bytes of an identifier. -/
def idBytes (id : Nat) : Bytes :=
  [UInt8.ofNat (id >>> 24), UInt8.ofNat (id >>> 16), UInt8.ofNat (id >>> 8), UInt8.ofNat id]

/-- Splits bytes into header and payload. -/
def split : Option Bytes → Frame
  | none => .absent
  | some (m :: a :: b :: c :: d :: payload) =>
    if m = magic then .framed (idOfBytes a b c d) payload
    else .unframed (m :: a :: b :: c :: d :: payload)
  | some raw => .unframed raw

/-- An identifier that does not fit the header. -/
structure IdOutOfRange where
  id : Int
  deriving DecidableEq, Repr

def IdOutOfRange.message (e : IdOutOfRange) : String :=
  "schema id " ++ toString e.id ++ " out of unsigned 32-bit range"

/-- Puts the header with the identifier in front of a payload. -/
def encode (id : Int) (payload : Bytes) : Except IdOutOfRange Bytes :=
  if 0 ≤ id ∧ id < idBound then .ok (magic :: idBytes id.toNat ++ payload) else .error ⟨id⟩

/-- Puts the header in front of a payload that may be absent, in which case there is no frame. The
identifier is looked at first. -/
def encodeGiven (id : Int) (payload : Option Bytes) : Except ForeignError Bytes := do
  let framed ← (encode id (payload.getD [])).mapError fun e => ⟨.value, e.message⟩
  if payload.isSome then return framed else throw .noBytes

end Frame

end Registrar
