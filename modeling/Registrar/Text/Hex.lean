import Registrar.Text.Basic
import Registrar.Text.Blank
import Registrar.Text.Utf8

/-!
# Bytes as hexadecimal text

Every byte is written as two lower-case digits. Reading takes upper-case digits too, and blanks
between the pairs.
-/

namespace Registrar.Hex

/-- The value of a hexadecimal digit. -/
def digit? : Symbol → Option Nat
  | .char c =>
    if '0' ≤ c && c ≤ '9' then some (c.toNat - 0x30)
    else if 'a' ≤ c && c ≤ 'f' then some (c.toNat - 0x61 + 10)
    else if 'A' ≤ c && c ≤ 'F' then some (c.toNat - 0x41 + 10)
    else none
  | .surrogate _ => none

/-- The position of the first symbol that is out of place. -/
structure Fault where
  position : Nat
  deriving DecidableEq, Repr

def Fault.message (f : Fault) : String :=
  "non-hexadecimal number found in fromhex() arg at position " ++ toString f.position

/-- Reads from a position on. -/
def decodeFrom (position : Nat) : Text → Except Fault Bytes
  | [] => .ok []
  | a :: rest =>
    if a.satisfies Text.isBlank then decodeFrom (position + 1) rest
    else
      match digit? a, rest with
      | none, _ => .error ⟨position⟩
      | some _, [] => .error ⟨position + 1⟩
      | some a, b :: rest =>
        match digit? b with
        | none => .error ⟨position + 1⟩
        | some b => (decodeFrom (position + 2) rest).map (UInt8.ofNat (a * 16 + b) :: ·)

/-- The bytes that a text stands for. A symbol beyond ASCII is out of place before any other. -/
def decode (t : Text) : Except Fault Bytes :=
  match t.findIdx? (0x80 ≤ ·.toNat) with
  | some position => .error ⟨position⟩
  | none => decodeFrom 0 t

/-- The text of bytes. -/
def encode (bs : Bytes) : String := String.join (bs.map Utf8.Fault.hexByte)

end Registrar.Hex
