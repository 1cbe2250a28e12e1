import Registrar.Text.Basic
import Registrar.Text.Utf8

/-!
# Percent-encoding

A text that becomes one segment of a URL keeps its unreserved characters, the ASCII letters and
digits and `_ . - ~`. Every other byte of its UTF-8 form is written as a percent sign and two
upper-case hexadecimal digits, so the result holds none of the characters that structure a URL. Lone
surrogates have no UTF-8 form, so a text that holds one is refused.
-/

namespace Registrar.Percent

/-- The characters that stand for themselves. -/
def isUnreserved (b : UInt8) : Bool :=
  (0x30 ≤ b && b ≤ 0x39) || (0x41 ≤ b && b ≤ 0x5a) || (0x61 ≤ b && b ≤ 0x7a) ||
    b = 0x5f || b = 0x2e || b = 0x2d || b = 0x7e

/-- An upper-case hexadecimal digit. -/
def hexDigit (n : Nat) : Char :=
  if n < 10 then Char.ofNat (0x30 + n) else Char.ofNat (0x41 + (n - 10))

def encodeByte (b : UInt8) : List Char :=
  if isUnreserved b then [Char.ofNat b.toNat]
  else ['%', hexDigit (b.toNat / 16), hexDigit (b.toNat % 16)]

def encodeBytes (bs : Bytes) : List Char := bs.flatMap encodeByte

@[simp]
theorem encodeBytes_nil : encodeBytes [] = [] := rfl

@[simp]
theorem encodeBytes_cons (b : UInt8) (bs : Bytes) :
    encodeBytes (b :: bs) = encodeByte b ++ encodeBytes bs := rfl

/-- A text as one segment of a URL. -/
def encode (t : Text) : Except Text.Unencodable String :=
  t.toChars.map fun cs => String.ofList (encodeBytes (Utf8.encode cs))

end Registrar.Percent
