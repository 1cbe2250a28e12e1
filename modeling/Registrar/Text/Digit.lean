import Registrar.Text.Basic
import Registrar.Text.Blank

/-!
# Decimal digits

The decimal digits of a script follow each other in the order of their values, so the digits zero
determine them all.
-/

namespace Registrar.Text

/-- The code points of the digits zero; the other nine digits of a script follow its zero. -/
def zeros : List Nat :=
  [0x30, 0x660, 0x6f0, 0x7c0, 0x966, 0x9e6, 0xa66, 0xae6, 0xb66, 0xbe6, 0xc66, 0xce6, 0xd66, 0xde6,
   0xe50, 0xed0, 0xf20, 0x1040, 0x1090, 0x17e0, 0x1810, 0x1946, 0x19d0, 0x1a80, 0x1a90, 0x1b50,
   0x1bb0, 0x1c40, 0x1c50, 0xa620, 0xa8d0, 0xa900, 0xa9d0, 0xa9f0, 0xaa50, 0xabf0, 0xff10, 0x104a0,
   0x10d30, 0x11066, 0x110f0, 0x11136, 0x111d0, 0x112f0, 0x11450, 0x114d0, 0x11650, 0x116c0,
   0x11730, 0x118e0, 0x11950, 0x11c50, 0x11d50, 0x11da0, 0x16a60, 0x16ac0, 0x16b50, 0x1d7ce,
   0x1d7d8, 0x1d7e2, 0x1d7ec, 0x1d7f6, 0x1e140, 0x1e2f0, 0x1e950, 0x1fbf0]

/-- The value of a decimal digit of any script. -/
def digitValue? (c : Char) : Option Nat :=
  (zeros.find? fun z => z ≤ c.toNat && c.toNat ≤ z + 9).map (c.toNat - ·)

/-- The value of an ASCII digit. -/
def plainDigit? : Symbol → Option Nat
  | .char c => if '0' ≤ c && c ≤ '9' then some (c.toNat - 0x30) else none
  | .surrogate _ => none

/-- The values of the ASCII digits at the start of a text, and what follows them. -/
def spanDigits : Text → List Nat × Text
  | [] => ([], [])
  | s :: rest =>
    match plainDigit? s with
    | some d =>
      let (ds, rest) := spanDigits rest
      (d :: ds, rest)
    | none => ([], s :: rest)

/-- The number that decimal digits stand for. -/
def ofDigits (ds : List Nat) : Nat := ds.foldl (fun n d => n * 10 + d) 0

/-- Digits of every script become ASCII digits and blanks become spaces; other characters stay. -/
def plain (t : Text) : Text :=
  t.map <| Symbol.map fun c =>
    if c.toNat < 0x80 then c
    else if isBlank c then ' '
    else match digitValue? c with
      | some d => Char.ofNat (0x30 + d)
      | none => c

end Registrar.Text
