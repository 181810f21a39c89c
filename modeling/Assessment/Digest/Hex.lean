import Assessment.Digest.Sha256

/-!
# Hexadecimal text

Bytes are written as two hexadecimal digits each, in lower case; either case is read.  Reading
accepts exactly the texts that writing produces, up to the case of their letters.
-/

namespace Assessment
namespace Digest

/-- The digit of a number below sixteen. -/
def hexDigit (n : Nat) : Char := Nat.digitChar n

/-- The number of a digit in either case. -/
def hexValue? (c : Char) : Option Nat :=
  if '0' ≤ c ∧ c ≤ '9' then some (c.toNat - '0'.toNat)
  else if 'a' ≤ c ∧ c ≤ 'f' then some (c.toNat - 'a'.toNat + 10)
  else if 'A' ≤ c ∧ c ≤ 'F' then some (c.toNat - 'A'.toNat + 10)
  else none

/-- The two digits of a byte. -/
def hexOfByte (b : UInt8) : List Char := [hexDigit (b.toNat / 16), hexDigit (b.toNat % 16)]

/-- The digits of a list of bytes. -/
def hexChars (bytes : Bytes) : List Char := bytes.flatMap hexOfByte

/-- The text of a list of bytes. -/
def hex (bytes : Bytes) : String := String.ofList (hexChars bytes)

/-- The bytes of a list of digits. -/
def unhexChars? : List Char → Option Bytes
  | [] => some []
  | [_] => none
  | hi :: lo :: rest => do
    let h ← hexValue? hi
    let l ← hexValue? lo
    let more ← unhexChars? rest
    return UInt8.ofNat (16 * h + l) :: more

/-- The bytes of a text. -/
def unhex? (s : String) : Option Bytes := unhexChars? s.toList

end Digest
end Assessment
