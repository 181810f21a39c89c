import Assessment.Digest.Hex

/-!
# Percent-encoded text

A text may write any byte of its UTF-8 form as a `%` with two hexadecimal digits.  A `%` without two
digits after it stands for itself, except where `isPercentEncoded` is asked for.  `percentDecode?`
refuses bytes that are not UTF-8 and `percentDecode` reads on: it is told apart from the strict reading
only where that fails (`percentDecode_of_some`).
-/

namespace Assessment
namespace Text

/-- The byte that two digits stand for. -/
def byteOfDigits? (hi lo : Char) : Option UInt8 := do
  let h ← Digest.hexValue? hi
  let l ← Digest.hexValue? lo
  return UInt8.ofNat (16 * h + l)

/-- The bytes of a text in UTF-8, those that are written as digits included. -/
def percentBytes : List Char → Digest.Bytes
  | [] => []
  | '%' :: hi :: lo :: rest =>
    match byteOfDigits? hi lo with
    | some b => b :: percentBytes rest
    | none => String.utf8EncodeChar '%' ++ percentBytes (hi :: lo :: rest)
  | c :: rest => String.utf8EncodeChar c ++ percentBytes rest

/-- The text that an encoded text stands for. -/
def percentDecode? (cs : List Char) : Option String :=
  String.fromUTF8? (percentBytes cs).toByteArray

/-- The text that an encoded text stands for.  In bytes that are not UTF-8, every byte outside ASCII
is read as the replacement character. -/
def percentDecode (cs : List Char) : String :=
  (percentDecode? cs).getD <| String.ofList <| (percentBytes cs).map fun b =>
    if b.toNat < 128 then Char.ofNat b.toNat else '\ufffd'

/-- Whether every `%` has two hexadecimal digits after it. -/
def isPercentEncoded : List Char → Bool
  | [] => true
  | '%' :: hi :: lo :: rest => (byteOfDigits? hi lo).isSome && isPercentEncoded (hi :: lo :: rest)
  | c :: rest => c != '%' && isPercentEncoded rest

theorem percentDecode_of_some {cs : List Char} {s : String} (h : percentDecode? cs = some s) :
    percentDecode cs = s := by
  simp [percentDecode, h]

end Text
end Assessment
