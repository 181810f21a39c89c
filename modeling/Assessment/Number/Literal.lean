import Assessment.Number.Integer

/-!
# Reading numbers

The grammar of a number in a form field: an optional sign, then `inf`, `infinity` or `nan` in any
case, or digits with an optional point among or around them and an optional exponent.  Blanks are not
part of it.  The result keeps the exact decimal, so that each kind of number rounds it in its own way.
-/

namespace Assessment
namespace Number

/-- What a number's text says, before rounding. -/
inductive Literal
  | nan
  | infinite (negative : Bool)
  /-- The number `digits * 10 ^ exponent`, negated when `negative`. -/
  | decimal (negative : Bool) (digits : Nat) (exponent : Int)
  deriving Repr, DecidableEq

/-- The exponent after the digits: nothing, or `e` and a signed integer. -/
def exponent? : List Char → Option Int
  | [] => some 0
  | c :: rest =>
    if c == 'e' || c == 'E' then
      match rest with
      | '-' :: ds => (digits? ds).map fun n => -(n : Int)
      | '+' :: ds => (digits? ds).map fun n => (n : Int)
      | ds => (digits? ds).map fun n => (n : Int)
    else none

/-- An unsigned decimal: digits, an optional fraction part, an optional exponent, at least one digit
before or after the point. -/
def decimal? (cs : List Char) : Option (Nat × Int) :=
  let whole := cs.takeWhile Char.isDigit
  let afterWhole := cs.dropWhile Char.isDigit
  let (fraction, rest) := match afterWhole with
    | '.' :: more => (more.takeWhile Char.isDigit, more.dropWhile Char.isDigit)
    | more => ([], more)
  let ds := whole ++ fraction
  if ds.isEmpty then none
  else (exponent? rest).map fun e => (Nat.ofDigitChars 10 ds 0, e - (fraction.length : Int))

/-- An unsigned number. -/
def unsigned? (negative : Bool) (cs : List Char) : Option Literal :=
  let word := cs.map Char.toLower
  if word == "inf".toList || word == "infinity".toList then some (.infinite negative)
  else if word == "nan".toList then some .nan
  else (decimal? cs).map fun d => .decimal negative d.1 d.2

/-- The number written in `s`. -/
def Literal.read? (s : String) : Option Literal :=
  match s.toList with
  | '-' :: rest => unsigned? true rest
  | '+' :: rest => unsigned? false rest
  | cs => unsigned? false cs

end Number
end Assessment
