import Assessment.Number.Shortest

/-!
# Writing numbers

Two forms of a number are in use.  The *plain* form is the one of marks in variables and messages:
the shortest digits, never an exponent, no fraction part for a whole number.  The *full* form is the
one of diagnostic displays: it always shows a fraction part or an exponent, the latter for very large
and very small numbers.
-/

namespace Assessment
namespace Number

/-- The digits of a decimal in positional notation. -/
def Decimal.positional (d : Decimal) : String :=
  let ds := Nat.toDigits 10 d.digits
  if 0 ≤ d.exponent then String.ofList (ds ++ List.replicate d.exponent.toNat '0')
  else
    let places := (-d.exponent).toNat
    if places < ds.length then
      String.ofList (ds.take (ds.length - places) ++ '.' :: ds.drop (ds.length - places))
    else String.ofList ('0' :: '.' :: (List.replicate (places - ds.length) '0' ++ ds))

/-- The digits of a decimal with one of them before the point, followed by the exponent. -/
def Decimal.scientific (d : Decimal) : String :=
  let ds := Nat.toDigits 10 d.digits
  let exponent := d.exponent + (ds.length : Int) - 1
  let mantissa := match ds with
    | [] => []
    | [c] => [c]
    | c :: rest => c :: '.' :: rest
  String.ofList mantissa ++ "e" ++ toString exponent

/-- The exponent of the leading digit. -/
def Decimal.magnitude (d : Decimal) : Int :=
  d.exponent + ((Nat.toDigits 10 d.digits).length : Int) - 1

/-- A sign in front of a text. -/
def signed (negative : Bool) (s : String) : String :=
  if negative then "-" ++ s else s

/-- The plain form: `0.5`, `2`, `-0`, `inf`, `NaN`. -/
def Parts.plain : Parts → String
  | .nan => "NaN"
  | .infinite negative => signed negative "inf"
  | .zero negative => signed negative "0"
  | .finite negative r => signed negative r.shortest.positional

/-- The full form: `0.5`, `2.0`, `-0.0`, `1e16`, `1.5e-7`. -/
def Parts.full : Parts → String
  | .nan => "NaN"
  | .infinite negative => signed negative "inf"
  | .zero negative => signed negative "0.0"
  | .finite negative r =>
    let d := r.shortest
    let text :=
      if d.magnitude < -4 || 16 ≤ d.magnitude then d.scientific
      else if 0 ≤ d.exponent then d.positional ++ ".0"
      else d.positional
    signed negative text

end Number
end Assessment
