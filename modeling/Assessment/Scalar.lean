import Assessment.Number.Literal
import Assessment.Number.Notation

/-!
# The numbers of marks

Marks, fractions and penalties are counted in a type of numbers that this library leaves open.  It
asks for arithmetic, comparison, decimal constants, and the texts in which numbers are submitted and
shown.  Programs run on the doubles of this module; a statement about exact arithmetic is made over
an instance in which the operations are exact and texts read back.
-/

namespace Assessment

/-- A type of numbers in which marks can be counted.  Comparisons are operations and not laws: a
number that is not comparable to itself is allowed. -/
class Scalar (ν : Type) extends Add ν, Sub ν, Mul ν, Div ν, Neg ν, LT ν, LE ν, BEq ν,
    OfScientific ν where
  /-- Whether one number is less than another. -/
  decLt : DecidableLT ν
  /-- Whether one number is at most another. -/
  decLe : DecidableLE ν
  /-- A whole number of things. -/
  ofCount : Nat → ν
  /-- Whether the number is neither infinite nor undefined. -/
  isFinite : ν → Bool
  /-- The number that a text says. -/
  ofLiteral : Number.Literal → ν
  /-- The form written into variables and messages. -/
  plain : ν → String
  /-- The form shown by diagnostic displays. -/
  full : ν → String

attribute [reducible, instance] Scalar.decLt Scalar.decLe

namespace Scalar

variable {ν : Type} [Scalar ν]

/-- The number written in `s`, infinities and the undefined number included. -/
def read? (s : String) : Option ν :=
  (Number.Literal.read? s).map ofLiteral

/-- The lesser of two numbers; the other one when one is undefined, the second when they are equal. -/
def least (a b : ν) : ν :=
  if b == b then if a < b then a else b else a

/-- The greater of two numbers; the other one when one is undefined, the second when they are equal. -/
def greatest (a b : ν) : ν :=
  if b == b then if b < a then a else b else a

end Scalar

namespace Number

/-- The double nearest to `digits * 10 ^ exponent`.  Magnitudes far beyond the range of doubles are
settled by the number of digits. -/
def doubleOfDecimal (digits : Nat) (exponent : Int) : Float :=
  let magnitude := (digits.repr.length : Int) + exponent
  if digits == 0 || magnitude < -400 then 0.0
  else if 400 < magnitude then 1.0 / 0.0
  else if 0 ≤ exponent then Float.ofScientific digits false exponent.toNat
  else Float.ofScientific digits true (-exponent).toNat

/-- The double that a text says. -/
def doubleOfLiteral : Literal → Float
  | .nan => 0.0 / 0.0
  | .infinite negative => if negative then -(1.0 / 0.0) else 1.0 / 0.0
  | .decimal negative digits exponent =>
    if negative then -(doubleOfDecimal digits exponent) else doubleOfDecimal digits exponent

end Number

/-- Doubles, compared and rounded by the rules of IEEE 754. -/
instance : Scalar Float where
  decLt := inferInstance
  decLe := inferInstance
  ofCount n := Float.ofScientific n false 0
  isFinite := Float.isFinite
  ofLiteral := Number.doubleOfLiteral
  plain x := (Number.Parts.ofBits x.toBits.toNat).plain
  full x := (Number.Parts.ofBits x.toBits.toNat).full

end Assessment
