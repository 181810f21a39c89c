/-!
# The shortest decimal of a binary number

A finite binary number `mantissa * 2 ^ exponent` is written with the fewest decimal digits that still
round to it.  Its rounding interval is measured in quarters of the unit in the last place, so that
both ends are whole numbers; for each decimal grid from coarse to fine the two grid points beside the
number are tested against the interval in exact arithmetic.  The first grid with a point inside gives
the digits; of two points the nearer is taken, and of two equally near the greater.
-/

namespace Assessment
namespace Number

/-- The decimal `digits * 10 ^ exponent`. -/
structure Decimal where
  digits : Nat
  exponent : Int
  deriving Repr, DecidableEq

/-- A positive binary number with the interval of reals that round to it, in quarters of the unit
`2 ^ exponent` in its last place. -/
structure Rounding where
  /-- The number itself. -/
  centre : Nat
  /-- The lower end of the interval. -/
  low : Nat
  /-- The upper end of the interval. -/
  high : Nat
  /-- Whether the ends belong to the interval. -/
  closed : Bool
  /-- The exponent of two of a quarter. -/
  exponent : Int

/-- The interval around `mantissa * 2 ^ exponent`.  Below a power of two the neighbours are half as
far apart, unless the number is already among the smallest. -/
def Rounding.of (mantissa : Nat) (exponent : Int) (powerOfTwo : Bool) : Rounding where
  centre := 4 * mantissa
  low := if powerOfTwo then 4 * mantissa - 1 else 4 * mantissa - 2
  high := 4 * mantissa + 2
  closed := mantissa % 2 == 0
  exponent := exponent - 2

/-- The factor that turns a multiple of `10 ^ k` into a common unit with a quarter. -/
def Rounding.gridUnit (r : Rounding) (k : Int) : Nat :=
  Nat.pow 10 k.toNat <<< (-r.exponent).toNat

/-- The factor that turns a quarter into a common unit with a multiple of `10 ^ k`. -/
def Rounding.quarterUnit (r : Rounding) (k : Int) : Nat :=
  Nat.pow 10 (-k).toNat <<< r.exponent.toNat

/-- Whether `n * 10 ^ k` rounds to the number. -/
def Rounding.holds (r : Rounding) (k : Int) (n : Nat) : Bool :=
  let point := n * r.gridUnit k
  let unit := r.quarterUnit k
  if r.closed then r.low * unit ≤ point && point ≤ r.high * unit
  else r.low * unit < point && point < r.high * unit

/-- The point of the grid `10 ^ k` that rounds to the number and is nearest to it. -/
def Rounding.nearest? (r : Rounding) (k : Int) : Option Nat :=
  let value := r.centre * r.quarterUnit k
  let grid := r.gridUnit k
  let below := value / grid
  let rest := value % grid
  match r.holds k below, r.holds k (below + 1) with
  | true, true => some (if 2 * rest < grid then below else below + 1)
  | true, false => some below
  | false, true => some (below + 1)
  | false, false => none

/-- Searches grids from `10 ^ k` downwards, at most `fuel` of them. -/
def Rounding.search (r : Rounding) : Nat → Int → Option Decimal
  | 0, _ => none
  | fuel + 1, k =>
    match r.nearest? k with
    | some n => some ⟨n, k⟩
    | none => Rounding.search r fuel (k - 1)

/-- A power of ten above the number: no coarser grid has a point beside it other than zero. -/
def Rounding.top (r : Rounding) : Int :=
  let num := r.centre <<< r.exponent.toNat
  let den := 1 <<< (-r.exponent).toNat
  if den ≤ num then (num / den).repr.length
  else 1 - ((den / num).repr.length : Int)

/-- The decimal of fewest digits that rounds to the number.  Seventeen digits always suffice for a
number of 53 bits, and the search starts at most two grids above the first digit. -/
def Rounding.shortest (r : Rounding) : Decimal :=
  (r.search 20 r.top).getD ⟨r.centre, 0⟩

/-- A number of 64 bits taken apart. -/
inductive Parts
  | nan
  | infinite (negative : Bool)
  | zero (negative : Bool)
  | finite (negative : Bool) (rounding : Rounding)

/-- Takes the bits of a double apart: a sign, eleven bits of exponent and 52 of mantissa. -/
def Parts.ofBits (bits : Nat) : Parts :=
  let negative := (bits >>> 63) % 2 == 1
  let biased := (bits >>> 52) % 2048
  let fraction := bits % (1 <<< 52)
  if biased == 2047 then if fraction == 0 then .infinite negative else .nan
  else if biased == 0 then
    if fraction == 0 then .zero negative
    else .finite negative (.of fraction (-1074) false)
  else .finite negative (.of ((1 <<< 52) + fraction) ((biased : Int) - 1075)
    (fraction == 0 && 1 < biased))

end Number
end Assessment
