import Assessment.Scalar
import Mathlib.Algebra.Order.Field.Rat
import Mathlib.Data.Rat.Init
import Mathlib.Tactic.NormNum

/-!
# Exact numbers

The rational numbers as a `Scalar`, for statements about exact arithmetic.  `Exact.undefined` is what
a division by zero and the special numbers `inf` and `nan` give; like the undefined number of doubles
it is not comparable to anything, itself included.

How numbers are read and written is a parameter of the type, a `Script`: a statement over every
script does not depend on the texts that numbers have.  `Script.decimal` is the usual one.
-/

namespace Assessment

/-- How exact numbers are read and written.  What a text is read as is settled by the parts of the
literal that it says, `digits * 10 ^ exponent` with a sign. -/
structure Script where
  read : (negative : Bool) → (digits : Nat) → (exponent : Int) → ℚ
  write : ℚ → String

namespace Script

/-- The number `digits * 10 ^ exponent` with a sign. -/
def readDecimal (negative : Bool) (digits : Nat) (exponent : Int) : ℚ :=
  let magnitude : ℚ := OfScientific.ofScientific digits (exponent < 0) exponent.natAbs
  if negative then -magnitude else magnitude

/-- The decimal that a number is, or its numerator and denominator if it is none. -/
def writeDecimal (r : ℚ) : String :=
  match (List.range (r.den.log2 + 1)).find? fun places => 10 ^ places % r.den == 0 with
  | some places =>
    Number.signed (r.num < 0)
      (Number.Decimal.positional ⟨r.num.natAbs * (10 ^ places / r.den), -places⟩)
  | none => toString r

/-- Numbers as they are read and written in form fields. -/
def decimal : Script := ⟨readDecimal, writeDecimal⟩

example : decimal.read true 5 (-1) = -1 / 2 ∧ decimal.write (-1 / 2) = "-0.5" := by
  constructor <;> decide +kernel

end Script

/-- A rational number, or none. -/
inductive Exact (script : Script)
  | rational (r : ℚ)
  | undefined
  deriving DecidableEq

namespace Exact

variable {script : Script}

/-- An operation on rational numbers. -/
def lift (f : ℚ → ℚ → ℚ) : Exact script → Exact script → Exact script
  | rational a, rational b => rational (f a b)
  | _, _ => undefined

/-- The quotient of two numbers, if the second is not zero. -/
def div : Exact script → Exact script → Exact script
  | rational a, rational b => if b = 0 then undefined else rational (a / b)
  | _, _ => undefined

def neg : Exact script → Exact script
  | rational a => rational (-a)
  | undefined => undefined

/-- A comparison of rational numbers. -/
def compares (r : ℚ → ℚ → Bool) : Exact script → Exact script → Bool
  | rational a, rational b => r a b
  | _, _ => false

instance : Scalar (Exact script) where
  add := lift (· + ·)
  sub := lift (· - ·)
  mul := lift (· * ·)
  div := div
  neg := neg
  lt x y := compares (fun a b => decide (a < b)) x y = true
  le x y := compares (fun a b => decide (a ≤ b)) x y = true
  beq := compares fun a b => decide (a = b)
  ofScientific digits negative exponent :=
    rational (OfScientific.ofScientific digits negative exponent)
  decLt _ _ := inferInstanceAs (Decidable (_ = true))
  decLe _ _ := inferInstanceAs (Decidable (_ = true))
  ofCount n := rational n
  isFinite
    | rational _ => true
    | undefined => false
  ofLiteral
    | .decimal negative digits exponent => rational (script.read negative digits exponent)
    | .infinite _ | .nan => undefined
  plain
    | rational r => script.write r
    | undefined => "NaN"
  full
    | rational r => script.write r
    | undefined => "NaN"

/-! ## Arithmetic -/

section

variable (a b : ℚ)

@[simp] lemma rational_add : (rational a + rational b : Exact script) = rational (a + b) := rfl

@[simp] lemma rational_sub : (rational a - rational b : Exact script) = rational (a - b) := rfl

@[simp] lemma rational_mul : (rational a * rational b : Exact script) = rational (a * b) := rfl

@[simp] lemma neg_rational : (-rational a : Exact script) = rational (-a) := rfl

@[simp] lemma ofCount_eq (n : Nat) : (Scalar.ofCount n : Exact script) = rational n := rfl

@[simp] lemma ofScientific_eq (digits : Nat) (negative : Bool) (exponent : Nat) :
    (OfScientific.ofScientific digits negative exponent : Exact script) =
      rational (OfScientific.ofScientific digits negative exponent) := rfl

variable {b} in
lemma rational_div (hb : b ≠ 0) : (rational a / rational b : Exact script) = rational (a / b) :=
  if_neg hb

@[simp] lemma rational_lt : (rational a : Exact script) < rational b ↔ a < b :=
  decide_eq_true_iff

@[simp] lemma rational_le : (rational a : Exact script) ≤ rational b ↔ a ≤ b :=
  decide_eq_true_iff

@[simp] lemma rational_beq : ((rational a : Exact script) == rational b) = decide (a = b) := rfl

@[simp] lemma least_rational :
    Scalar.least (rational a : Exact script) (rational b) = rational (min a b) := by
  simp only [Scalar.least, rational_beq, decide_true, if_true, rational_lt]
  by_cases h : a < b
  · rw [if_pos h, min_eq_left h.le]
  · rw [if_neg h, min_eq_right (not_lt.1 h)]

@[simp] lemma greatest_rational :
    Scalar.greatest (rational a : Exact script) (rational b) = rational (max a b) := by
  simp only [Scalar.greatest, rational_beq, decide_true, if_true, rational_lt]
  by_cases h : b < a
  · rw [if_pos h, max_eq_left h.le]
  · rw [if_neg h, max_eq_right (not_lt.1 h)]

end

/-! ## Particular numbers -/

lemma zero_eq : (0.0 : Exact script) = rational 0 := by
  rw [ofScientific_eq]
  norm_num

lemma one_eq : (1.0 : Exact script) = rational 1 := by
  rw [ofScientific_eq]
  norm_num

/-- The finite numbers are the rational ones. -/
lemma exists_of_isFinite {x : Exact script} (h : Scalar.isFinite x = true) :
    ∃ r, x = rational r := by
  cases x with
  | rational r => exact ⟨r, rfl⟩
  | undefined => cases h

end Exact
end Assessment
