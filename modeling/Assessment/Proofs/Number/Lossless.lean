import Assessment.Proofs.Number.Exact
import Assessment.Question.MultiChoice

/-!
# Numbers whose text says what they are

A number is kept by its text if the text is read as that number again (`Scalar.Kept`).  What is proved
about stored numbers asks for this, of the finite numbers and of those that were read from a text
themselves (`Scalar.Lossless`): doubles in the shortest digits that identify them are written so.

Exact numbers can be.  A rational number without a finite decimal has no text of the usual kind, and
`Script.fraction` gives it one, a numerator and a denominator; all others it writes as usual.  So
`Exact.lossless` is an instance in which texts are those of the usual script wherever these read back.
-/

namespace Assessment

/-! ## Kept numbers -/

namespace Scalar

variable {ν : Type} [Scalar ν]

/-- The text of the number is read as the number. -/
def Kept (x : ν) : Prop := read? (plain x) = some x

/-- The texts of numbers lose nothing: a finite number is kept, and so is what was read from a text.
The marks and penalties that stand in where none are given are finite. -/
structure Lossless (ν : Type) [Scalar ν] : Prop where
  of_finite : ∀ x : ν, isFinite x = true → Kept x
  of_literal : ∀ l, Kept (ofLiteral l : ν)
  usualMark : isFinite (1.0 : ν) = true
  usualPenalty : isFinite (MultiChoice.usualPenalty : ν) = true

end Scalar

/-! ## Numerals with an exponent -/

namespace Number

/-- A text that begins with a digit is no word. -/
lemma unsigned?_of_isDigit (negative : Bool) {c : Char} (hc : c.isDigit = true) (rest : List Char) :
    unsigned? negative (c :: rest) =
      (decimal? (c :: rest)).map fun d => .decimal negative d.1 d.2 := by
  have hlower : c.toLower = c := by
    unfold Char.toLower
    rw [dif_neg]
    rintro ⟨hlow, -⟩
    simp only [Char.isDigit, Bool.and_eq_true, decide_eq_true_eq, UInt32.le_iff_toNat_le] at hc
    have hhigh : c.toNat ≤ 57 := hc.2
    have hlow : 65 ≤ c.toNat := UInt32.le_iff_toNat_le.1 hlow
    omega
  have hword : ∀ {word : List Char}, word.head?.map Char.isDigit = some false →
      ((c :: rest).map Char.toLower == word) = false := by
    intro word hhead
    rw [beq_eq_false_iff_ne]
    rintro rfl
    rw [List.map_cons, hlower, List.head?_cons, Option.map_some, hc] at hhead
    cases hhead
  unfold unsigned?
  simp only
  rw [hword (by decide), hword (by decide), hword (by decide)]
  rfl

/-- Digits, an `e` and digits are read as the two numbers. -/
lemma decimal?_exponent (digits exponent : Nat) :
    decimal? (Nat.toDigits 10 digits ++ 'e' :: Nat.toDigits 10 exponent) =
      some (digits, (exponent : Int)) := by
  have hdigit : ∀ {n : Nat} {c : Char}, c ∈ Nat.toDigits 10 n → c.isDigit = true :=
    fun h => Nat.isDigit_of_mem_toDigits (by decide) (by decide) h
  have hexponent : exponent? ('e' :: Nat.toDigits 10 exponent) = some (exponent : Int) := by
    have hsign : ∀ c rest, Nat.toDigits 10 exponent = c :: rest → c.isDigit = true :=
      fun c rest heq => hdigit (heq ▸ List.mem_cons_self)
    simp only [exponent?, beq_self_eq_true, Bool.true_or, if_true]
    split
    · exact absurd (hsign _ _ ‹_›) (by decide)
    · exact absurd (hsign _ _ ‹_›) (by decide)
    · rw [digits?_toDigits]
      rfl
  have htake : (Nat.toDigits 10 digits ++ 'e' :: Nat.toDigits 10 exponent).takeWhile Char.isDigit =
      Nat.toDigits 10 digits := by
    rw [List.takeWhile_append_of_pos fun c hc => hdigit hc, List.takeWhile_cons_of_neg (by decide),
      List.append_nil]
  have hdrop : (Nat.toDigits 10 digits ++ 'e' :: Nat.toDigits 10 exponent).dropWhile Char.isDigit =
      'e' :: Nat.toDigits 10 exponent := by
    rw [List.dropWhile_append_of_pos fun c hc => hdigit hc, List.dropWhile_cons_of_neg (by decide)]
  unfold decimal?
  simp only [htake, hdrop]
  simp [hexponent]

/-- So they are with a sign in front. -/
lemma Literal.read?_exponent (negative : Bool) (digits exponent : Nat) :
    read? (signed negative (digits.repr ++ "e" ++ exponent.repr)) =
      some (.decimal negative digits (exponent : Int)) := by
  have hchars : (digits.repr ++ "e" ++ exponent.repr).toList =
      Nat.toDigits 10 digits ++ 'e' :: Nat.toDigits 10 exponent := by
    simp [String.toList_append]
  obtain ⟨c, rest, hcons⟩ := List.exists_cons_of_ne_nil
    (Nat.toDigits_ne_nil (n := digits) (b := 10))
  have hc : c.isDigit = true :=
    Nat.isDigit_of_mem_toDigits (by decide) (by decide) (hcons ▸ List.mem_cons_self)
  rw [hcons, List.cons_append] at hchars
  have hunsigned : unsigned? negative (digits.repr ++ "e" ++ exponent.repr).toList =
      some (.decimal negative digits (exponent : Int)) := by
    rw [hchars, unsigned?_of_isDigit negative hc, ← List.cons_append, ← hcons, decimal?_exponent,
      Option.map_some]
  cases negative with
  | true =>
    have hsigned : (signed true (digits.repr ++ "e" ++ exponent.repr)).toList =
        '-' :: (digits.repr ++ "e" ++ exponent.repr).toList := by
      rw [signed, if_pos rfl, String.toList_append]
      rfl
    rw [read?, hsigned]
    exact hunsigned
  | false =>
    rw [read?, signed, if_neg (by decide)]
    split
    · rename_i heq
      rw [hchars] at heq
      rw [(List.cons.inj heq).1] at hc
      cases hc
    · rename_i heq
      rw [hchars] at heq
      rw [(List.cons.inj heq).1] at hc
      cases hc
    · exact hunsigned

end Number

/-! ## Fractions -/

namespace Script

/-- The number that a text says; digits with a positive exponent say a numerator and a denominator. -/
def readFraction (negative : Bool) (digits : Nat) (exponent : Int) : ℚ :=
  if 0 < exponent then
    if negative then -(digits / exponent : ℚ) else (digits / exponent : ℚ)
  else readDecimal negative digits exponent

/-- Whether the decimal of a number is read as the number. -/
def isDecimal (r : ℚ) : Bool :=
  match Number.Literal.read? (writeDecimal r) with
  | some (.decimal negative digits exponent) => readFraction negative digits exponent == r
  | _ => false

/-- Numbers as they are read and written in form fields, and those without a decimal as fractions. -/
def fraction : Script where
  read := readFraction
  write r :=
    if isDecimal r then writeDecimal r
    else Number.signed (decide (r.num < 0)) (r.num.natAbs.repr ++ "e" ++ r.den.repr)

example : fraction.write (-1 / 2) = "-0.5" ∧ fraction.write (1 / 3) = "1e3" := by
  constructor <;> decide +kernel

/-- A numerator and a denominator are read as their quotient. -/
lemma readFraction_num_den (r : ℚ) :
    readFraction (decide (r.num < 0)) r.num.natAbs (r.den : Int) = r := by
  have hden : (0 : Int) < r.den := by exact_mod_cast r.den_pos
  have hquotient : (r.num : ℚ) / r.den = r := r.num_div_den
  rw [readFraction, if_pos hden, Int.cast_natCast]
  split
  · rename_i hneg
    have habs : (r.num.natAbs : ℚ) = -r.num := by
      rw [Nat.cast_natAbs, abs_of_neg (of_decide_eq_true hneg), Int.cast_neg]
    rw [habs, neg_div, neg_neg, hquotient]
  · rename_i hneg
    have habs : (r.num.natAbs : ℚ) = r.num := by
      rw [Nat.cast_natAbs, abs_of_nonneg (not_lt.1 fun h => hneg (decide_eq_true h))]
    rw [habs, hquotient]

/-- What is written is read as the number that was written. -/
lemma fraction_readsBack (r : ℚ) : ∃ negative digits exponent,
    Number.Literal.read? (fraction.write r) = some (.decimal negative digits exponent) ∧
      fraction.read negative digits exponent = r := by
  cases hdecimal : isDecimal r with
  | true =>
    have hwrite : fraction.write r = writeDecimal r := if_pos hdecimal
    unfold isDecimal at hdecimal
    split at hdecimal
    · rename_i negative digits exponent hread
      exact ⟨negative, digits, exponent, hwrite ▸ hread, beq_iff_eq.1 hdecimal⟩
    · cases hdecimal
  | false =>
    have hwrite : fraction.write r =
        Number.signed (decide (r.num < 0)) (r.num.natAbs.repr ++ "e" ++ r.den.repr) :=
      if_neg (by rw [hdecimal]; decide)
    exact ⟨_, _, _, hwrite ▸ Number.Literal.read?_exponent _ _ _, readFraction_num_den r⟩

end Script

/-- Exact numbers that are written as decimals or fractions lose nothing by it. -/
theorem Exact.lossless : Scalar.Lossless (Exact Script.fraction) := by
  have hrational : ∀ r, Scalar.Kept (Exact.rational r : Exact Script.fraction) := by
    intro r
    obtain ⟨negative, digits, exponent, hread, hvalue⟩ := Script.fraction_readsBack r
    exact (congrArg (Option.map Scalar.ofLiteral) hread).trans
      (congrArg (fun r => some (Exact.rational r)) hvalue)
  have hundefined : Scalar.Kept (Exact.undefined : Exact Script.fraction) := by
    have hread : Number.Literal.read? "NaN" = some .nan := by decide +kernel
    exact congrArg (Option.map Scalar.ofLiteral) hread
  refine ⟨fun x hx => ?_, fun l => ?_, rfl, rfl⟩
  · obtain ⟨r, rfl⟩ := Exact.exists_of_isFinite hx
    exact hrational r
  · cases l with
    | decimal negative digits exponent => exact hrational _
    | nan | infinite => exact hundefined

end Assessment
