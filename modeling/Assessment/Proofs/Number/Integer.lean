import Assessment.Number.Integer
import Mathlib.Tactic.Common

/-!
# Numerals of integers

What a text has to be to be read as an integer is said without the reader: an optional sign and at least
one ASCII digit (`Number.IsNumeral`).  The reader accepts these texts within its bounds and nothing else,
and gives the integer that they denote (`Number.readInt?_eq_some_iff`).  An integer has many numerals,
with either sign or zeros in front, but a numeral denotes one integer (`Number.IsNumeral.unique`), and
the one that is written is among them (`Number.isNumeral_toString`).
-/

namespace Assessment
namespace Number

/-- The characters are ASCII digits, at least one, and denote the number. -/
structure IsDigits (cs : List Char) (n : Nat) : Prop where
  ne_nil : cs ≠ []
  digits : ∀ c ∈ cs, c.isDigit = true
  value : Nat.ofDigitChars 10 cs 0 = n

/-- The characters are an optional sign and at least one ASCII digit, and denote the integer. -/
inductive IsNumeral : List Char → Int → Prop
  | unsigned {cs : List Char} {n : Nat} (h : IsDigits cs n) : IsNumeral cs n
  | plus {cs : List Char} {n : Nat} (h : IsDigits cs n) : IsNumeral ('+' :: cs) n
  | minus {cs : List Char} {n : Nat} (h : IsDigits cs n) : IsNumeral ('-' :: cs) (-n)

/-- Digits are read as the number that they denote, and nothing else is. -/
lemma digits?_eq_some_iff {cs : List Char} {n : Nat} :
    digits? cs = some n ↔ IsDigits cs n := by
  unfold digits?
  constructor
  · intro h
    split at h
    · cases h
    · rename_i hdigits
      rw [Bool.not_eq_true, Bool.or_eq_false_iff, Bool.not_eq_false', List.all_eq_true,
        List.isEmpty_eq_false_iff] at hdigits
      exact ⟨hdigits.1, hdigits.2, Option.some.inj h⟩
  · rintro ⟨hne, hdigits, rfl⟩
    rw [List.all_eq_true.2 hdigits, List.isEmpty_eq_false_iff.2 hne]
    rfl

/-! ## Signs -/

/-- No digit is a sign. -/
lemma IsDigits.ne_cons {cs rest : List Char} {n : Nat} (h : IsDigits cs n) {c : Char}
    (hc : c.isDigit = false) : cs ≠ c :: rest := by
  rintro rfl
  rw [h.digits c List.mem_cons_self] at hc
  cases hc

lemma isNumeral_minus_iff {cs : List Char} {n : Int} :
    IsNumeral ('-' :: cs) n ↔ ∃ m, IsDigits cs m ∧ -(m : Int) = n := by
  constructor
  · intro h
    cases h with
    | unsigned h => exact absurd rfl (h.ne_cons (by decide))
    | minus h => exact ⟨_, h, rfl⟩
  · rintro ⟨m, h, rfl⟩
    exact .minus h

lemma isNumeral_plus_iff {cs : List Char} {n : Int} :
    IsNumeral ('+' :: cs) n ↔ ∃ m, IsDigits cs m ∧ (m : Int) = n := by
  constructor
  · intro h
    cases h with
    | unsigned h => exact absurd rfl (h.ne_cons (by decide))
    | plus h => exact ⟨_, h, rfl⟩
  · rintro ⟨m, h, rfl⟩
    exact .plus h

lemma isNumeral_iff_of_no_sign {cs : List Char} {n : Int} (hminus : ∀ rest, cs ≠ '-' :: rest)
    (hplus : ∀ rest, cs ≠ '+' :: rest) : IsNumeral cs n ↔ ∃ m, IsDigits cs m ∧ (m : Int) = n := by
  constructor
  · intro h
    cases h with
    | unsigned h => exact ⟨_, h, rfl⟩
    | plus h => exact absurd rfl (hplus _)
    | minus h => exact absurd rfl (hminus _)
  · rintro ⟨m, h, rfl⟩
    exact .unsigned h

/-! ## Reading -/

/-- What is made of the number that digits denote. -/
lemma map_digits?_eq_some_iff {cs : List Char} {f : Int → Int} {n : Int} :
    (digits? cs >>= fun m => pure (m : Int)).map f = some n ↔
      ∃ m : Nat, IsDigits cs m ∧ f m = n := by
  simp [Option.bind_eq_some_iff, digits?_eq_some_iff]

/-- The texts that are read as an integer are its numerals, if it lies within the bounds. -/
theorem readInt?_eq_some_iff {least most n : Int} {s : String} :
    readInt? least most s = some n ↔ IsNumeral s.toList n ∧ least ≤ n ∧ n ≤ most := by
  unfold readInt?
  rw [Option.filter_eq_some_iff, Bool.and_eq_true, decide_eq_true_eq, decide_eq_true_eq]
  refine and_congr_left fun _ => ?_
  split
  · rename_i rest hs
    rw [hs, isNumeral_minus_iff]
    exact map_digits?_eq_some_iff
  · rename_i rest hs
    rw [hs, isNumeral_plus_iff]
    exact map_digits?_eq_some_iff
  · rename_i hminus hplus
    rw [isNumeral_iff_of_no_sign hminus hplus]
    exact map_digits?_eq_some_iff

/-- A numeral denotes one integer. -/
lemma IsNumeral.unique {cs : List Char} {n m : Int} (hn : IsNumeral cs n) (hm : IsNumeral cs m) :
    n = m := by
  have hread : ∀ {k : Int}, IsNumeral cs k → min n m ≤ k → k ≤ max n m →
      readInt? (min n m) (max n m) (String.ofList cs) = some k := fun hk hlow hhigh =>
    readInt?_eq_some_iff.2 ⟨by rwa [String.toList_ofList], hlow, hhigh⟩
  exact Option.some.inj
    ((hread hn (Int.min_le_left n m) (Int.le_max_left n m)).symm.trans
      (hread hm (Int.min_le_right n m) (Int.le_max_right n m)))

/-! ## Writing -/

lemma isDigits_toDigits (n : Nat) : IsDigits (Nat.toDigits 10 n) n :=
  digits?_eq_some_iff.1 (digits?_toDigits n)

/-- An integer is written as one of its numerals. -/
lemma isNumeral_toString (n : Int) : IsNumeral (toString n).toList n := by
  cases n with
  | ofNat n =>
    have hchars : (toString (Int.ofNat n)).toList = Nat.toDigits 10 n := Nat.toList_repr
    rw [hchars]
    exact .unsigned (isDigits_toDigits n)
  | negSucc n =>
    have hchars : (toString (Int.negSucc n)).toList = '-' :: Nat.toDigits 10 (n + 1) := by
      show ("-" ++ (n + 1).repr).toList = _
      rw [String.toList_append, Nat.toList_repr]
      rfl
    rw [hchars]
    exact .minus (isDigits_toDigits (n + 1))

/-- A signed integer of 64 bits. -/
def IsInt64 (n : Int) : Prop := -9223372036854775808 ≤ n ∧ n ≤ 9223372036854775807

/-- A signed integer of 64 bits is read from its numerals. -/
lemma readInt64?_eq_some_iff {n : Int} {s : String} :
    readInt64? s = some n ↔ IsNumeral s.toList n ∧ IsInt64 n :=
  readInt?_eq_some_iff

/-- A signed integer of 64 bits is read from what it is written as. -/
lemma readInt64?_toString {n : Int} (h : IsInt64 n) : readInt64? (toString n) = some n :=
  readInt64?_eq_some_iff.2 ⟨isNumeral_toString n, h⟩

end Number
end Assessment
