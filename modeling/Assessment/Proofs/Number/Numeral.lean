import Assessment.Proofs.Number.Integer
import Mathlib.Data.List.Induction
import Mathlib.Tactic.IntervalCases

/-!
# Numerals and zeros in front of them

Reading a number is more generous than writing it: zeros in front of a numeral are read over.  They are
the only freedom there is.  A run of ASCII digits is the numeral of its value with some zeros in front
(`Number.isDigits_iff_padded`), so that what a numeral is read as and what was written differ in these
zeros at most.
-/

namespace Assessment
namespace Number

/-- The numeral of a number with zeros in front. -/
def paddedDigits (zeros n : Nat) : List Char := List.replicate zeros '0' ++ Nat.toDigits 10 n

lemma paddedDigits_ne_nil (zeros n : Nat) : paddedDigits zeros n ≠ [] :=
  List.append_ne_nil_of_right_ne_nil _ Nat.toDigits_ne_nil

lemma isDigit_of_mem_paddedDigits {zeros n : Nat} {c : Char} (h : c ∈ paddedDigits zeros n) :
    c.isDigit = true := by
  rcases List.mem_append.1 h with hc | hc
  · obtain rfl := List.eq_of_mem_replicate hc
    decide
  · exact Nat.isDigit_of_mem_toDigits (by decide) (by decide) hc

/-- An ASCII digit is the numeral of its value. -/
lemma toDigits_of_isDigit {c : Char} (h : c.isDigit = true) :
    Nat.toDigits 10 (c.toNat - '0'.toNat) = [c] ∧ c.toNat - '0'.toNat < 10 := by
  simp only [Char.isDigit, Bool.and_eq_true, decide_eq_true_eq, UInt32.le_iff_toNat_le] at h
  have hlow : 48 ≤ c.toNat := h.1
  have hhigh : c.toNat ≤ 57 := h.2
  have hc : Char.ofNat c.toNat = c := Char.ofNat_toNat c
  revert hc
  generalize c.toNat = n at hlow hhigh
  rintro rfl
  interval_cases n <;> decide

/-- A run of digits is the numeral of its value with zeros in front. -/
lemma exists_zeros_of_isDigit {cs : List Char} (hne : cs ≠ [])
    (h : ∀ c ∈ cs, c.isDigit = true) :
    ∃ zeros, cs = paddedDigits zeros (Nat.ofDigitChars 10 cs 0) := by
  unfold paddedDigits
  induction cs using List.reverseRecOn with
  | nil => exact absurd rfl hne
  | append_singleton init c ih =>
    obtain ⟨hc, hten⟩ := toDigits_of_isDigit (h c (by simp))
    have hvalue : Nat.ofDigitChars 10 (init ++ [c]) 0 =
        10 * Nat.ofDigitChars 10 init 0 + (c.toNat - '0'.toNat) := by
      rw [Nat.ofDigitChars_append, Nat.ofDigitChars_cons, Nat.ofDigitChars_nil]
    rw [hvalue]
    cases init with
    | nil => exact ⟨0, by rw [Nat.ofDigitChars_nil, Nat.mul_zero, Nat.zero_add, hc]; rfl⟩
    | cons d rest =>
      obtain ⟨zeros, hinit⟩ := ih (List.cons_ne_nil d rest)
        fun c' hc' => h c' (List.mem_append_left _ hc')
      generalize Nat.ofDigitChars 10 (d :: rest) 0 = n at hinit
      rw [hinit, List.append_assoc]
      -- a run of zeros alone is the numeral `0` with one zero less in front
      obtain rfl | hpos := Nat.eq_zero_or_pos n
      · refine ⟨zeros + 1, ?_⟩
        rw [Nat.toDigits_zero, Nat.mul_zero, Nat.zero_add, hc, List.replicate_succ',
          List.append_assoc]
      · refine ⟨zeros, ?_⟩
        rw [← Nat.toDigits_append_toDigits (by decide) hpos hten, hc]

/-- The digits that denote a number are its numeral with any number of zeros in front. -/
lemma isDigits_iff_padded {cs : List Char} {n : Nat} :
    IsDigits cs n ↔ ∃ zeros, cs = paddedDigits zeros n := by
  constructor
  · rintro ⟨hne, hdigits, rfl⟩
    exact exists_zeros_of_isDigit hne hdigits
  · rintro ⟨zeros, rfl⟩
    refine ⟨paddedDigits_ne_nil zeros n, fun c hc => isDigit_of_mem_paddedDigits hc, ?_⟩
    rw [paddedDigits, Nat.ofDigitChars_append, Nat.ofDigitChars_replicate_zero, Nat.mul_zero,
      Nat.ofDigitChars_ten_toDigits]

/-- Without a sign, the texts that are read as an unsigned number are its numerals, up to the limit. -/
lemma readNat?_eq_some_iff {limit n : Nat} {s : String} (hsign : '+' ∉ s.toList) :
    readNat? limit s = some n ↔ n ≤ limit ∧ ∃ zeros, s.toList = paddedDigits zeros n := by
  unfold readNat?
  split
  · rename_i rest hs
    rw [hs] at hsign
    exact absurd List.mem_cons_self hsign
  · rw [Option.filter_eq_some_iff, digits?_eq_some_iff, isDigits_iff_padded, decide_eq_true_eq,
      and_comm]

end Number
end Assessment
