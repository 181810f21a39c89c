/-!
# Reading integers

An integer is written as ASCII digits after an optional sign.  Readers are bounded: a numeral beyond
the bound is refused and never wrapped.  Writing is the decimal numeral of the standard library, and
`readNat?_repr` says that it reads back.
-/

namespace Assessment
namespace Number

/-- The value of a nonempty run of ASCII digits. -/
def digits? (cs : List Char) : Option Nat :=
  if cs.isEmpty || !cs.all Char.isDigit then none else some (Nat.ofDigitChars 10 cs 0)

/-- The unsigned integer written in `s`, with an optional plus sign, when it is at most `limit`. -/
def readNat? (limit : Nat) (s : String) : Option Nat :=
  let cs := match s.toList with
    | '+' :: rest => rest
    | cs => cs
  (digits? cs).filter (· ≤ limit)

/-- The integer written in `s`, with an optional sign, when it lies between `least` and `most`. -/
def readInt? (least most : Int) (s : String) : Option Int :=
  let value := match s.toList with
    | '-' :: rest => (digits? rest).map fun n => -(n : Int)
    | '+' :: rest => (digits? rest).map fun n => (n : Int)
    | cs => (digits? cs).map fun n => (n : Int)
  value.filter fun n => least ≤ n && n ≤ most

/-- The largest number of 32 bits. -/
def max32 : Nat := 4294967295

/-- The largest number of 64 bits. -/
def max64 : Nat := 18446744073709551615

/-- A signed integer of 64 bits. -/
def readInt64? (s : String) : Option Int :=
  readInt? (-9223372036854775808) 9223372036854775807 s

theorem digits?_toDigits (n : Nat) : digits? (Nat.toDigits 10 n) = some n := by
  have hd : (Nat.toDigits 10 n).all Char.isDigit = true := by
    rw [List.all_eq_true]
    exact fun c hc => Nat.isDigit_of_mem_toDigits (by decide) (by decide) hc
  simp [digits?, Nat.toDigits_ne_nil, hd]

/-- A numeral within the limit reads back. -/
theorem readNat?_repr {limit n : Nat} (h : n ≤ limit) : readNat? limit n.repr = some n := by
  have hplus : ∀ rest, Nat.toDigits 10 n ≠ '+' :: rest := by
    intro rest heq
    have : ('+' : Char).isDigit := by
      apply Nat.isDigit_of_mem_toDigits (b := 10) (n := n) (by decide) (by decide)
      simp [heq]
    exact absurd this (by decide)
  unfold readNat?
  rw [Nat.toList_repr]
  split
  · exact absurd ‹_› (hplus _)
  · simp [digits?_toDigits, Option.filter, h]

end Number
end Assessment
