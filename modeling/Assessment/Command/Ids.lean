import Assessment.Store.Supply

/-!
# The ids of the program

The program draws its ids from a counter.  What is drawn is written in hexadecimal with zeros in front:
the digits can be read back whatever zeros they are filled with (`Counter.value_padded`), so no id is
drawn twice, and digits are no colons.
-/

namespace Assessment

namespace Counter

/-- A number in hexadecimal, filled with zeros up to a width. -/
def padded (width n : Nat) : String :=
  let digits := Nat.toDigits 16 n
  String.ofList (List.replicate (width - digits.length) '0' ++ digits)

/-! ## Reading a number back -/

/-- The value of a hexadecimal digit. -/
def digitValue (c : Char) : Nat := if c.toNat < 58 then c.toNat - 48 else c.toNat - 87

/-- The number that hexadecimal digits say. -/
def value (cs : List Char) : Nat := cs.foldl (fun value c => 16 * value + digitValue c) 0

theorem digitValue_digitChar : ∀ n < 16, digitValue n.digitChar = n := by decide

theorem value_toDigits (n : Nat) : value (Nat.toDigits 16 n) = n := by
  induction n using Nat.base_induction 16 (by decide) with
  | single m hm => simp [Nat.toDigits_of_lt_base hm, value, digitValue_digitChar m hm]
  | digit m k hk hm ih =>
    rw [← Nat.toDigits_append_toDigits (by decide) hm hk, Nat.toDigits_of_lt_base hk, value,
      List.foldl_append]
    rw [value] at ih
    simp [ih, digitValue_digitChar k hk]

/-- Zeros in front do not count. -/
theorem value_zeros (n : Nat) (cs : List Char) : value (List.replicate n '0' ++ cs) = value cs := by
  induction n with
  | zero => rfl
  | succ n ih =>
    rw [List.replicate_succ, List.cons_append]
    exact ih

theorem value_padded (width n : Nat) : value (padded width n).toList = n := by
  rw [padded, String.toList_ofList, value_zeros, value_toDigits]

/-! ## Digits are no colons -/

theorem colon_notMem_toDigits (n : Nat) : ':' ∉ Nat.toDigits 16 n := by
  have hdigit : ∀ k < 16, k.digitChar ≠ ':' := by decide
  induction n using Nat.base_induction 16 (by decide) with
  | single m hm =>
    rw [Nat.toDigits_of_lt_base hm, List.mem_singleton]
    exact (hdigit m hm).symm
  | digit m k hk hm ih =>
    rw [← Nat.toDigits_append_toDigits (by decide) hm hk, Nat.toDigits_of_lt_base hk,
      List.mem_append, List.mem_singleton]
    exact not_or.2 ⟨ih, (hdigit k hk).symm⟩

theorem colon_notMem_padded (width n : Nat) : ':' ∉ (padded width n).toList := by
  rw [padded, String.toList_ofList, List.mem_append]
  exact not_or.2 ⟨fun h => absurd (List.eq_of_mem_replicate h) (by decide), colon_notMem_toDigits n⟩

/-! ## Ids -/

/-- The id of a row in its five groups, with all of the number in the last one. -/
def rowId (n : Nat) : String := "00000000-0000-4000-8000-" ++ padded 12 n

theorem rowId_inj {m n : Nat} (h : rowId m = rowId n) : m = n := by
  have hpadded := congrArg (fun s => value s.toList) ((String.append_right_inj _).1 h)
  simpa only [value_padded] using hpadded

theorem colon_notMem_rowId (n : Nat) : ':' ∉ (rowId n).toList := by
  have hlead : ':' ∉ "00000000-0000-4000-8000-".toList := by decide +kernel
  unfold rowId
  rw [String.toList_append, List.mem_append]
  exact not_or.2 ⟨hlead, colon_notMem_padded 12 n⟩

end Counter

instance : IdSource where
  rowId := Counter.rowId
  token := Counter.padded 32
  rowId_inj := Counter.rowId_inj
  colon_notMem_rowId := Counter.colon_notMem_rowId
  colon_notMem_token := Counter.colon_notMem_padded 32

end Assessment
