import Assessment.Proofs.Number.Exact
import Assessment.Proofs.Usage.FieldName

/-!
# Texts of numbers

Blanks are not part of the grammar of numbers, so a text that is read as a number is trimmed already
(`Number.trim_of_read?`).  Where the text that a number is written as reads back
(`Script.ReadsBack`), it may therefore be trimmed on its way through the variables of a step, and the
number is found again (`Exact.number?_write`).
-/

namespace Assessment

/-! ## Blanks -/

/-- Blanks have no upper case. -/
lemma Text.toLower_of_isBlank {c : Char} (h : isBlank c = true) : c.toLower = c := by
  unfold Char.toLower
  rw [dif_neg]
  rintro ⟨hlow, hhigh⟩
  have hlow : 65 ≤ c.toNat := UInt32.le_iff_toNat_le.1 hlow
  have hhigh : c.toNat ≤ 90 := UInt32.le_iff_toNat_le.1 hhigh
  simp only [isBlank, Bool.or_eq_true, Bool.and_eq_true, decide_eq_true_eq, beq_iff_eq] at h
  omega

namespace Number

open Text (isBlank)

/-- A word in any case has no blanks. -/
lemma not_isBlank_of_word {cs word : List Char} (hword : word.any isBlank = false)
    (h : cs.map Char.toLower = word) : ∀ c ∈ cs, isBlank c = false := by
  intro c hc
  cases hblank : isBlank c with
  | false => rfl
  | true =>
    have hmem : c.toLower ∈ word := h ▸ List.mem_map_of_mem hc
    rw [Text.toLower_of_isBlank hblank] at hmem
    exact absurd hblank (List.any_eq_false.1 hword c hmem)

lemma not_isBlank_of_digits? {cs : List Char} (h : digits? cs ≠ none) :
    ∀ c ∈ cs, isBlank c = false := by
  obtain ⟨n, hn⟩ := Option.ne_none_iff_exists'.1 h
  exact fun c hc => not_isBlank_of_isDigit ((digits?_eq_some_iff.1 hn).digits c hc)

lemma not_isBlank_of_exponent? {cs : List Char} {e : Int} (h : exponent? cs = some e) :
    ∀ c ∈ cs, isBlank c = false := by
  unfold exponent? at h
  split at h
  · simp
  · rename_i c rest
    split at h
    · rename_i hc
      have hc : isBlank c = false := by
        rw [Bool.or_eq_true, beq_iff_eq, beq_iff_eq] at hc
        obtain rfl | rfl := hc <;> decide
      refine List.forall_mem_cons.2 ⟨hc, ?_⟩
      split at h
      · exact List.forall_mem_cons.2 ⟨by decide, not_isBlank_of_digits? fun hn => by simp [hn] at h⟩
      · exact List.forall_mem_cons.2 ⟨by decide, not_isBlank_of_digits? fun hn => by simp [hn] at h⟩
      · exact not_isBlank_of_digits? fun hn => by simp [hn] at h
    · cases h

/-- Digits at the beginning have no blanks, so there are none if there are none after them. -/
lemma not_isBlank_of_dropWhile {cs : List Char}
    (h : ∀ c ∈ cs.dropWhile Char.isDigit, isBlank c = false) : ∀ c ∈ cs, isBlank c = false := by
  intro c hc
  rw [← cs.takeWhile_append_dropWhile (p := Char.isDigit)] at hc
  obtain hc | hc := List.mem_append.1 hc
  · exact not_isBlank_of_isDigit (List.all_eq_true.1 List.all_takeWhile c hc)
  · exact h c hc

lemma not_isBlank_of_decimal? {cs : List Char} {d : Nat × Int} (h : decimal? cs = some d) :
    ∀ c ∈ cs, isBlank c = false := by
  refine not_isBlank_of_dropWhile ?_
  unfold decimal? at h
  simp only at h
  split at h
  · -- after the digits there is a point
    rename_i more hpoint
    split at h
    · cases h
    · obtain ⟨e, he, -⟩ := Option.map_eq_some_iff.1 h
      rw [hpoint]
      exact List.forall_mem_cons.2
        ⟨by decide, not_isBlank_of_dropWhile (not_isBlank_of_exponent? he)⟩
  · split at h
    · cases h
    · obtain ⟨e, he, -⟩ := Option.map_eq_some_iff.1 h
      exact not_isBlank_of_exponent? he

lemma not_isBlank_of_unsigned? {negative : Bool} {cs : List Char} {l : Literal}
    (h : unsigned? negative cs = some l) : ∀ c ∈ cs, isBlank c = false := by
  unfold unsigned? at h
  simp only at h
  split at h
  · rename_i hword
    rw [Bool.or_eq_true, beq_iff_eq, beq_iff_eq] at hword
    obtain hword | hword := hword <;> exact not_isBlank_of_word (by decide) hword
  · split at h
    · rename_i hword
      exact not_isBlank_of_word (by decide) (beq_iff_eq.1 hword)
    · obtain ⟨d, hd, -⟩ := Option.map_eq_some_iff.1 h
      exact not_isBlank_of_decimal? hd

/-- Blanks are not part of a number. -/
lemma not_isBlank_of_read? {s : String} {l : Literal} (h : Literal.read? s = some l) :
    ∀ c ∈ s.toList, isBlank c = false := by
  unfold Literal.read? at h
  split at h
  · rename_i rest hs
    rw [hs]
    exact List.forall_mem_cons.2 ⟨by decide, not_isBlank_of_unsigned? h⟩
  · rename_i rest hs
    rw [hs]
    exact List.forall_mem_cons.2 ⟨by decide, not_isBlank_of_unsigned? h⟩
  · exact not_isBlank_of_unsigned? h

/-- The text of a number is trimmed. -/
lemma trim_of_read? {s : String} {l : Literal} (h : Literal.read? s = some l) : Text.trim s = s :=
  Text.trim_of_not_isBlank (not_isBlank_of_read? h)

/-- An empty text is no number. -/
lemma ne_empty_of_read? {s : String} {l : Literal} (h : Literal.read? s = some l) : s ≠ "" := by
  rintro rfl
  have hnone : Literal.read? "" = none := by decide +kernel
  cases hnone.symm.trans h

end Number

/-! ## Numbers that read back -/

/-- The text that a number is written as is read as that number. -/
def Script.ReadsBack (script : Script) (r : ℚ) : Prop :=
  (Scalar.read? (script.write r) : Option (Exact script)) = some (.rational r)

example : Script.decimal.ReadsBack (-1 / 2) := by
  show _ = _
  decide +kernel

namespace Script.ReadsBack

variable {script : Script} {r : ℚ}

lemma exists_literal (h : script.ReadsBack r) : ∃ l, Number.Literal.read? (script.write r) = some l := by
  obtain ⟨l, hl, -⟩ := Option.map_eq_some_iff.1 h
  exact ⟨l, hl⟩

lemma trim_write (h : script.ReadsBack r) : Text.trim (script.write r) = script.write r := by
  obtain ⟨l, hl⟩ := h.exists_literal
  exact Number.trim_of_read? hl

lemma write_ne_empty (h : script.ReadsBack r) : script.write r ≠ "" := by
  obtain ⟨l, hl⟩ := h.exists_literal
  exact Number.ne_empty_of_read? hl

/-- A number that reads back is found again in the variable of a comment. -/
lemma number?_write (h : script.ReadsBack r) (field : String) :
    Ruling.number? field (script.write r) = .ok (Exact.rational r : Exact script) := by
  have hread : (Scalar.read? (script.write r) : Option (Exact script)) = some (.rational r) := h
  simp only [Ruling.number?, h.trim_write, hread]
  rfl

end Script.ReadsBack
end Assessment
