import Assessment.Proofs.Number.Integer
import Assessment.Proofs.Number.Lossless
import Assessment.Proofs.Number.Reading
import Mathlib.Data.List.DropRight

/-!
# Normal forms of submitted values

A value that a form submits is brought into the normal form of its kind or refused.  A step keeps the
normal form, and what is submitted later, or submitted again in a replay, is compared with it letter by
letter, so bringing a normal form into normal form has to change nothing.

Main result (`FieldKind.clean_normal_forms`): this holds of every kind but cleaned HTML, where one pass
may put a script element together.  For numbers it depends on their texts, which have to be read as the
numbers that they were written from.  For whole numbers the normal form is canonical: two texts have the
same one exactly when both are numerals of one integer of 64 bits, and any other text is refused.
-/

namespace Assessment

/-! ## Trimmed texts -/

namespace Text

/-- What is left of a trimmed text begins with no blank. -/
lemma dropWhile_trimChars (cs : List Char) : (trimChars cs).dropWhile isBlank = trimChars cs := by
  have hlead : trimChars cs <+: cs.dropWhile isBlank := List.rdropWhile_prefix isBlank _
  refine List.dropWhile_eq_self_iff.2 fun hne => ?_
  rw [hlead.getElem hne]
  exact List.dropWhile_get_zero_not isBlank cs (hne.trans_le hlead.length_le)

/-- Trimming a trimmed text changes nothing. -/
@[simp] lemma trim_trim (s : String) : trim (trim s) = trim s := by
  have hchars : trimChars (trimChars s.toList) = trimChars s.toList := by
    calc trimChars (trimChars s.toList)
        = ((trimChars s.toList).dropWhile isBlank).rdropWhile isBlank := rfl
      _ = (trimChars s.toList).rdropWhile isBlank := by rw [dropWhile_trimChars]
      _ = trimChars s.toList := List.rdropWhile_idempotent isBlank _
  rw [trim, toList_trim, hchars, trim]

end Text

/-! ## Numerals -/

namespace Number

/-- The numeral of an integer is trimmed. -/
lemma IsNumeral.not_isBlank {cs : List Char} {n : Int} (h : IsNumeral cs n) :
    ∀ c ∈ cs, Text.isBlank c = false := by
  cases h with
  | unsigned h => exact fun c hc => not_isBlank_of_isDigit (h.digits c hc)
  | plus h =>
    exact List.forall_mem_cons.2 ⟨by decide, fun c hc => not_isBlank_of_isDigit (h.digits c hc)⟩
  | minus h =>
    exact List.forall_mem_cons.2 ⟨by decide, fun c hc => not_isBlank_of_isDigit (h.digits c hc)⟩

lemma trim_toString (n : Int) : Text.trim (toString n) = toString n :=
  Text.trim_of_not_isBlank (isNumeral_toString n).not_isBlank

lemma toString_injective {n m : Int} (h : toString n = toString m) : n = m :=
  (isNumeral_toString n).unique (h ▸ isNumeral_toString m)

end Number

/-! ## Normal forms -/

namespace FieldKind

open Number (IsNumeral IsInt64)

variable {ν : Type} [Scalar ν] {kind : FieldKind} {field raw v : String}

lemma clean_eq_ok_iff : kind.clean ν field raw = .ok v ↔ kind.normal? ν raw = some v := by
  unfold clean
  cases kind.normal? ν raw <;> simp

lemma clean_eq_error_iff :
    kind.clean ν field raw = .error (.badValue field kind.name raw) ↔ kind.normal? ν raw = none := by
  unfold clean
  cases kind.normal? ν raw <;> simp

/-- The normal form of a whole number is the numeral of the integer that the text denotes. -/
lemma normal?_int_eq_some_iff :
    int.normal? ν raw = some v ↔
      ∃ n, (IsNumeral (Text.trim raw).toList n ∧ IsInt64 n) ∧ toString n = v := by
  show (Number.readInt64? (Text.trim raw)).map toString = some v ↔ _
  simp only [Option.map_eq_some_iff, Number.readInt64?_eq_some_iff]

/-- A number is its own normal form if it is read from its text. -/
lemma normal?_number_plain {x : ν} (hfinite : Scalar.isFinite x = true) (hkept : Scalar.Kept x) :
    number.normal? ν (Scalar.plain x) = some (Scalar.plain x) := by
  obtain ⟨l, hl, -⟩ := Option.map_eq_some_iff.1 hkept
  show ((Scalar.read? (Text.trim (Scalar.plain x)) : Option ν).filter Scalar.isFinite).map
    Scalar.plain = _
  rw [Number.trim_of_read? hl, hkept, Option.filter_some, if_pos hfinite, Option.map_some]

/-- A normal form is its own normal form. -/
lemma normal?_of_normal? (hkind : kind ≠ cleanHtml)
    (hnumbers : kind = number → ∀ x : ν, Scalar.isFinite x = true → Scalar.Kept x)
    (h : kind.normal? ν raw = some v) : kind.normal? ν v = some v := by
  cases kind with
  | bool =>
    simp only [normal?] at h
    split at h
    · cases h
      exact normal?_bool_flag ν true
    · split at h
      · cases h
        exact normal?_bool_flag ν false
      · cases h
  | int =>
    obtain ⟨n, ⟨-, hn⟩, rfl⟩ := normal?_int_eq_some_iff.1 h
    refine normal?_int_eq_some_iff.2 ⟨n, ⟨?_, hn⟩, rfl⟩
    rw [Number.trim_toString]
    exact Number.isNumeral_toString n
  | number =>
    obtain ⟨x, hx, rfl⟩ := Option.map_eq_some_iff.1 h
    obtain ⟨-, hfinite⟩ := Option.filter_eq_some_iff.1 hx
    exact normal?_number_plain hfinite (hnumbers rfl x hfinite)
  | text =>
    cases h
    simp only [normal?, Text.trim_trim]
  | cleanHtml => exact absurd rfl hkind
  | sequence =>
    simp only [normal?] at h
    split at h
    · rename_i hlist
      cases h
      simp only [normal?, Text.trim_trim, hlist, if_true]
    · cases h

/-- Bringing values into normal form is idempotent for every kind but cleaned HTML, where numbers have
to be read from their texts.  Two texts have the same normal form as a whole number exactly when both,
once trimmed, are an optional sign and at least one ASCII digit and denote the same integer of 64 bits;
a text that is no such numeral is refused. -/
theorem clean_normal_forms (ν : Type) [Scalar ν] :
    (∀ kind : FieldKind, kind ≠ cleanHtml →
      (kind = number → ∀ x : ν, Scalar.isFinite x = true → Scalar.Kept x) →
      ∀ field raw v, kind.clean ν field raw = .ok v → ∀ field', kind.clean ν field' v = .ok v) ∧
    (∀ field field' raw raw',
      (∃ v, int.clean ν field raw = .ok v ∧ int.clean ν field' raw' = .ok v) ↔
        ∃ n, IsInt64 n ∧ IsNumeral (Text.trim raw).toList n ∧ IsNumeral (Text.trim raw').toList n) ∧
    ∀ field raw, int.clean ν field raw = .error (.badValue field "int" raw) ↔
      ¬ ∃ n, IsInt64 n ∧ IsNumeral (Text.trim raw).toList n := by
  refine ⟨fun kind hkind hnumbers field raw v h field' => ?_, fun field field' raw raw' => ?_,
    fun field raw => ?_⟩
  · exact clean_eq_ok_iff.2 (normal?_of_normal? hkind hnumbers (clean_eq_ok_iff.1 h))
  · simp only [clean_eq_ok_iff, normal?_int_eq_some_iff]
    constructor
    · rintro ⟨v, ⟨n, ⟨hraw, hn⟩, rfl⟩, m, ⟨hraw', -⟩, heq⟩
      obtain rfl := Number.toString_injective heq
      exact ⟨m, hn, hraw, hraw'⟩
    · rintro ⟨n, hn, hraw, hraw'⟩
      exact ⟨toString n, ⟨n, ⟨hraw, hn⟩, rfl⟩, n, ⟨hraw', hn⟩, rfl⟩
  · refine clean_eq_error_iff.trans ?_
    rw [Option.eq_none_iff_forall_ne_some]
    constructor
    · rintro h ⟨n, hn, hraw⟩
      exact h (toString n) (normal?_int_eq_some_iff.2 ⟨n, ⟨hraw, hn⟩, rfl⟩)
    · intro h v hv
      obtain ⟨n, ⟨hraw, hn⟩, -⟩ := normal?_int_eq_some_iff.1 hv
      exact h ⟨n, hn, hraw⟩

/-- Two numerals of seven, one with a sign and zeros in front; a text that is written like a number
is not its own normal form, but its normal form is. -/
theorem clean_normal_forms_example :
    (∃ v, int.clean (Exact Script.fraction) "answer" " +007" = .ok v ∧
      int.clean (Exact Script.fraction) "answer" "7 " = .ok v) ∧
    number.clean (Exact Script.fraction) "mark" " 0.50" = .ok "0.5" ∧
    number.clean (Exact Script.fraction) "mark" "0.5" = .ok "0.5" := by
  obtain ⟨hidempotent, hsame, -⟩ := clean_normal_forms (Exact Script.fraction)
  have hcleaned : number.clean (Exact Script.fraction) "mark" " 0.50" = .ok "0.5" := by
    decide +kernel
  have hsigned : IsNumeral (Text.trim " +007").toList 7 := by
    have htext : (Text.trim " +007").toList = '+' :: ['0', '0', '7'] := by decide +kernel
    rw [htext]
    exact .plus ⟨by decide, by simp, by decide⟩
  have hbare : IsNumeral (Text.trim "7 ").toList 7 := by
    have htext : (Text.trim "7 ").toList = ['7'] := by decide +kernel
    rw [htext]
    exact .unsigned ⟨by decide, by simp, by decide⟩
  refine ⟨(hsame _ _ _ _).2 ⟨7, ⟨by decide, by decide⟩, hsigned, hbare⟩, hcleaned, ?_⟩
  exact hidempotent number (by decide) (fun _ => Exact.lossless.of_finite) _ _ _ hcleaned "mark"

end FieldKind
end Assessment
