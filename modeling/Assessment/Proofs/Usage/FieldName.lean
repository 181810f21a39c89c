import Assessment.Proofs.Number.Integer
import Assessment.Usage.Submission

/-!
# Names and values of form fields

The form fields of a usage share one flat name space.  A field name is the stem of a slot followed by a
name of the slot's own: `q`, the usage, `:`, the slot in decimal, `_`, the name.  Nothing separates the
two halves but the shape of the first one, so what has to be proved is that they can be told apart
again: the stem is read off every name that is built on it, whatever comes after it
(`Batch.fieldSlot?_stemOf`), and a name determines both its slot and what comes after the stem
(`Attempt.stemOf_append_inj`).  The `_` ends the digits of the slot: slots 1 and 11 do not meet.

The two values that the system writes itself, a number of steps and a flag, are their own normal forms
(`FieldKind.normal?_int_repr`, `FieldKind.normal?_bool_flag`).
-/

namespace Assessment

/-! ## Values -/

namespace Text

/-- A text without blanks is trimmed. -/
lemma trim_of_not_isBlank {s : String} (h : ∀ c ∈ s.toList, isBlank c = false) : trim s = s := by
  have hkeep : ∀ {cs : List Char}, (∀ c ∈ cs, isBlank c = false) → cs.dropWhile isBlank = cs := by
    intro cs hcs
    cases cs with
    | nil => rfl
    | cons c rest => rw [List.dropWhile_cons_of_neg (by simp [hcs c List.mem_cons_self])]
  unfold trim trimChars
  rw [hkeep h, hkeep fun c hc => h c (List.mem_reverse.1 hc), List.reverse_reverse,
    String.ofList_toList]

/-- What comes after a prefix is what it was put before. -/
lemma afterPrefix?_eq_some_iff {lead s rest : String} :
    afterPrefix? lead s = some rest ↔ s = lead ++ rest := by
  unfold afterPrefix?
  split
  · rename_i hlead
    obtain ⟨more, hmore⟩ := List.isPrefixOf_iff_prefix.1 hlead
    rw [← hmore, List.drop_left, Option.some_inj, ← String.toList_inj, ← String.toList_inj,
      String.toList_ofList, String.toList_append, ← hmore, List.append_cancel_left_eq]
  · rename_i hlead
    refine ⟨nofun, fun heq => absurd ?_ hlead⟩
    rw [heq, String.toList_append]
    exact List.isPrefixOf_iff_prefix.2 (List.prefix_append _ _)

end Text

namespace Number

/-- The characters of a decimal numeral are ASCII digits. -/
lemma isDigit_of_mem_repr {n : Nat} {c : Char} (h : c ∈ n.repr.toList) : c.isDigit = true := by
  rw [Nat.toList_repr] at h
  exact Nat.isDigit_of_mem_toDigits (by decide) (by decide) h

/-- An ASCII digit is no blank. -/
lemma not_isBlank_of_isDigit {c : Char} (h : c.isDigit = true) : Text.isBlank c = false := by
  simp only [Char.isDigit, Bool.and_eq_true, decide_eq_true_eq, UInt32.le_iff_toNat_le] at h
  have hlow : 48 ≤ c.toNat := h.1
  have hhigh : c.toNat ≤ 57 := h.2
  simp only [Text.isBlank, Bool.or_eq_false_iff, Bool.and_eq_false_iff, decide_eq_false_iff_not,
    beq_eq_false_iff_ne]
  omega

end Number

namespace FieldKind

variable (ν : Type) [Scalar ν]

/-- A number of steps in decimal is in normal form. -/
lemma normal?_int_repr {n : Nat} (h : n ≤ 9223372036854775807) :
    int.normal? ν n.repr = some n.repr := by
  have htrim : Text.trim n.repr = n.repr :=
    Text.trim_of_not_isBlank fun c hc => Number.not_isBlank_of_isDigit (Number.isDigit_of_mem_repr hc)
  have hrepr : toString (n : Int) = n.repr := rfl
  have hread : Number.readInt64? n.repr = some (n : Int) := by
    rw [← hrepr]
    exact Number.readInt64?_toString ⟨by omega, by omega⟩
  simp only [normal?, htrim, hread, Option.map_some, hrepr]

/-- A flag as it is written is in normal form. -/
lemma normal?_bool_flag (flagged : Bool) :
    bool.normal? ν (if flagged then "1" else "0") = some (if flagged then "1" else "0") := by
  cases flagged <;> rfl

end FieldKind

/-! ## Names -/

namespace Attempt

/-- The names that a question which takes every field does take. -/
lemma isReserved_eq_false_iff {name : String} :
    isReserved name = false ↔ ∃ c rest, name.toList = c :: rest ∧ c ∉ ['-', '_', ':'] := by
  unfold isReserved
  cases name.toList with
  | nil => simp
  | cons c rest => simp [and_assoc]

lemma toList_stemOf_append (usageId : String) (slot : Nat) (name : String) :
    (stemOf usageId slot ++ name).toList =
      'q' :: (usageId.toList ++ ':' :: (slot.repr.toList ++ '_' :: name.toList)) := by
  simp [stemOf, String.toList_append]

end Attempt

namespace Batch

variable {usageId : String}

/-- The field names that name a usage and a slot, in digits of any script. -/
lemma fieldOwner?_eq_some_iff {field : String} {usage slot : List Char} :
    fieldOwner? field = some (usage, slot) ↔
      (usage ≠ [] ∧ ':' ∉ usage) ∧ (slot ≠ [] ∧ ∀ c ∈ slot, Text.isDigit c = true) ∧
        ∃ rest, field.toList = 'q' :: (usage ++ ':' :: (slot ++ '_' :: rest)) := by
  have hbar : Text.isDigit '_' = false := rfl
  constructor
  · intro h
    unfold fieldOwner? at h
    split at h
    · rename_i rest hfield
      simp only at h
      split at h
      · rename_i more hmore
        split at h
        · cases h
        · rename_i hnonempty
          rw [Bool.not_eq_true, Bool.or_eq_false_iff, List.isEmpty_eq_false_iff,
            List.isEmpty_eq_false_iff] at hnonempty
          split at h
          · rename_i hhead
            obtain ⟨after, hafter⟩ := List.head?_eq_some_iff.1 (beq_iff_eq.1 hhead)
            cases h
            refine ⟨⟨hnonempty.1, fun hcolon => ?_⟩, ⟨hnonempty.2, fun c hc => ?_⟩, after, ?_⟩
            · simpa using List.all_eq_true.1 List.all_takeWhile ':' hcolon
            · exact List.all_eq_true.1 List.all_takeWhile c hc
            · rw [hfield, ← hafter, List.takeWhile_append_dropWhile, ← hmore,
                List.takeWhile_append_dropWhile]
          · cases h
      · cases h
    · cases h
  · rintro ⟨⟨husage, hcolon⟩, ⟨hslot, hdigits⟩, rest, hfield⟩
    have hid : ∀ c ∈ usage, (c != ':') = true := fun c hc => by
      simp only [bne_iff_ne, ne_eq]
      rintro rfl
      exact hcolon hc
    unfold fieldOwner?
    rw [hfield]
    simp [List.takeWhile_append_of_pos hid, List.dropWhile_append_of_pos hid,
      List.takeWhile_append_of_pos hdigits, List.dropWhile_append_of_pos hdigits, husage, hslot,
      hbar]

/-- The usage and the slot are read off a name that is built on their stem. -/
lemma fieldOwner?_stemOf (hne : usageId ≠ "") (hcolon : ':' ∉ usageId.toList) (slot : Nat)
    (name : String) :
    fieldOwner? (Attempt.stemOf usageId slot ++ name) =
      some (usageId.toList, slot.repr.toList) := by
  have husage : usageId.toList ≠ [] := fun h => hne (String.toList_eq_nil_iff.1 h)
  have hslot : slot.repr.toList ≠ [] := by
    rw [Nat.toList_repr]
    exact Nat.toDigits_ne_nil
  exact fieldOwner?_eq_some_iff.2 ⟨⟨husage, hcolon⟩,
    ⟨hslot, fun c hc => Text.isDigit_of_ascii (Number.isDigit_of_mem_repr hc)⟩, name.toList,
    Attempt.toList_stemOf_append usageId slot name⟩

/-- A name that does not begin as the names of form fields do belongs to no slot. -/
lemma fieldSlot?_of_head?_ne {field : String} (h : field.toList.head? ≠ some 'q') :
    fieldSlot? usageId field = none := by
  unfold fieldSlot? fieldOwner?
  split
  · rename_i rest hfield
    rw [hfield] at h
    exact absurd rfl h
  · rfl

/-- The slot is read off a name that is built on its stem. -/
lemma fieldSlot?_stemOf (hne : usageId ≠ "") (hcolon : ':' ∉ usageId.toList) {slot : Nat}
    (hslot : slot ≤ Number.max32) (name : String) :
    fieldSlot? usageId (Attempt.stemOf usageId slot ++ name) = some slot := by
  rw [fieldSlot?, fieldOwner?_stemOf hne hcolon, Option.bind_some, if_pos (beq_self_eq_true _),
    String.ofList_toList, Number.readNat?_repr hslot]

end Batch

/-- A field name determines its slot and what comes after the stem. -/
lemma Attempt.stemOf_append_inj {usageId : String} (hne : usageId ≠ "")
    (hcolon : ':' ∉ usageId.toList) {slot slot' : Nat} {name name' : String}
    (h : stemOf usageId slot ++ name = stemOf usageId slot' ++ name') :
    slot = slot' ∧ name = name' := by
  have howner := congrArg Batch.fieldOwner? h
  rw [Batch.fieldOwner?_stemOf hne hcolon, Batch.fieldOwner?_stemOf hne hcolon] at howner
  have hdigits : slot.repr.toList = slot'.repr.toList := (Prod.mk.inj (Option.some.inj howner)).2
  have hslot : slot = slot' := by
    have hread := Number.digits?_toDigits slot
    rw [← Nat.toList_repr, hdigits, Nat.toList_repr, Number.digits?_toDigits] at hread
    exact (Option.some.inj hread).symm
  subst hslot
  exact ⟨rfl, String.append_right_inj _ |>.1 h⟩

end Assessment
