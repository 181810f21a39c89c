import Assessment.Proofs.Record.Field

/-!
# Stored forms of rows, submissions and identities

The documents of the rows, of a submission and of an identity are read back as what was written, and
what is read can be written again (`Keeps`).  The names of the fields, which of them may be
left out and what stands in then are settled by the encoder and the decoder of each record; what is left
to ask of a value is that its parts fit into their fields: whole numbers of 32 or 64 bits, numbers that
their texts keep, points in time that are whole milliseconds of the calendar.
-/

namespace Assessment

open Document RecordView

/-! ## Rows of texts, and identities -/

lemma UsageRow.keeps : Keeps encode decode? fun _ => True := by
  refine ⟨fun r _ => ?_, fun _ _ _ => trivial⟩
  exact read_field rfl <|
    read_field (required_of_find? keeps_text trivial rfl) <|
    read_field (required_of_find? keeps_text trivial rfl) <|
    read_field (required_of_find? keeps_text trivial rfl) <|
    read_field (required_of_find? keeps_text trivial rfl) rfl

lemma VarRow.keeps : Keeps encode decode? fun _ => True := by
  refine ⟨fun r _ => ?_, fun _ _ _ => trivial⟩
  exact read_field rfl <|
    read_field (required_of_find? keeps_text trivial rfl) <|
    read_field (required_of_find? keeps_text trivial rfl) <|
    read_field (required_of_find? keeps_text trivial rfl) rfl

lemma UsageId.keeps : Keeps encode decode? fun _ => True := by
  refine ⟨fun id _ => ?_, fun _ _ _ => trivial⟩
  cases id <;> rfl

/-! ## Rows with numbers and points in time -/

section

variable {ν : Type} {p p' : ν → Prop}

/-- What is asked of the row of an attempt, its numbers satisfying `p`. -/
structure AttemptRow.Holds (p : ν → Prop) (r : AttemptRow ν) : Prop where
  slot : r.slot ≤ Number.max32
  maxMark : p r.maxMark
  minFraction : p r.minFraction
  modified : r.modified.Storable

/-- What is asked of the row of a step, its fraction satisfying `p`. -/
structure StepRow.Holds (p : ν → Prop) (r : StepRow ν) : Prop where
  index : r.index ≤ Number.max32
  fraction : ∀ x ∈ r.fraction, p x
  time : r.time.Storable

lemma AttemptRow.Holds.mono (hp : ∀ x, p x → p' x) {r : AttemptRow ν} (h : r.Holds p) :
    r.Holds p' :=
  ⟨h.slot, hp _ h.maxMark, hp _ h.minFraction, h.modified⟩

lemma StepRow.Holds.mono (hp : ∀ x, p x → p' x) {r : StepRow ν} (h : r.Holds p) : r.Holds p' :=
  ⟨h.index, fun x hx => hp x (h.fraction x hx), h.time⟩

variable [Scalar ν]

lemma AttemptRow.keeps (hν : Scalar.Lossless ν) :
    Keeps (encode (ν := ν)) decode? (Holds Scalar.Kept) := by
  refine ⟨fun r hr => ?_, fun d => ?_⟩
  · exact read_field rfl <|
      read_field (required_of_find? keeps_text trivial rfl) <|
      read_field (required_of_find? keeps_text trivial rfl) <|
      read_field (required_of_find? (keeps_nat _) hr.slot rfl) <|
      read_field (required_of_find? keeps_text trivial rfl) <|
      read_field (required_of_find? keeps_text trivial rfl) <|
      read_field (required_of_find? (keeps_number hν) hr.maxMark rfl) <|
      read_field (required_of_find? (keeps_number hν) hr.minFraction rfl) <|
      read_field (defaulted_of_find? keeps_bool trivial rfl) <|
      read_field (defaulted_of_find? keeps_text? trivial rfl) <|
      read_field (defaulted_of_find? keeps_text? trivial rfl) <|
      read_field (defaulted_of_find? keeps_text? trivial rfl) <|
      read_field (required_of_find? keeps_instant hr.modified rfl) rfl
  · refine forall_of_fields fun v _ => forall_of_fields fun _ _ => forall_of_fields fun _ _ =>
      forall_of_fields fun slot hslot => forall_of_fields fun _ _ => forall_of_fields fun _ _ =>
      forall_of_fields fun maxMark hmax => forall_of_fields fun minFraction hmin =>
      forall_of_fields fun _ _ => forall_of_fields fun _ _ => forall_of_fields fun _ _ =>
      forall_of_fields fun _ _ => forall_of_fields fun modified hmodified r hr => ?_
    cases hr
    have hslot := fits_of_required (keeps_nat Number.max32) hslot
    exact ⟨hslot, fits_of_required (keeps_number hν) hmax, fits_of_required (keeps_number hν) hmin,
      fits_of_required keeps_instant hmodified⟩

lemma StepRow.keeps (hν : Scalar.Lossless ν) : Keeps (encode (ν := ν)) decode? (Holds Scalar.Kept) := by
  refine ⟨fun r hr => ?_, fun d => ?_⟩
  · exact read_field rfl <|
      read_field (required_of_find? keeps_text trivial rfl) <|
      read_field (required_of_find? keeps_text trivial rfl) <|
      read_field (required_of_find? (keeps_nat _) hr.index rfl) <|
      read_field (required_of_find? keeps_state trivial rfl) <|
      read_field (defaulted_of_find? (keeps_number? hν) hr.fraction rfl) <|
      read_field (required_of_find? keeps_instant hr.time rfl) <|
      read_field (defaulted_of_find? keeps_text? trivial rfl) rfl
  · refine forall_of_fields fun v _ => forall_of_fields fun _ _ => forall_of_fields fun _ _ =>
      forall_of_fields fun index hindex => forall_of_fields fun _ _ =>
      forall_of_fields fun fraction hfraction => forall_of_fields fun time htime =>
      forall_of_fields fun _ _ r hr => ?_
    cases hr
    have hindex := fits_of_required (keeps_nat Number.max32) hindex
    exact ⟨hindex, fits_of_defaulted (keeps_number? hν) (by simp) hfraction,
      fits_of_required keeps_instant htime⟩

end

/-! ## Submissions -/

namespace Submission

/-- What is asked of a submission: the number of steps has 64 bits. -/
def Holds (s : Submission) : Prop := ∀ n ∈ s.sequenceCheck, n ≤ Number.max64

lemma encode_eq (s : Submission) :
    s.encode = .object [("data", ofTexts s.vars), ("sequence_check", ofOption ofNat s.sequenceCheck),
      ("flagged", ofOption .bool s.flagged)] := by
  cases s with | mk vars sequenceCheck flagged =>
    cases sequenceCheck <;> cases flagged <;> rfl

lemma keeps : Keeps encode decode? Holds := by
  have hnat : Keeps (ofOption ofNat) (nullable (nat? Number.max64)) _ :=
    keeps_nullable (keeps_nat _) fun _ => nofun
  have hbool : Keeps (ofOption .bool) (nullable bool?) _ := keeps_nullable keeps_bool fun _ => nofun
  refine ⟨fun s hs => ?_, fun d => ?_⟩
  · rw [encode_eq]
    exact read_field rfl <|
      read_field (required_of_find? keeps_texts trivial rfl) <|
      read_field (namedOptional_of_find? hnat hs rfl) <|
      read_field (namedOptional_of_find? hbool (fun _ _ => trivial) rfl) rfl
  · refine forall_of_fields fun v _ => forall_of_fields fun _ _ => forall_of_fields fun n hn =>
      forall_of_fields fun _ _ s hs => ?_
    cases hs
    exact fits_of_namedOptional hnat (by simp) hn

end Submission
end Assessment
