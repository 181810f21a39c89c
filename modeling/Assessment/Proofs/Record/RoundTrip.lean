import Assessment.Proofs.Record.Question

/-!
# Stored records are read back

Whatever is stored is read as what was stored, and nothing is lost when a record that was read from
elsewhere, with fields left out or fields that nobody knows, is stored and read again.  For each kind of
record this is one statement about its form (`RoundTrips`), and all of them together are
`stored_forms_read_back`.
-/

namespace Assessment

section

variable {α δ : Type} {write : α → δ} {read : δ → Option α} {fits good : α → Prop}

/-- A good value is read as it was written, and so is any value that was read before. -/
structure RoundTrips (write : α → δ) (read : δ → Option α) (good : α → Prop) : Prop where
  of_good : ∀ x, good x → read (write x) = some x
  of_read : ∀ d x, read d = some x → read (write x) = some x

lemma Keeps.roundTrips (h : Keeps write read fits) (hgood : ∀ x, good x → fits x) :
    RoundTrips write read good where
  of_good x hx := h.reads_back x (hgood x hx)
  of_read d x hx := h.reads_back x (h.reads_only d x hx)

end

variable {ν : Type} [Scalar ν]

/-- Stored records are read back.  A row, a question of a type with a stored form, a submission or an
identity is read from its document as it was written, if its numbers are finite and its points in time
are whole milliseconds of the calendar.  Whatever one of them was read from, with defaults filled in and
unknown fields dropped, it is read again from the document that is written for it. -/
theorem stored_forms_read_back (hν : Scalar.Lossless ν) :
    let finite : ν → Prop := fun x => Scalar.isFinite x = true
    RoundTrips UsageRow.encode UsageRow.decode? (fun _ => True) ∧
    RoundTrips AttemptRow.encode AttemptRow.decode? (AttemptRow.Holds finite) ∧
    RoundTrips StepRow.encode StepRow.decode? (StepRow.Holds finite) ∧
    RoundTrips VarRow.encode VarRow.decode? (fun _ => True) ∧
    RoundTrips Question.encode? (fun d => d.bind Question.decode?) (Question.Holds finite) ∧
    RoundTrips Submission.encode Submission.decode? Submission.Holds ∧
    RoundTrips UsageId.encode UsageId.decode? (fun _ => True) := by
  intro finite
  have hkept : ∀ x : ν, finite x → Scalar.Kept x := hν.of_finite
  exact ⟨UsageRow.keeps.roundTrips fun _ h => h,
    (AttemptRow.keeps hν).roundTrips fun _ h => h.mono hkept,
    (StepRow.keeps hν).roundTrips fun _ h => h.mono hkept,
    VarRow.keeps.roundTrips fun _ h => h,
    (Question.keeps hν).roundTrips fun _ h => h.mono hkept,
    Submission.keeps.roundTrips fun _ h => h,
    UsageId.keeps.roundTrips fun _ h => h⟩

/-- The row of an attempt, and a question that was stored without mark, penalty and hints but with a
field that nobody knows. -/
theorem stored_forms_read_back_example :
    let row : AttemptRow (Exact Script.fraction) :=
      ⟨"a1", "u1", 1, "q1", "deferredfeedback", .rational 2, .rational (-1 / 2), false,
        some "The sky is blue", some "True", none, ⟨1500000⟩⟩
    let d : Document := .object
      [("colour", .text "blue"), ("_id", .text "q1"), ("name", .text "sky"),
       ("question_text", .text "The sky is blue"), ("qtype", .text "truefalse"),
       ("right_answer", .bool true)]
    let q : Question (Exact Script.fraction) :=
      .trueFalse ⟨"q1", "sky", "The sky is blue", 1.0, MultiChoice.usualPenalty, true, []⟩
    Scalar.Lossless (Exact Script.fraction) ∧
      row.Holds (fun x => Scalar.isFinite x = true) ∧ AttemptRow.decode? row.encode = some row ∧
      Question.decode? d = some q ∧ q.encode?.bind Question.decode? = some q := by
  intro row d q
  obtain ⟨-, hattempt, -, -, hquestion, -⟩ := stored_forms_read_back Exact.lossless
  have hrow : row.Holds fun x => Scalar.isFinite x = true :=
    ⟨by decide, rfl, rfl, rfl, by decide, by decide⟩
  have hd : Question.decode? d = some q := rfl
  exact ⟨Exact.lossless, hrow, hattempt.of_good row hrow, hd, hquestion.of_read (some d) q hd⟩

end Assessment
