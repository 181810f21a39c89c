import Assessment.Field
import Assessment.Vars

/-!
# Responses

A response is the question's part of the variables of a step.  A question type says which fields make
one up (`Expected`).
-/

namespace Assessment

/-- What a question takes out of a form. -/
inductive Expected
  /-- These fields, each in the normal form of its kind. -/
  | fields (fields : Fields)
  /-- Every field of the question, as it was submitted. -/
  | every
  deriving DecidableEq

/-- The field that holds the answer in every built-in question type. -/
def answerField : String := "answer"

/-- The expectation of a single answer field. -/
def Expected.answer (kind : FieldKind) : Expected :=
  .fields (SortedMap.ofList [(answerField, kind)])

/-- Whether two responses answer alike, whatever values are cached with them. -/
def sameAnswers (previous current : Vars) : Bool :=
  previous.submitted == current.submitted

end Assessment
