import Assessment.Instant
import Assessment.State

/-!
# Rows

What is stored of a usage: one row for itself, one for each attempt, one for each step, and one for
each variable of a step.
-/

namespace Assessment

/-- The row of a usage. -/
structure UsageRow where
  id : String
  plugin : String
  context : String
  preferred : String
  deriving Repr, DecidableEq

/-- The row of an attempt. -/
structure AttemptRow (ν : Type) where
  id : String
  usageId : String
  slot : Nat
  questionId : String
  behaviour : String
  maxMark : ν
  minFraction : ν
  flagged : Bool
  questionSummary : Option String
  rightAnswerSummary : Option String
  responseSummary : Option String
  modified : Instant

/-- The row of a step. -/
structure StepRow (ν : Type) where
  id : String
  attemptId : String
  /-- The place of the step in its attempt. -/
  index : Nat
  state : State
  fraction : Option ν
  time : Instant
  actor : Option String

/-- The row of a variable of a step. -/
structure VarRow where
  stepId : String
  name : String
  value : String
  deriving Repr, DecidableEq

end Assessment
