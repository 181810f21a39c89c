import Assessment.Scalar
import Assessment.Text.Basic

/-!
# States of an attempt

The state after a step says whether the attempt still takes answers, how it ended, and whether a
person has commented on it.  States are stored under fixed names (`State.name`, read back by
`State.ofName?`); a fraction is classified as correct, wrong or partial with a tolerance at both ends.
-/

namespace Assessment

/-- The state of an attempt after a step.  `notStarted` belongs to an attempt without steps and
`unprocessed` to a step that no behaviour has ruled on yet. -/
inductive State
  | notStarted
  | unprocessed
  | todo
  | invalid
  | complete
  | needsGrading
  | finished
  | gaveUp
  | gradedWrong
  | gradedPartial
  | gradedCorrect
  | manualFinished
  | manualGaveUp
  | manualGradedWrong
  | manualGradedPartial
  | manualGradedCorrect
  deriving Repr, DecidableEq, Inhabited

namespace State

/-- Every state. -/
def all : List State :=
  [notStarted, unprocessed, todo, invalid, complete, needsGrading, finished, gaveUp, gradedWrong,
   gradedPartial, gradedCorrect, manualFinished, manualGaveUp, manualGradedWrong,
   manualGradedPartial, manualGradedCorrect]

/-- The name under which a state is stored. -/
def name : State → String
  | notStarted => "notstarted"
  | unprocessed => "unprocessed"
  | todo => "todo"
  | invalid => "invalid"
  | complete => "complete"
  | needsGrading => "needsgrading"
  | finished => "finished"
  | gaveUp => "gaveup"
  | gradedWrong => "gradedwrong"
  | gradedPartial => "gradedpartial"
  | gradedCorrect => "gradedright"
  | manualFinished => "manfinished"
  | manualGaveUp => "mangaveup"
  | manualGradedWrong => "mangrwrong"
  | manualGradedPartial => "mangrpartial"
  | manualGradedCorrect => "mangrright"

/-- The state stored under exactly this name. -/
def ofName? (s : String) : Option State := all.find? fun state => state.name == s

/-- The state whose name is written in `s`, in any mixture of cases. -/
def read? (s : String) : Option State := ofName? (Text.lower s)

/-- The message for a text that names no state. -/
def unreadable (s : String) : String := "Invalid question state: " ++ s

/-- The name of a state in diagnostic displays. -/
def display : State → String
  | notStarted => "NotStarted"
  | unprocessed => "Unprocessed"
  | todo => "Todo"
  | invalid => "Invalid"
  | complete => "Complete"
  | needsGrading => "NeedsGrading"
  | finished => "Finished"
  | gaveUp => "GaveUp"
  | gradedWrong => "GradedWrong"
  | gradedPartial => "GradedPartial"
  | gradedCorrect => "GradedCorrect"
  | manualFinished => "ManualFinished"
  | manualGaveUp => "ManualGaveUp"
  | manualGradedWrong => "ManualGradedWrong"
  | manualGradedPartial => "ManualGradedPartial"
  | manualGradedCorrect => "ManualGradedCorrect"

/-- Active states still take answers from the learner. -/
def isActive : State → Bool
  | todo | invalid | complete => true
  | _ => false

/-- Finished states: the attempt was started and is no longer active. -/
def isFinished : State → Bool
  | notStarted | unprocessed => false
  | s => !s.isActive

/-- States that come with a fraction. -/
def isGraded : State → Bool
  | gradedWrong | gradedPartial | gradedCorrect => true
  | manualGradedWrong | manualGradedPartial | manualGradedCorrect => true
  | _ => false

/-- States reached through a person's comment. -/
def isCommented : State → Bool
  | manualFinished | manualGaveUp => true
  | manualGradedWrong | manualGradedPartial | manualGradedCorrect => true
  | _ => false

/-- States of an attempt that ended without an answer. -/
def isGaveUp : State → Bool
  | gaveUp | manualGaveUp => true
  | _ => false

variable {ν : Type} [Scalar ν]

/-- Fractions above this count as correct. -/
def correctAbove : ν := 0.999999

/-- Fractions below this count as wrong. -/
def wrongBelow : ν := 0.000001

/-- The class of a computed fraction. -/
def ofFraction (fraction : ν) : State :=
  if correctAbove < fraction then gradedCorrect
  else if fraction < wrongBelow then gradedWrong
  else gradedPartial

/-- The counterpart of a state after a person's comment; a state without one stays. -/
def manual : State → State
  | finished => manualFinished
  | gaveUp => manualGaveUp
  | gradedWrong => manualGradedWrong
  | gradedPartial => manualGradedPartial
  | gradedCorrect => manualGradedCorrect
  | s => s

/-- The class of a fraction that a person awarded. -/
def ofManualFraction (fraction : ν) : State := (ofFraction fraction).manual

/-- The state that a comment leads to: an awarded fraction decides, and without one the outcome is
kept and marked as commented. -/
def commented (s : State) : Option ν → State
  | some fraction => ofManualFraction fraction
  | none => s.manual

theorem ofName?_name (s : State) : ofName? s.name = some s := by
  cases s <;> decide

theorem not_isFinished_of_isActive {s : State} (h : s.isActive) : s.isFinished = false := by
  cases s <;> simp_all [isActive, isFinished]

end State
end Assessment
