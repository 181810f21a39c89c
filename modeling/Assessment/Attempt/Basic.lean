import Assessment.Op
import Assessment.Question
import Assessment.Step

/-!
# Attempts

An attempt is one learner's instance of one question: the question, the behaviour that rules on its
actions, and the steps recorded so far.  Its state, fraction and mark are those of the latest step.
The form fields of an attempt share a stem that names its usage and slot.
-/

namespace Assessment

/-- One learner's instance of one question. -/
structure Attempt (ν : Type) where
  /-- The id of the stored row, if there is one. -/
  id : Option String
  /-- The id of the usage that the attempt belongs to. -/
  usageId : String
  slot : Nat
  question : Question ν
  /-- What rules on actions; nothing before the attempt is started. -/
  behaviour : Option Behaviour
  maxMark : ν
  /-- The least fraction of the attempt, fixed when it is started. -/
  minFraction : Option ν
  flagged : Bool
  /-- The recorded steps, the first of them first. -/
  steps : List (Step ν)
  questionSummary : Option String
  rightAnswerSummary : Option String
  responseSummary : Option String
  /-- The time of the latest change; nothing before the first step. -/
  modified : Option Instant
  /-- Who is told when the attempt changes. -/
  observer : Observer

namespace Attempt

variable {ν : Type}

/-- An attempt that is not started, out of the question's own marks unless `maxMark` is given. -/
def new [Scalar ν] (question : Question ν) (usageId : String) (slot : Nat) (maxMark : Option ν) :
    Attempt ν where
  id := none
  usageId := usageId
  slot := slot
  question := question
  behaviour := none
  maxMark := maxMark.getD question.defaultMark
  minFraction := none
  flagged := false
  steps := []
  questionSummary := none
  rightAnswerSummary := none
  responseSummary := none
  modified := none
  observer := .nobody

/-- The attempt with its changes told to another observer. -/
def observedBy (a : Attempt ν) (observer : Observer) : Attempt ν := { a with observer := observer }

/-! ## The latest step -/

/-- The latest step. -/
def last? (a : Attempt ν) : Option (Step ν) := a.steps.getLast?

/-- The state after the latest step. -/
def state (a : Attempt ν) : State :=
  match a.last? with
  | some step => step.state
  | none => .notStarted

/-- The fraction of the latest step. -/
def fraction (a : Attempt ν) : Option ν := a.last?.bind Step.fraction

/-- The fraction in marks. -/
def mark [Scalar ν] (a : Attempt ν) : Option ν := a.fraction.map fun fraction => fraction * a.maxMark

/-- The time of the latest step. -/
def lastTime (a : Attempt ν) : Option Instant := a.last?.map Step.time

/-! ## History -/

/-- The steps, the latest first. -/
def latestFirst (a : Attempt ν) : List (Step ν) := a.steps.reverse

/-- The step at an index. -/
def step? (a : Attempt ν) (index : Nat) : Except Fault (Step ν) :=
  match a.steps[index]? with
  | some step => .ok step
  | none => .error (.noSuchStep index a.steps.length)

/-- The question's variables of the latest step that has any. -/
def response (a : Attempt ν) : Vars :=
  ((a.latestFirst.map fun step => step.vars.questionPart).find? fun vars => !vars.isEmpty).getD
    SortedMap.empty

/-- The latest value of a question variable. -/
def question? (a : Attempt ν) (name : String) : Option String :=
  a.latestFirst.findSome? fun step => step.vars.question? name

/-- The latest value of a behaviour variable. -/
def behaviour? (a : Attempt ν) (name : String) : Option String :=
  a.latestFirst.findSome? fun step => step.vars.behaviour? name

/-- Whether a person has commented. -/
def hasComment (a : Attempt ν) : Bool := a.steps.any fun step => step.vars.hasBehaviour "comment"

/-- The latest comment. -/
def comment? (a : Attempt ν) : Option String := a.behaviour? "comment"

/-- The least fraction, once the attempt is started. -/
def minFraction? (a : Attempt ν) : Except Fault ν :=
  match a.minFraction with
  | some fraction => .ok fraction
  | none => .error .notStarted

/-- The behaviour, once the attempt is started. -/
def behaviourOr (a : Attempt ν) : Except Fault Behaviour :=
  match a.behaviour with
  | some behaviour => .ok behaviour
  | none => .error .notStarted

/-! ## Form fields -/

/-- What the names of the form fields of a slot begin with. -/
def stemOf (usageId : String) (slot : Nat) : String := "q" ++ usageId ++ ":" ++ slot.repr ++ "_"

/-- What the names of the attempt's form fields begin with. -/
def stem (a : Attempt ν) : String := stemOf a.usageId a.slot

/-- The form field of the flag. -/
def flagField (a : Attempt ν) : String := a.stem ++ ":flagged"

/-- The form field that says how many steps the page was rendered for. -/
def sequenceField (a : Attempt ν) : String := a.stem ++ ":sequencecheck"

/-! ## Changes -/

/-- The attempt with a draft recorded as its next step. -/
def record (a : Attempt ν) (d : Draft ν) : Attempt ν :=
  { a with steps := a.steps ++ [d.record], modified := some d.time }

/-- Sets or lowers the flag.  Storage hears of it only when the flag changes. -/
def setFlag (flagged : Bool) : Op Fault (Attempt ν) Unit := fun a =>
  if a.flagged == flagged then ⟨.ok (), a, []⟩
  else ⟨.ok (), { a with flagged := flagged }, [.notice (.attemptModified a.slot)]⟩

/-- Refuses a page that was rendered for another number of steps. -/
def checkSequence (expected : Nat) : Op Fault (Attempt ν) Unit := fun a =>
  if expected == a.steps.length then ⟨.ok (), a, []⟩
  else ⟨.error (.outOfSequence a.usageId a.slot expected a.steps.length), a,
    [.tally .outOfSequence]⟩

end Attempt
end Assessment
