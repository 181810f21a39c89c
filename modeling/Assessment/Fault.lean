/-!
# What can go wrong

A `Fault` is a cause: what was asked for and why it was refused.  `Fault.message` is its wording.
Numbers in a fault are kept in the form in which they are shown.
-/

namespace Assessment

/-- The reasons for refusing an operation on an attempt or a usage. -/
inductive Fault
  /-- The page was rendered for another number of steps; the learner can send it again. -/
  | outOfSequence (usage : String) (slot expected actual : Nat)
  | unknownSlot (slot : Nat)
  | noSuchStep (index length : Nat)
  | notStarted
  | alreadyStarted
  /-- A recorded step never changes. -/
  | recordedStep
  /-- A cached variable needs a name that begins with `_`. -/
  | notCached (name : String)
  /-- A text that a field or parameter of this kind does not take. -/
  | badValue (field kind value : String)
  | unknownBehaviour (name : String)
  | notArchetypal (name : String)
  | badBehaviourName (name : String)
  | duplicateBehaviour (name : String)
  | markOutOfRange (mark maxMark minFraction : String)
  /-- An information item takes no mark. -/
  | informationGraded
  | cannotRegrade (behaviour : String)
  | questionNotFound (id : String)
  /-- An attempt without an id has no stored row. -/
  | unsavedAttempt (slot : Nat)
  deriving Repr, DecidableEq

namespace Fault

/-- The wording of a fault. -/
def message : Fault → String
  | outOfSequence usage slot expected actual =>
    "Submission out of sequence for usage " ++ usage ++ ", slot " ++ toString slot ++ ": expected "
      ++ toString expected ++ " steps, attempt has " ++ toString actual
  | unknownSlot slot => "There is no question attempt in slot " ++ toString slot ++ " of this usage"
  | noSuchStep index length =>
    "Step index " ++ toString index ++ " out of bounds for attempt with " ++ toString length
      ++ " steps"
  | notStarted => "This question attempt has not been started yet"
  | alreadyStarted => "This question attempt has already been started"
  | recordedStep => "Cannot modify a committed attempt step"
  | notCached name => "Cached variable names must begin with '_', got '" ++ name ++ "'"
  | badValue field kind value =>
    "Invalid value '" ++ value ++ "' for parameter '" ++ field ++ "' (expected " ++ kind ++ ")"
  | unknownBehaviour name => "Unknown question behaviour '" ++ name ++ "'"
  | notArchetypal name => "Question behaviour '" ++ name ++ "' is not archetypal"
  | badBehaviourName name =>
    "Invalid behaviour name '" ++ name ++ "': use lowercase letters and digits only"
  | duplicateBehaviour name => "Question behaviour '" ++ name ++ "' is already registered"
  | markOutOfRange mark maxMark minFraction =>
    "Manual mark " ++ mark ++ " out of range for max mark " ++ maxMark
      ++ " (fraction must be in [" ++ minFraction ++ ", 1])"
  | informationGraded => "Information items cannot be graded"
  | cannotRegrade behaviour =>
    "Cannot regrade an attempt stored with unavailable behaviour '" ++ behaviour ++ "'"
  | questionNotFound id => "Question " ++ id ++ " not found"
  | unsavedAttempt slot =>
    "Invalid stored record: attempt in slot " ++ toString slot ++ " has no id"

/-- Whether sending the submission again can succeed. -/
def isRecoverable : Fault → Bool
  | outOfSequence .. => true
  | _ => false

end Fault
end Assessment
