import Assessment.Behaviour.Ruling

/-!
# Certainty

With certainty-based marking the learner says with each answer how sure they are of it.  A surer
answer earns more when it is right and costs more when it is wrong.
-/

namespace Assessment

/-- How sure the learner is of an answer. -/
inductive Certainty
  | low
  | medium
  | high
  deriving Repr, DecidableEq

namespace Certainty

/-- The certainty that a text says. -/
def read? (s : String) : Option Certainty :=
  match Text.trim s with
  | "1" => some low
  | "2" => some medium
  | "3" => some high
  | _ => none

/-- The text of a certainty. -/
def text : Certainty → String
  | low => "1"
  | medium => "2"
  | high => "3"

/-- What is assumed when the learner says nothing. -/
def assumed : Certainty := low

variable {ν : Type} [Scalar ν]

/-- What a right answer moves the fraction by. -/
def factor : Certainty → ν
  | low => 1.0 / 3.0
  | medium => 4.0 / 3.0
  | high => 3.0

/-- What a wrong answer earns. -/
def offset : Certainty → ν
  | low => 0.0
  | medium => -2.0 / 3.0
  | high => -2.0

/-- The fraction earned at a certainty. -/
def adjust (c : Certainty) (fraction : ν) : ν := c.offset + c.factor * fraction

/-- The certainty in a draft. -/
def ofDraft? (d : Draft ν) : Option Certainty := (d.vars.behaviour? "certainty").bind read?

/-- Grades an answer at a certainty, and remembers what was earned without it.  A certainty that had
to be assumed is remembered as well. -/
def grade (a : Attempt ν) (response : Vars) (certainty : Option Certainty) (d : Draft ν) : Draft ν :=
  let (raw, state) := a.question.grade response
  let d := match certainty with
    | some _ => d
    | none => d.cache .behaviour "assumedcertainty" assumed.text
  (d.cache .behaviour "rawfraction" (Scalar.plain raw)).graded
    ((certainty.getD assumed).adjust raw, state)

/-- Whether a draft repeats the latest answer with the latest certainty. -/
def isSame (a : Attempt ν) (d : Draft ν) : Bool :=
  Sameness.byAnswer.holds a d && a.behaviour? "certainty" == d.vars.behaviour? "certainty"

/-- Submitting an answer: graded if it can be and the certainty is said. -/
def submit (a : Attempt ν) (d : Draft ν) : Ruling ν :=
  if a.state.isFinished then .discard
  else
    let response := d.vars.questionPart
    let d' := d.summarised (a.question.summarise response)
    match ofDraft? d with
    | some certainty =>
      if a.question.isGradable response then .keep (grade a response (some certainty) d')
      else .keep (d'.withState .invalid)
    | none => .keep (d'.withState .invalid)

/-- Saving an answer: complete only together with a certainty. -/
def save (a : Attempt ν) (d : Draft ν) : Ruling ν :=
  match Ruling.save (isSame a d) a d with
  | .discard => .discard
  | .keep d' =>
    if d'.state == .complete && (ofDraft? d).isNone then .keep (d'.withState .todo) else .keep d'

/-- Finishing: the latest answer is graded at the latest certainty. -/
def finish (a : Attempt ν) (d : Draft ν) : Ruling ν :=
  if a.state.isFinished then .discard
  else if a.question.isGradable a.response then
    .keep (grade a a.response ((a.behaviour? "certainty").bind read?) d)
  else .keep (d.withState .gaveUp)

end Certainty
end Assessment
