import Assessment.Attempt.Basic

/-!
# Rulings

A behaviour rules on the draft of an action: it discards it, or keeps it with a state and perhaps a
fraction.  This module holds the rulings that several behaviours share: saving an answer, grading the
latest answer, and a person's comment.
-/

namespace Assessment

/-- What becomes of a draft. -/
inductive Ruling (ν : Type)
  | discard
  | keep (d : Draft ν)

/-- How a repeated submission is recognised. -/
inductive Sameness
  /-- Never. -/
  | never
  /-- By the question, from the answers. -/
  | byAnswer
  /-- By everything submitted, unless a submitted name begins with `forcing`. -/
  | bySubmission (forcing : String)
  deriving Repr, DecidableEq

/-- Whether the submitted variables hold one whose bare name begins with `lead`. -/
def Vars.hasLead (vars : Vars) (lead : String) : Bool :=
  vars.submitted.keys.any fun key => lead.toList.isPrefixOf (bareName key)

variable {ν : Type}

/-- Whether a draft repeats what the attempt has already recorded. -/
def Sameness.holds (s : Sameness) (a : Attempt ν) (d : Draft ν) : Bool :=
  match s with
  | never => false
  | byAnswer => a.question.isSame a.response d.vars.questionPart
  | bySubmission forcing =>
    if d.vars.hasLead forcing then false
    else match a.last? with
      | some last => last.vars.submitted == d.vars.submitted
      | none => false

namespace Ruling

/-- The action that an owner's variable of this name asks for. -/
def asks (d : Draft ν) (name : String) : Bool := d.vars.hasBehaviour name

variable [Scalar ν]

/-- Saving an answer: never graded, only marked as complete or not. -/
def save (isSame : Bool) (a : Attempt ν) (d : Draft ν) : Ruling ν :=
  if a.state.isFinished || isSame then .discard
  else
    let response := d.vars.questionPart
    let state := if a.question.isComplete response then State.complete else State.todo
    .keep ((d.withState state).summarised (a.question.summarise response))

/-- Grades the latest answer, or gives up when there is none that can be graded. -/
def gradeLatest (a : Attempt ν) (d : Draft ν) : Ruling ν :=
  if a.state.isFinished then .discard
  else if a.question.isGradable a.response then .keep (d.graded (a.question.grade a.response))
  else .keep (d.withState .gaveUp)

/-- Grades the answer in the draft, or gives the draft another state when it cannot be graded. -/
def gradeDraft (otherwise : State) (a : Attempt ν) (d : Draft ν) : Draft ν :=
  let response := d.vars.questionPart
  let ruled :=
    if a.question.isGradable response then d.graded (a.question.grade response)
    else d.withState otherwise
  ruled.summarised (a.question.summarise response)

/-! ## Comments -/

/-- The mark that comes with a comment: blanks at its ends do not count, and a blank mark is none. -/
def markText? (d : Draft ν) : Option String :=
  (d.vars.behaviour? "mark").bind fun raw =>
    let trimmed := Text.trim raw
    if trimmed == "" then none else some trimmed

/-- The finite number in a variable of a comment. -/
def number? (field raw : String) : Except Fault ν :=
  match Scalar.read? (Text.trim raw) with
  | some (x : ν) => if Scalar.isFinite x then .ok x else .error (.badValue field "number" raw)
  | none => .error (.badValue field "number" raw)

/-- The fraction that a mark is of the marks to be had.  It has to lie between the least fraction and
one; where no marks are to be had, only the mark zero is in range. -/
def awarded (mark maxMark minFraction : ν) : Except Fault ν :=
  let fault := Fault.markOutOfRange (Scalar.plain mark) (Scalar.plain maxMark)
    (Scalar.plain minFraction)
  if maxMark ≤ 0.0 then
    if mark == 0.0 then .ok 0.0 else .error fault
  else
    let fraction := mark / maxMark
    if 1.0 < fraction ∨ fraction < minFraction then .error fault else .ok fraction

/-- A person's comment, which may award a mark.  Without a mark the fraction stays as it is. -/
def comment (a : Attempt ν) (d : Draft ν) : Except Fault (Ruling ν) :=
  match markText? d with
  | none => .ok (.keep { d with state := a.state.commented (none : Option ν), fraction := a.fraction })
  | some text => do
    let mark : ν ← number? "-mark" text
    let maxMark ← match d.vars.behaviour? "maxmark" with
      | some raw => number? "-maxmark" raw
      | none => .ok a.maxMark
    let minFraction ← a.minFraction?
    let fraction ← awarded mark maxMark minFraction
    return .keep { d with state := a.state.commented (some fraction), fraction := some fraction }

end Ruling
end Assessment
