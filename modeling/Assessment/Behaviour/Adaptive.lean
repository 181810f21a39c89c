import Assessment.Behaviour.Ruling

/-!
# Adaptive questions

The question drives the interaction: every new submission is handed to it, and it grades what it can.
-/

namespace Assessment

namespace Adaptive

variable {ν : Type} [Scalar ν]

/-- The submissions that repeat the previous one are recognised by everything submitted. -/
def sameness : Sameness := .bySubmission "omact_"

/-- A new submission: graded when it can be, and otherwise reported as incomplete. -/
def submit (a : Attempt ν) (d : Draft ν) : Ruling ν :=
  if a.state.isFinished || sameness.holds a d then .discard
  else
    let d' := Ruling.gradeDraft .todo a d
    if a.question.isGradable d.vars.questionPart then .keep d'
    else .keep (d'.cache .behaviour "statestring"
      ("Incomplete response after " ++ a.steps.length.repr ++ " steps"))

/-- Finishing: nothing is graded any more. -/
def finish (a : Attempt ν) (d : Draft ν) : Ruling ν :=
  if a.state.isFinished then .discard else .keep (d.withState .gaveUp)

/-- The first step remembers a seed, what the usage prefers and a status line, unless it remembers a
seed already. -/
def seed (preferred : String) (draw : Draw) (vars : Vars) : Vars :=
  if vars.hasBehaviour "_randomseed" then vars
  else ((vars.cache .behaviour "randomseed" draw.seed.toNat.repr).cache .behaviour
    "preferredbehaviour" preferred).cache .behaviour "statestring" "Not yet answered"

end Adaptive
end Assessment
