import Assessment.Behaviour.Ruling

/-!
# Interactive tries

A question with hints gives one try more than it has hints.  After a wrong try the learner is shown a
hint and has to ask to try again; each counted try is remembered in `-_triesleft`, and later tries
earn less.
-/

namespace Assessment

namespace Interactive

variable {ν : Type}

/-- The submissions that repeat the previous one are recognised by everything submitted. -/
def sameness : Sameness := .bySubmission "omact_"

/-- The tries that a question gives. -/
def totalTries (a : Attempt ν) : Nat := a.question.hints.length + 1

/-- The tries that are left, as the history says. -/
def triesLeft (a : Attempt ν) : Nat :=
  ((a.behaviour? "_triesleft").bind (Number.readNat? Number.max32)).getD (totalTries a)

/-- Whether the latest step was a wrong try, after which the learner must ask to try again. -/
def awaitsRetry (a : Attempt ν) : Bool :=
  a.state.isActive && match a.last? with
    | some last => last.vars.hasBehaviour "submit" && last.vars.hasBehaviour "_triesleft"
    | none => false

/-- The hint after the tries used so far. -/
def hint? (a : Attempt ν) : Option String :=
  if awaitsRetry a then
    match totalTries a - triesLeft a with
    | 0 => none
    | used + 1 => a.question.hints[used]?
  else none

variable [Scalar ν]

/-- What a fraction is worth with `left` tries left: each try used costs the penalty, but never more
than what was earned, unless less than nothing was earned. -/
def penalised (a : Attempt ν) (raw : ν) (left : Nat) : ν :=
  let used := totalTries a - left
  Scalar.greatest (raw - a.question.penalty * Scalar.ofCount used) (Scalar.least raw 0.0)

/-- Submitting an answer: a try is counted if the answer can be graded, and it ends the attempt when
it is right or the last one. -/
def submit (a : Attempt ν) (d : Draft ν) : Ruling ν :=
  if a.state.isFinished || awaitsRetry a || sameness.holds a d then .discard
  else
    let response := d.vars.questionPart
    let d := d.summarised (a.question.summarise response)
    if a.question.isGradable response then
      let left := triesLeft a
      let (raw, state) := a.question.grade response
      if state == .gradedCorrect || left ≤ 1 then
        .keep (((d.cache .behaviour "rawfraction" (Scalar.plain raw)).cache .behaviour "triesleft"
          (left - 1).repr).graded (penalised a raw left, state))
      else .keep ((d.cache .behaviour "triesleft" (left - 1).repr).withState .todo)
    else .keep (d.withState .invalid)

/-- Asking to try again. -/
def retry (a : Attempt ν) (d : Draft ν) : Ruling ν :=
  if awaitsRetry a then .keep (d.withState .todo) else .discard

/-- Saving an answer, which has to wait until the learner has asked to try again. -/
def save (a : Attempt ν) (d : Draft ν) : Ruling ν :=
  if awaitsRetry a then .discard else Ruling.save (sameness.holds a d) a d

/-- Finishing: the latest answer is graded and penalised for the tries used. -/
def finish (a : Attempt ν) (d : Draft ν) : Ruling ν :=
  if a.state.isFinished then .discard
  else if a.question.isGradable a.response then
    let (raw, state) := a.question.grade a.response
    .keep ((d.cache .behaviour "rawfraction" (Scalar.plain raw)).graded
      (penalised a raw (triesLeft a), state))
  else .keep (d.withState .gaveUp)

/-- The first step remembers the tries, unless it does so already. -/
def seed (a : Attempt ν) (vars : Vars) : Vars :=
  if vars.hasBehaviour "_triesleft" then vars
  else vars.cache .behaviour "triesleft" (totalTries a).repr

end Interactive
end Assessment
