import Assessment.Store.Bank
import Assessment.Store.Tables
import Assessment.Usage.Basic

/-!
# Assembling a usage from its rows

The steps of an attempt come back in the order of their places, read-only, each with the variables of
its rows.  A behaviour that is not on offer any more is stood in for, so that history stays readable;
a question that the bank does not know fails the whole usage.
-/

namespace Assessment

variable {ν : Type}

namespace Step

/-- The step of a row with its variables. -/
def ofRow (row : StepRow ν) (vars : Vars) : Step ν where
  id := some row.id
  state := row.state
  fraction := row.fraction
  time := row.time
  actor := row.actor
  vars := vars
  readOnly := true

end Step

namespace Attempt

/-- The attempt of a row with its question and its steps. -/
def ofRow (row : AttemptRow ν) (question : Question ν) (behaviour : Behaviour)
    (steps : List (Step ν)) : Attempt ν where
  id := some row.id
  usageId := row.usageId
  slot := row.slot
  question := question
  behaviour := some behaviour
  maxMark := row.maxMark
  minFraction := some row.minFraction
  flagged := row.flagged
  steps := steps
  questionSummary := row.questionSummary
  rightAnswerSummary := row.rightAnswerSummary
  responseSummary := row.responseSummary
  modified := some row.modified
  observer := .nobody

end Attempt

namespace Tables

/-- The variables of each step; of several rows with one name the last counts. -/
def varsByStep (rows : List VarRow) : SortedMap String Vars :=
  rows.foldl (fun m row =>
    m.insert row.stepId (((m.get? row.stepId).getD SortedMap.empty).insert row.name row.value))
    SortedMap.empty

/-- The steps of rows, each with the id of its attempt.  The variables of a step id go to the first
row that has it. -/
def stepsOfRows : SortedMap String Vars → List (StepRow ν) → List (String × Step ν)
  | _, [] => []
  | vars, row :: rest =>
    (row.attemptId, Step.ofRow row ((vars.get? row.id).getD SortedMap.empty))
      :: stepsOfRows (vars.erase row.id) rest

/-- The steps of rows in the order of their places. -/
def orderedSteps (steps : List (StepRow ν)) (vars : List VarRow) : List (String × Step ν) :=
  stepsOfRows (varsByStep vars) (steps.mergeSort fun a b => a.index ≤ b.index)

/-- The question of an attempt's row. -/
def questionOfRow {σ : Type} (bank : Bank ν) (row : AttemptRow ν) : Op Failure σ (Question ν) :=
  Op.mapFailure
    (Failure.within ("Failed to load question " ++ row.questionId ++ " for slot " ++ row.slot.repr))
    (bank.question row.questionId)

/-- The attempts of rows.  The steps of an attempt id go to the first row that has it. -/
def attemptsOfRows {σ : Type} (bank : Bank ν) (registry : Registry) (preferred : String) :
    List (String × Step ν) → List (AttemptRow ν) → Op Failure σ (List (Attempt ν))
  | _, [] => Op.pure []
  | steps, row :: rest =>
    Op.bind (questionOfRow bank row) fun question =>
      let own := (steps.filter fun s => s.1 == row.id).map Prod.snd
      let others := steps.filter fun s => s.1 != row.id
      let attempt := Attempt.ofRow row question (registry.makeOrMissing row.behaviour preferred) own
      Op.bind (attemptsOfRows bank registry preferred others rest) fun attempts =>
        Op.pure (attempt :: attempts)

end Tables

namespace Usage

/-- A stored usage with its attempts, kept by their slots, and nothing to save. -/
def restore (row : UsageRow) (attempts : List (Attempt ν)) (registry : Registry)
    (tracked : Bool) : Usage ν :=
  tracking
    { id := .stored row.id
      plugin := row.plugin
      context := row.context
      preferred := row.preferred
      attempts := SortedMap.ofList (attempts.map fun a => (a.slot, a))
      registry := registry
      pending := none }
    (if tracked then some Changes.none else none)

/-- The usage of its rows. -/
def assemble {σ : Type} (row : UsageRow) (attempts : List (AttemptRow ν)) (steps : List (StepRow ν))
    (vars : List VarRow) (bank : Bank ν) (registry : Registry) : Op Failure σ (Usage ν) :=
  Op.bind
    (Tables.attemptsOfRows bank registry row.preferred (Tables.orderedSteps steps vars) attempts)
    fun attempts => Op.pure (restore row attempts registry true)

end Usage
end Assessment
