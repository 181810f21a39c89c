import Assessment.Data.SortedSet
import Assessment.Record.Rows

/-!
# Tables

Stored usages are four tables of rows.  A `Write` is everything that one save puts into them:
`Tables.apply` replaces the usage's row, removes the steps of attempts that are written anew, replaces
the attempts, and adds steps and variables.
-/

namespace Assessment

/-- The stored rows. -/
structure Tables (ν : Type) where
  usages : List UsageRow
  attempts : List (AttemptRow ν)
  steps : List (StepRow ν)
  vars : List VarRow

/-- Everything that one save has to write. -/
structure Write (ν : Type) where
  /-- The row of the usage, if it has to be written. -/
  usage : Option UsageRow
  usageIsNew : Bool
  newAttempts : List (AttemptRow ν)
  updatedAttempts : List (AttemptRow ν)
  /-- The attempts whose stored steps are removed before new ones go in. -/
  clearedAttempts : List String
  newSteps : List (StepRow ν)
  newVars : List VarRow

namespace Write

variable {ν : Type}

/-- Nothing to write. -/
def empty : Write ν := ⟨none, false, [], [], [], [], []⟩

/-- Whether there is nothing to write. -/
def isEmpty (w : Write ν) : Bool :=
  w.usage.isNone && w.newAttempts.isEmpty && w.updatedAttempts.isEmpty
    && w.clearedAttempts.isEmpty && w.newSteps.isEmpty

end Write

namespace Tables

variable {ν : Type}

/-- No rows. -/
def empty : Tables ν := ⟨[], [], [], []⟩

/-- A list of rows with those of one id replaced by a row at the end. -/
def replaceRow {ρ : Type} (id : ρ → String) (rows : List ρ) (row : ρ) : List ρ :=
  rows.filter (fun r => id r != id row) ++ [row]

/-- The tables without the steps of some attempts and without the variables of those steps. -/
def clearSteps (t : Tables ν) (attempts : List String) : Tables ν :=
  let cleared := (t.steps.filter fun s => attempts.contains s.attemptId).map StepRow.id
  { t with
    steps := t.steps.filter fun s => !cleared.contains s.id
    vars := t.vars.filter fun v => !cleared.contains v.stepId }

/-- The tables after a write. -/
def apply (t : Tables ν) (w : Write ν) : Tables ν :=
  let t := match w.usage with
    | some row => { t with usages := replaceRow UsageRow.id t.usages row }
    | none => t
  let t := t.clearSteps w.clearedAttempts
  { t with
    attempts := (w.newAttempts ++ w.updatedAttempts).foldl (replaceRow AttemptRow.id) t.attempts
    steps := t.steps ++ w.newSteps
    vars := t.vars ++ w.newVars }

/-- The ids of the attempts of a usage. -/
def attemptIds (t : Tables ν) (usageId : String) : List String :=
  (t.attempts.filter fun a => a.usageId == usageId).map AttemptRow.id

/-- How many steps are stored of a usage. -/
def stepCount (t : Tables ν) (usageId : String) : Nat :=
  (t.steps.filter fun s => (t.attemptIds usageId).contains s.attemptId).length

/-- The tables without a usage, its attempts, their steps and the variables of those. -/
def delete (t : Tables ν) (usageId : String) : Tables ν :=
  let cleared := t.clearSteps (t.attemptIds usageId)
  { cleared with
    attempts := t.attempts.filter fun a => a.usageId != usageId
    usages := t.usages.filter fun u => u.id != usageId }

/-- Whether a row is the attempt in a slot of one of these usages. -/
def inSlot (usageIds : List String) (slot : Nat) (a : AttemptRow ν) : Bool :=
  a.slot == slot && usageIds.contains a.usageId

/-- The tables with other marks for a slot of some usages. -/
def setMaxMark (t : Tables ν) (usageIds : List String) (slot : Nat) (maxMark : ν) : Tables ν :=
  { t with
    attempts := t.attempts.map fun a =>
      if inSlot usageIds slot a then { a with maxMark := maxMark } else a }

/-- The rows of one usage: its own, its attempts', their steps' and the variables' of those. -/
def rowsOf (t : Tables ν) (row : UsageRow) : Tables ν :=
  let attempts := t.attempts.filter fun a => a.usageId == row.id
  let attemptIds := attempts.map AttemptRow.id
  let steps := t.steps.filter fun s => attemptIds.contains s.attemptId
  let stepIds := steps.map StepRow.id
  ⟨[row], attempts, steps, t.vars.filter fun v => stepIds.contains v.stepId⟩

end Tables
end Assessment
