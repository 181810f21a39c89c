import Assessment.Store.Supply
import Assessment.Store.Tables
import Assessment.Usage.Basic

/-!
# Preparing a save

A save is prepared on the usage itself: rows that have no id get one, the unsaved changes are taken,
and everything to be written is collected in a `Plan`.  Once written, the save is settled; a save that
did not go through is undone, so that the usage can be saved again later.  A plan therefore remembers
what preparing changed.  Preparing can fail at any attempt that is not started, and undoes itself
then.
-/

namespace Assessment

/-- What preparing a save changed on the usage. -/
structure Undo where
  /-- The identity before the save, if the save gave it another. -/
  previousId : Option UsageId
  /-- The slots whose attempt was given an id. -/
  attempts : List Nat
  /-- For each slot, the steps that were given an id. -/
  steps : List (Nat × List Nat)
  /-- The unsaved changes that were taken, if the usage keeps track of them. -/
  taken : Option Changes

/-- What a save writes, and how to undo its preparation. -/
structure Plan (ν : Type) where
  write : Write ν
  undo : Undo

/-- A usage that is being prepared for a save. -/
structure Saving (ν : Type) where
  usage : Usage ν
  supply : Supply
  plan : Plan ν

variable {ν : Type}

namespace Attempt

/-- The row of a started attempt that has an id. -/
def toRow (a : Attempt ν) (questionId : String) : Except Fault (AttemptRow ν) :=
  match a.id with
  | none => .error (.unsavedAttempt a.slot)
  | some id =>
    match a.behaviour, a.minFraction, a.modified with
    | some behaviour, some minFraction, some modified =>
      .ok {
        id := id
        usageId := a.usageId
        slot := a.slot
        questionId := questionId
        behaviour := behaviour.name
        maxMark := a.maxMark
        minFraction := minFraction
        flagged := a.flagged
        questionSummary := a.questionSummary
        rightAnswerSummary := a.rightAnswerSummary
        responseSummary := a.responseSummary
        modified := modified }
    | _, _, _ => .error .notStarted

/-- The steps with an id for each that has none, the supply after them, and the places of those that
were given one. -/
def assignStepIds : Nat → Supply → List (Step ν) → List (Step ν) × Supply × List Nat
  | _, supply, [] => ([], supply, [])
  | index, supply, step :: rest =>
    match step.id with
    | some _ =>
      let (rest, supply, assigned) := assignStepIds (index + 1) supply rest
      (step :: rest, supply, assigned)
    | none =>
      let (id, supply) := supply.takeRowId
      let (rest, supply, assigned) := assignStepIds (index + 1) supply rest
      ({ step with id := some id } :: rest, supply, index :: assigned)

/-- The steps without the ids at some places. -/
def clearStepIds (places : List Nat) (steps : List (Step ν)) : List (Step ν) :=
  steps.zipIdx.map fun s => if places.contains s.2 then { s.1 with id := none } else s.1

/-- The row of a step at a place, under its id. -/
def stepRow (attemptId : String) (index : Nat) (id : String) (step : Step ν) : StepRow ν where
  id := id
  attemptId := attemptId
  index := index
  state := step.state
  fraction := step.fraction
  time := step.time
  actor := step.actor

/-- The rows of the variables of a step. -/
def varRows (stepId : String) (step : Step ν) : List VarRow :=
  step.vars.entries.map fun e => ⟨stepId, e.1, e.2⟩

/-- The steps at some places with their places and ids. -/
def stepsAt (places : List Nat) (steps : List (Step ν)) : List (Nat × String × Step ν) :=
  places.filterMap fun place =>
    steps[place]?.bind fun step => step.id.map fun id => (place, id, step)

end Attempt

namespace Usage

/-- The usage and its attempts under another identity. -/
def withId (u : Usage ν) (id : UsageId) : Usage ν :=
  { u with
    id := id
    attempts := u.attempts.map fun a => { a with usageId := id.text } }

/-- The row of a usage. -/
def toRow (u : Usage ν) : UsageRow := ⟨u.id.text, u.plugin, u.context, u.preferred⟩

end Usage

namespace Undo

/-- The attempt in a slot as it was before the save was prepared. -/
def onAttempt (undo : Undo) (slot : Nat) (a : Attempt ν) : Attempt ν :=
  let a := if undo.attempts.contains slot then { a with id := none } else a
  match undo.steps.find? fun s => s.1 == slot with
  | some (_, places) => { a with steps := Attempt.clearStepIds places a.steps }
  | none => a

/-- The usage as it was before the save was prepared; changes made since then are kept. -/
def apply (undo : Undo) (u : Usage ν) : Usage ν :=
  let u := { u with attempts := u.attempts.map fun a => undo.onAttempt a.slot a }
  let u := match undo.previousId with
    | some id => u.withId id
    | none => u
  match undo.taken with
  | some taken => { u with pending := u.pending.map fun changes => changes.restore taken }
  | none => u

end Undo

namespace Saving

/-- The beginning of a save: a usage that is not stored gets an id, and the unsaved changes are taken.
The row of the usage is written when it is new, when it changed, or when no track was kept. -/
def begin (u : Usage ν) (supply : Supply) : Saving ν :=
  let isNew := !u.id.isStored
  let (u', supply') :=
    if isNew then
      let (id, supply) := supply.takeRowId
      (u.withId (.stored id), supply)
    else (u, supply)
  let writesUsage := isNew || match u.pending with
    | some changes => changes.usageModified
    | none => true
  { usage := { u' with pending := u.pending.map fun _ => Changes.none }
    supply := supply'
    plan :=
      { write :=
          { Write.empty with
            usage := if writesUsage then some u'.toRow else none
            usageIsNew := isNew }
        undo :=
          { previousId := if isNew then some u.id else none
            attempts := []
            steps := []
            taken := u.pending } } }

/-- Prepares the attempt in a slot.  `taken` are the changes that the save writes, if track was
kept. -/
def collect (taken : Option Changes) (slot : Nat) : Op Fault (Saving ν) Unit := fun s =>
  match s.usage.attempts.get? slot with
  | none => ⟨.ok (), s, []⟩
  | some a =>
    let isNew := a.id.isNone
    let (attemptId, supply) := match a.id with
      | some id => (id, s.supply)
      | none => s.supply.takeRowId
    let (steps, supply, assigned) := Attempt.assignStepIds 0 supply a.steps
    let a' : Attempt ν := { a with id := some attemptId, steps := steps }
    let added := Attempt.stepsAt assigned steps
    let changes := taken.getD Changes.none
    let isTouched := taken.isNone || changes.slotsToUpdate.has slot || !assigned.isEmpty
    let undo :=
      { s.plan.undo with
        attempts := if isNew then s.plan.undo.attempts ++ [slot] else s.plan.undo.attempts
        steps :=
          if assigned.isEmpty then s.plan.undo.steps
          else s.plan.undo.steps ++ [(slot, assigned)] }
    let write :=
      { s.plan.write with
        clearedAttempts :=
          if !isNew && changes.stepsDeleted.has slot then
            s.plan.write.clearedAttempts ++ [attemptId]
          else s.plan.write.clearedAttempts
        newSteps :=
          s.plan.write.newSteps ++ added.map fun e => Attempt.stepRow attemptId e.1 e.2.1 e.2.2
        newVars := s.plan.write.newVars ++ added.flatMap fun e => Attempt.varRows e.2.1 e.2.2 }
    let s' : Saving ν :=
      { usage := { s.usage with attempts := s.usage.attempts.insert slot a' }
        supply := supply
        plan := ⟨write, undo⟩ }
    match a'.toRow a'.question.id with
    | .error e => ⟨.error e, s', []⟩
    | .ok row =>
      let write :=
        if isNew then { write with newAttempts := write.newAttempts ++ [row] }
        else if isTouched then { write with updatedAttempts := write.updatedAttempts ++ [row] }
        else write
      ⟨.ok (), { s' with plan := ⟨write, undo⟩ }, []⟩

end Saving

namespace Usage

/-- Prepares a save of the usage.  If an attempt cannot be stored, the usage is left as it was. -/
def prepare : Op Fault (Usage ν × Supply) (Plan ν) := fun us =>
  let start := Saving.begin us.1 us.2
  let r := Op.forEach (Saving.collect us.1.pending) us.1.slots start
  match r.result with
  | .ok () => ⟨.ok r.state.plan, (r.state.usage, r.state.supply), r.events⟩
  | .error e => ⟨.error e, (r.state.plan.undo.apply r.state.usage, r.state.supply), r.events⟩

/-- Undoes the preparation of a save that did not go through. -/
def abort (u : Usage ν) (plan : Plan ν) : Usage ν := plan.undo.apply u

/-- A saved usage keeps track of its changes from now on. -/
def settle (u : Usage ν) : Usage ν :=
  match u.pending with
  | some _ => u
  | none => u.tracking (some Changes.none)

end Usage
end Assessment
