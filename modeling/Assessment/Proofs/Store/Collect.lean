import Assessment.Proofs.Data.SortedMap
import Assessment.Proofs.Op
import Assessment.Store.Save

/-!
# Collecting an attempt for a save

`Saving.collect` numbers an attempt: it gives an id to the attempt and to each of its steps that has
none (`Attempt.numbered`), and remembers to whom.  This module says once what it does to the usage, to
the supply of ids and to the plan (`Saving.collect_of_some`, and for the success alone
`Saving.collect_cases`), and what it does of that also when the attempt cannot be stored in the end
(`Saving.collect_keeps`).  A save that is prepared has what collecting keeps (`Saving.prepare_keeps`).

Numbering changes ids and nothing else, and it can be taken back: clearing the ids that were given
restores the steps (`Attempt.clearStepIds_assignStepIds`).
-/

namespace Assessment

variable {ν : Type}

namespace Attempt

/-! ## Numbering steps -/

/-- Every step has an id after the numbering. -/
lemma isSome_of_mem_assignStepIds {index : Nat} {supply : Supply} {steps : List (Step ν)} :
    ∀ step ∈ (assignStepIds index supply steps).1, step.id.isSome = true := by
  induction steps generalizing index supply with
  | nil => simp [assignStepIds]
  | cons step rest ih =>
    unfold assignStepIds
    cases hid : step.id with
    | some id => simpa [hid] using ih
    | none => simpa [Supply.takeRowId] using ih

/-- Steps that all have an id are left alone. -/
lemma assignStepIds_of_isSome {index : Nat} {supply : Supply} {steps : List (Step ν)}
    (h : ∀ step ∈ steps, step.id.isSome = true) :
    assignStepIds index supply steps = (steps, supply, []) := by
  induction steps generalizing index with
  | nil => rfl
  | cons step rest ih =>
    obtain ⟨id, hid⟩ := Option.isSome_iff_exists.1 (h step List.mem_cons_self)
    simp only [assignStepIds, hid, ih fun s hs => h s (List.mem_cons_of_mem _ hs)]

/-- Only steps without an id are given one. -/
lemma assignStepIds_places_eq_nil {index : Nat} {supply : Supply} {steps : List (Step ν)}
    (h : (assignStepIds index supply steps).2.2 = []) :
    ∀ step ∈ steps, step.id.isSome = true := by
  induction steps generalizing index supply with
  | nil => simp
  | cons step rest ih =>
    unfold assignStepIds at h
    cases hid : step.id with
    | some id =>
      simp only [hid] at h
      exact List.forall_mem_cons.2 ⟨by simp [hid], ih h⟩
    | none => simp [hid] at h

/-- The numbering reads and writes nothing but ids. -/
lemma mem_assignStepIds {index : Nat} {supply : Supply} {steps : List (Step ν)} :
    ∀ step ∈ (assignStepIds index supply steps).1, ∃ step' ∈ steps, ∃ id,
      step = { step' with id := id } := by
  induction steps generalizing index supply with
  | nil => simp [assignStepIds]
  | cons step rest ih =>
    intro step' hstep'
    unfold assignStepIds at hstep'
    cases hid : step.id with
    | some id =>
      simp only [hid] at hstep'
      rcases List.mem_cons.1 hstep' with rfl | hrest
      · exact ⟨step', List.mem_cons_self, step'.id, rfl⟩
      · obtain ⟨s, hs, id', heq⟩ := ih step' hrest
        exact ⟨s, List.mem_cons_of_mem _ hs, id', heq⟩
    | none =>
      simp only [hid] at hstep'
      rcases List.mem_cons.1 hstep' with rfl | hrest
      · exact ⟨step, List.mem_cons_self, _, rfl⟩
      · obtain ⟨s, hs, id', heq⟩ := ih step' hrest
        exact ⟨s, List.mem_cons_of_mem _ hs, id', heq⟩

@[simp] lemma length_assignStepIds {index : Nat} {supply : Supply} {steps : List (Step ν)} :
    (assignStepIds index supply steps).1.length = steps.length := by
  induction steps generalizing index supply with
  | nil => rfl
  | cons step rest ih =>
    unfold assignStepIds
    cases step.id <;> simp [ih]

lemma le_of_mem_assignStepIds_places {index : Nat} {supply : Supply} {steps : List (Step ν)} :
    ∀ place ∈ (assignStepIds index supply steps).2.2, index ≤ place := by
  induction steps generalizing index supply with
  | nil => simp [assignStepIds]
  | cons step rest ih =>
    intro place hplace
    unfold assignStepIds at hplace
    cases hid : step.id with
    | some id =>
      simp only [hid] at hplace
      have := ih place hplace
      omega
    | none =>
      simp only [hid] at hplace
      rcases List.mem_cons.1 hplace with rfl | hrest
      · exact Nat.le_refl _
      · have := ih place hrest
        omega

/-- Clearing the ids at the places that were given one takes the numbering back. -/
lemma clear_assignStepIds (index : Nat) (supply : Supply) (steps : List (Step ν)) :
    (((assignStepIds index supply steps).1.zipIdx index).map fun s =>
      if (assignStepIds index supply steps).2.2.contains s.2 then { s.1 with id := none } else s.1) =
    steps := by
  induction steps generalizing index supply with
  | nil => rfl
  | cons step rest ih =>
    cases hid : step.id with
    | some id =>
      have hnot : index ∉ (assignStepIds (index + 1) supply rest).2.2 := fun h => by
        have := le_of_mem_assignStepIds_places index h
        omega
      simp only [assignStepIds, hid, List.zipIdx_cons, List.map_cons, List.contains_iff_mem, hnot,
        if_false]
      simp only [List.contains_iff_mem] at ih
      rw [ih]
    | none =>
      simp only [assignStepIds, hid, List.zipIdx_cons, List.map_cons, List.contains_iff_mem,
        List.mem_cons, true_or, if_true]
      congr 1
      · cases step
        simp_all
      · -- later places are not the first one
        refine Eq.trans (List.map_congr_left fun s hs => ?_)
          (ih (index + 1) (supply.takeRowId).2)
        have hlt : s.2 ≠ index := by
          have := List.le_snd_of_mem_zipIdx hs
          omega
        simp [hlt]

lemma clearStepIds_assignStepIds (supply : Supply) (steps : List (Step ν)) :
    clearStepIds (assignStepIds 0 supply steps).2.2 (assignStepIds 0 supply steps).1 = steps :=
  clear_assignStepIds 0 supply steps

/-! ## Numbering an attempt -/

/-- The id of the attempt, or one from the supply. -/
def takeId (a : Attempt ν) (supply : Supply) : String × Supply :=
  match a.id with
  | some id => (id, supply)
  | none => supply.takeRowId

/-- The steps with ids, the supply after them, and the places that were given one. -/
def numbering (a : Attempt ν) (supply : Supply) : List (Step ν) × Supply × List Nat :=
  assignStepIds 0 (a.takeId supply).2 a.steps

/-- The attempt with an id for itself and for each of its steps. -/
def numbered (a : Attempt ν) (supply : Supply) : Attempt ν :=
  { a with id := some (a.takeId supply).1, steps := (a.numbering supply).1 }

/-- The steps that are given an id, with their places and ids. -/
def addedSteps (a : Attempt ν) (supply : Supply) : List (Nat × String × Step ν) :=
  stepsAt (a.numbering supply).2.2 (a.numbering supply).1

/-- When no step is given an id, the steps and the supply stay. -/
lemma numbering_of_places_eq_nil {a : Attempt ν} {supply : Supply}
    (h : (a.numbering supply).2.2 = []) :
    a.numbering supply = (a.steps, (a.takeId supply).2, []) :=
  assignStepIds_of_isSome (assignStepIds_places_eq_nil h)

/-- An attempt that has all its ids is left alone. -/
lemma numbered_eq_self {a : Attempt ν} {id : String} (hid : a.id = some id) {supply : Supply}
    (h : (a.numbering supply).2.2 = []) : a.numbered supply = a := by
  have htaken : (a.takeId supply).1 = id := by simp [takeId, hid]
  rw [numbered, numbering_of_places_eq_nil h, htaken, ← hid]

/-- An attempt that has an id, as each of its steps has. -/
structure IsNumbered (a : Attempt ν) : Prop where
  id : a.id.isSome = true
  steps : ∀ step ∈ a.steps, step.id.isSome = true

lemma isNumbered_numbered (a : Attempt ν) (supply : Supply) : (a.numbered supply).IsNumbered :=
  ⟨rfl, isSome_of_mem_assignStepIds⟩

lemma IsNumbered.numbering_eq {a : Attempt ν} (h : a.IsNumbered) (supply : Supply) :
    a.numbering supply = (a.steps, (a.takeId supply).2, []) :=
  assignStepIds_of_isSome h.steps

/-- So it keeps them. -/
lemma IsNumbered.numbered_eq {a : Attempt ν} (h : a.IsNumbered) (supply : Supply) :
    a.numbered supply = a := by
  obtain ⟨id, hid⟩ := Option.isSome_iff_exists.1 h.id
  exact numbered_eq_self hid (congrArg (fun n => n.2.2) (h.numbering_eq supply))

end Attempt

/-! ## Undoing -/

/-- The places of the steps of a slot whose ids are cleared. -/
def Undo.placesOf (undo : Undo) (slot : Nat) : List Nat :=
  ((undo.steps.find? fun s => s.1 == slot).map Prod.snd).getD []

@[simp] lemma Attempt.clearStepIds_nil (steps : List (Step ν)) : clearStepIds [] steps = steps := by
  simp [clearStepIds, List.zipIdx_map_fst]

/-- Undoing takes ids from an attempt and from its steps. -/
lemma Undo.onAttempt_eq (undo : Undo) (slot : Nat) (a : Attempt ν) :
    undo.onAttempt slot a =
      { a with
        id := if undo.attempts.contains slot then none else a.id
        steps := Attempt.clearStepIds (undo.placesOf slot) a.steps } := by
  unfold onAttempt placesOf
  cases undo.steps.find? fun s => s.1 == slot with
  | none => split <;> simp
  | some e => split <;> simp

/-! ## The beginning of a save -/

lemma UsageId.exists_eq_stored {id : UsageId} (h : id.isStored = true) : ∃ text, id = .stored text := by
  cases id with
  | stored text => exact ⟨text, rfl⟩
  | ephemeral token => cases h

namespace Saving

/-- A save of a stored usage takes its changes. -/
lemma begin_of_stored {u : Usage ν} {id : String} (h : u.id = .stored id) (supply : Supply) :
    begin u supply =
      { usage := { u with pending := u.pending.map fun _ => Changes.none }
        supply := supply
        plan :=
          { write :=
              { Write.empty with
                usage := if u.pending.all Changes.usageModified then some u.toRow else none }
            undo := ⟨none, [], [], u.pending⟩ } } := by
  cases u with | mk id' plugin context preferred attempts registry pending =>
    cases pending <;> simp_all [begin, UsageId.isStored, Write.empty]

/-- A save of a usage that is not stored gives it an id besides. -/
lemma begin_of_ephemeral {u : Usage ν} {token : String} (h : u.id = .ephemeral token)
    (supply : Supply) :
    begin u supply =
      { usage :=
          { u.withId (.stored (supply.rowId supply.issued)) with
            pending := u.pending.map fun _ => Changes.none }
        supply := supply.next
        plan :=
          { write :=
              { Write.empty with
                usage := some (u.withId (.stored (supply.rowId supply.issued))).toRow
                usageIsNew := true }
            undo := ⟨some u.id, [], [], u.pending⟩ } } := by
  cases u with | mk id' plugin context preferred attempts registry pending =>
    simp_all [begin, UsageId.isStored, Supply.takeRowId]

/-! ## Collecting -/

open Attempt

/-- The record of what was undone, with the numbering of an attempt remembered. -/
def undoWith (s : Saving ν) (slot : Nat) (a : Attempt ν) : Undo :=
  { s.plan.undo with
    attempts := if a.id.isNone then s.plan.undo.attempts ++ [slot] else s.plan.undo.attempts
    steps :=
      if (a.numbering s.supply).2.2.isEmpty then s.plan.undo.steps
      else s.plan.undo.steps ++ [(slot, (a.numbering s.supply).2.2)] }

/-- What is to be written, with the steps of an attempt collected. -/
def writeWith (s : Saving ν) (taken : Option Changes) (slot : Nat) (a : Attempt ν) : Write ν :=
  let attemptId := (a.takeId s.supply).1
  { s.plan.write with
    clearedAttempts :=
      if !a.id.isNone && (taken.getD Changes.none).stepsDeleted.has slot then
        s.plan.write.clearedAttempts ++ [attemptId]
      else s.plan.write.clearedAttempts
    newSteps :=
      s.plan.write.newSteps ++
        (a.addedSteps s.supply).map fun e => stepRow attemptId e.1 e.2.1 e.2.2
    newVars :=
      s.plan.write.newVars ++ (a.addedSteps s.supply).flatMap fun e => varRows e.2.1 e.2.2 }

/-- Whether the row of an attempt has to be written again. -/
def touches (s : Saving ν) (taken : Option Changes) (slot : Nat) (a : Attempt ν) : Bool :=
  taken.isNone || (taken.getD Changes.none).slotsToUpdate.has slot ||
    !(a.numbering s.supply).2.2.isEmpty

/-- The save with the row of an attempt collected. -/
def writeRow (w : Write ν) (isNew isTouched : Bool) (row : AttemptRow ν) : Write ν :=
  if isNew then { w with newAttempts := w.newAttempts ++ [row] }
  else if isTouched then { w with updatedAttempts := w.updatedAttempts ++ [row] }
  else w

/-- The save after an attempt was numbered and its steps were collected. -/
def collected (s : Saving ν) (taken : Option Changes) (slot : Nat) (a : Attempt ν) : Saving ν where
  usage := { s.usage with attempts := s.usage.attempts.insert slot (a.numbered s.supply) }
  supply := (a.numbering s.supply).2.1
  plan := ⟨s.writeWith taken slot a, s.undoWith slot a⟩

variable {taken : Option Changes} {slot : Nat} {s : Saving ν}

lemma collect_of_none (h : s.usage.attempts.get? slot = none) :
    collect taken slot s = ⟨.ok (), s, []⟩ := by
  simp only [collect, h]

/-- What collecting an attempt does. -/
lemma collect_of_some {a : Attempt ν} (h : s.usage.attempts.get? slot = some a) :
    collect taken slot s =
      match (a.numbered s.supply).toRow a.question.id with
      | .error e => ⟨.error e, s.collected taken slot a, []⟩
      | .ok row =>
        ⟨.ok (),
          { s.collected taken slot a with
            plan :=
              ⟨writeRow (s.writeWith taken slot a) a.id.isNone (s.touches taken slot a) row,
                s.undoWith slot a⟩ }, []⟩ := by
  simp only [collect, h]
  rfl

/-- Whether the attempt can be stored or not, it is numbered and this can be undone. -/
lemma collect_keeps (taken : Option Changes) {a : Attempt ν}
    (h : s.usage.attempts.get? slot = some a) :
    (collect taken slot s).state.usage = (s.collected taken slot a).usage ∧
      (collect taken slot s).state.supply = (s.collected taken slot a).supply ∧
      (collect taken slot s).state.plan.undo = s.undoWith slot a := by
  rw [collect_of_some h]
  cases (a.numbered s.supply).toRow a.question.id <;> exact ⟨rfl, rfl, rfl⟩

/-- What collecting the attempt in a slot does when it succeeds: there is none, or it can be stored. -/
lemma collect_cases (hok : (collect taken slot s).result = .ok ()) :
    (s.usage.attempts.get? slot = none ∧ (collect taken slot s).state = s) ∨
      ∃ a row, s.usage.attempts.get? slot = some a ∧
        (a.numbered s.supply).toRow a.question.id = .ok row ∧
        (collect taken slot s).state =
          { s.collected taken slot a with
            plan :=
              ⟨writeRow (s.writeWith taken slot a) a.id.isNone (s.touches taken slot a) row,
                s.undoWith slot a⟩ } := by
  cases ha : s.usage.attempts.get? slot with
  | none => exact .inl ⟨rfl, by rw [collect_of_none ha]⟩
  | some a =>
    rw [collect_of_some ha] at hok ⊢
    cases hrow : (a.numbered s.supply).toRow a.question.id with
    | error e =>
      rw [hrow] at hok
      cases hok
    | ok row => exact .inr ⟨a, row, rfl, hrow, rfl⟩

/-- An attempt that has an id has it still when one is numbered. -/
lemma exists_id_insert {a : Attempt ν} (ha : s.usage.attempts.get? slot = some a) {slot' : Nat}
    {id : String} (h : ∃ b, s.usage.attempts.get? slot' = some b ∧ b.id = some id) :
    ∃ b, (s.usage.attempts.insert slot (a.numbered s.supply)).get? slot' = some b ∧
      b.id = some id := by
  obtain ⟨b, hb, hid⟩ := h
  by_cases heq : slot' = slot
  · subst heq
    obtain rfl := Option.some.inj (ha.symm.trans hb)
    exact ⟨_, SortedMap.get?_insert_self _ _ _, by simp [Attempt.numbered, Attempt.takeId, hid]⟩
  · exact ⟨b, (SortedMap.get?_insert_of_ne _ heq _).trans hb, hid⟩

/-! ## Prepared saves -/

variable {u : Usage ν} {supply : Supply} {plan : Plan ν}

/-- A save that is prepared has collected the slots one by one. -/
lemma prepare_of_ok (hok : (Usage.prepare (u, supply)).result = .ok plan) :
    (Op.forEach (collect u.pending) u.slots (begin u supply)).result = .ok () ∧
      (⟨(Usage.prepare (u, supply)).state.1, (Usage.prepare (u, supply)).state.2, plan⟩ : Saving ν) =
        (Op.forEach (collect u.pending) u.slots (begin u supply)).state := by
  unfold Usage.prepare at hok ⊢
  simp only at hok ⊢
  split at hok
  · rename_i hloop
    cases hok
    exact ⟨hloop, rfl⟩
  · cases hok

/-- What holds at the beginning and is kept by collecting holds of a save that is prepared. -/
lemma prepare_keeps {P : Saving ν → Prop} (hbegin : P (begin u supply))
    (hcollect : ∀ slot ∈ u.slots, ∀ s, P s → (collect u.pending slot s).result = .ok () →
      P (collect u.pending slot s).state)
    (hok : (Usage.prepare (u, supply)).result = .ok plan) :
    P ⟨(Usage.prepare (u, supply)).state.1, (Usage.prepare (u, supply)).state.2, plan⟩ := by
  obtain ⟨hloop, hstate⟩ := prepare_of_ok hok
  rw [hstate]
  exact Op.forEach_keeps_of_ok hcollect hbegin hloop

end Saving
end Assessment
