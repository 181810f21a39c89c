import Assessment.Proofs.Store.Reread

/-!
# The order of rows

A usage is assembled from three lists of rows, and the order of no list matters
(`Usage.assemble_ignores_order`).  What makes this so is that the rows can be told apart
(`DistinctRows`): two steps of one attempt have different places, so there is one way to put them in
order, and where two rows have no key in common it does not matter which of them comes first.

What each row becomes follows from the rows alone.  An attempt has just the steps whose rows name it,
in the order of their places, and a step has just the variables of its rows (`Step.Restores`).
-/

namespace Assessment

variable {ν : Type}

/-- Rows of attempts, steps and variables no two of which are taken for each other. -/
structure DistinctRows (attempts : List (AttemptRow ν)) (steps : List (StepRow ν))
    (vars : List VarRow) : Prop where
  attemptIds : (attempts.map AttemptRow.id).Nodup
  slots : (attempts.map AttemptRow.slot).Nodup
  stepIds : (steps.map StepRow.id).Nodup
  places : (steps.map fun r => (r.attemptId, r.index)).Nodup
  names : (vars.map fun v => (v.stepId, v.name)).Nodup

/-- A step that is made of a row: it is recorded, and has just the variables of the rows that name it. -/
structure Step.Restores (vars : List VarRow) (r : StepRow ν) (step : Step ν) : Prop where
  row : step = Step.ofRow r step.vars
  readOnly : step.readOnly = true
  vars : ∀ name value, step.vars.get? name = some value ↔ ⟨r.id, name, value⟩ ∈ vars

lemma DistinctRows.perm {attempts attempts' : List (AttemptRow ν)} {steps steps' : List (StepRow ν)}
    {vars vars' : List VarRow} (h : DistinctRows attempts steps vars)
    (hattempts : attempts'.Perm attempts) (hsteps : steps'.Perm steps) (hvars : vars'.Perm vars) :
    DistinctRows attempts' steps' vars' where
  attemptIds := (hattempts.map _).nodup_iff.2 h.attemptIds
  slots := (hattempts.map _).nodup_iff.2 h.slots
  stepIds := (hsteps.map _).nodup_iff.2 h.stepIds
  places := (hsteps.map _).nodup_iff.2 h.places
  names := (hvars.map _).nodup_iff.2 h.names

namespace Tables

/-! ## Variables -/

/-- The variables that the rows give to a step. -/
def varsFor (vars : List VarRow) (stepId : String) : Vars :=
  SortedMap.ofList ((vars.filter fun v => v.stepId == stepId).map fun v => (v.name, v.value))

/-- A step has a variable when there is a row for it. -/
lemma get?_varsFor {vars : List VarRow} (h : (vars.map fun v => (v.stepId, v.name)).Nodup)
    {stepId name value : String} :
    (varsFor vars stepId).get? name = some value ↔ ⟨stepId, name, value⟩ ∈ vars := by
  have hmem : ∀ {name value}, (name, value) ∈ ((vars.filter fun v => v.stepId == stepId).map
      fun v => (v.name, v.value)) ↔ ⟨stepId, name, value⟩ ∈ vars := by
    intro name value
    rw [List.mem_map]
    constructor
    · rintro ⟨v, hv, heq⟩
      obtain ⟨hrow, hid⟩ := List.mem_filter.1 hv
      obtain rfl : v.stepId = stepId := by simpa using hid
      obtain ⟨rfl, rfl⟩ := Prod.mk.inj heq
      exact hrow
    · exact fun hv => ⟨⟨stepId, name, value⟩, List.mem_filter.2 ⟨hv, by simp⟩, rfl⟩
  rw [varsFor, SortedMap.get?_ofList_eq_some_iff, hmem]
  intro name value value' hvalue hvalue'
  have heq := List.inj_on_of_nodup_map h (hmem.1 hvalue) (hmem.1 hvalue') rfl
  exact congrArg VarRow.value heq

/-- The order of the rows of variables does not matter. -/
lemma varsFor_eq_of_perm {vars vars' : List VarRow}
    (h : (vars.map fun v => (v.stepId, v.name)).Nodup) (hperm : vars'.Perm vars) :
    varsFor vars' = varsFor vars := by
  funext stepId
  apply SortedMap.ext_get?
  intro name
  apply Option.ext
  intro value
  rw [get?_varsFor h, get?_varsFor ((hperm.map _).nodup_iff.2 h), hperm.mem_iff]

/-! ## Steps -/

/-- The rows of the steps of an attempt in the order of their places. -/
def stepsInOrder (steps : List (StepRow ν)) (attemptId : String) : List (StepRow ν) :=
  (steps.mergeSort fun r r' => r.index ≤ r'.index).filter fun r => r.attemptId == attemptId

lemma stepsInOrder_perm (steps : List (StepRow ν)) (attemptId : String) :
    (stepsInOrder steps attemptId).Perm (steps.filter fun r => r.attemptId == attemptId) :=
  (List.mergeSort_perm steps _).filter _

/-- Two steps of an attempt have different places, so the later one has the greater place. -/
lemma pairwise_stepsInOrder {steps : List (StepRow ν)}
    (h : (steps.map fun r => (r.attemptId, r.index)).Nodup) (attemptId : String) :
    (stepsInOrder steps attemptId).Pairwise fun r r' => r.index < r'.index := by
  have hsorted : (steps.mergeSort fun r r' => r.index ≤ r'.index).Pairwise
      fun r r' => decide (r.index ≤ r'.index) = true := by
    refine List.pairwise_mergeSort (fun a b c hab hbc => ?_) (fun a b => ?_) steps
    · simp only [decide_eq_true_eq] at hab hbc ⊢
      omega
    · simp only [Bool.or_eq_true, decide_eq_true_eq]
      omega
  have hdistinct : (steps.mergeSort fun r r' => r.index ≤ r'.index).Pairwise
      fun r r' => (r.attemptId, r.index) ≠ (r'.attemptId, r'.index) :=
    List.pairwise_map.1 (((List.mergeSort_perm steps _).map _).nodup_iff.2 h)
  refine ((hsorted.and hdistinct).filter _).imp_of_mem fun {r r'} hr hr' hboth => ?_
  obtain ⟨hle, hne⟩ := hboth
  have hattempt : r.attemptId = r'.attemptId := by
    simpa using (beq_iff_eq.1 (List.mem_filter.1 hr).2).trans
      (beq_iff_eq.1 (List.mem_filter.1 hr').2).symm
  have hplace : r.index ≠ r'.index := fun heq => hne (by rw [hattempt, heq])
  exact lt_of_le_of_ne (of_decide_eq_true hle) hplace

/-- The order of the rows of steps does not matter. -/
lemma stepsInOrder_eq_of_perm {steps steps' : List (StepRow ν)}
    (h : (steps.map fun r => (r.attemptId, r.index)).Nodup) (hperm : steps'.Perm steps) :
    stepsInOrder steps' = stepsInOrder steps := by
  funext attemptId
  refine List.Perm.eq_of_pairwise (fun r r' _ _ hlt hgt => absurd hlt (Nat.lt_asymm hgt))
    (pairwise_stepsInOrder ((hperm.map _).nodup_iff.2 h) attemptId)
    (pairwise_stepsInOrder h attemptId) ?_
  exact (stepsInOrder_perm steps' attemptId).trans
    ((hperm.filter _).trans (stepsInOrder_perm steps attemptId).symm)

/-- The steps that an attempt gets. -/
def stepsFor (steps : List (StepRow ν)) (vars : List VarRow) (attemptId : String) : List (Step ν) :=
  (stepsInOrder steps attemptId).map fun r => Step.ofRow r (varsFor vars r.id)

/-- Each of the steps is made of its row. -/
lemma restores_stepsFor (steps : List (StepRow ν)) {vars : List VarRow}
    (h : (vars.map fun v => (v.stepId, v.name)).Nodup) (attemptId : String) :
    List.Forall₂ (Step.Restores vars) (stepsInOrder steps attemptId)
      (stepsFor steps vars attemptId) := by
  rw [stepsFor, List.forall₂_map_right_iff, List.forall₂_same]
  exact fun r _ => ⟨rfl, rfl, fun name value => get?_varsFor h⟩

/-- The steps that are stored for an attempt. -/
lemma filter_orderedSteps_eq {steps : List (StepRow ν)} (h : (steps.map StepRow.id).Nodup)
    (vars : List VarRow) (attemptId : String) :
    ((orderedSteps steps vars).filter fun e => e.1 == attemptId).map Prod.snd =
      stepsFor steps vars attemptId :=
  filter_orderedSteps h attemptId

end Tables

/-! ## Attempts -/

section

variable {attempts : List (AttemptRow ν)} {steps : List (StepRow ν)} {vars : List VarRow}

/-- Where slots are unique, the last row in a slot is the row in it. -/
lemma lastRow_eq_some_iff (h : (attempts.map AttemptRow.slot).Nodup) {slot : Nat}
    {r : AttemptRow ν} : lastRow attempts slot = some r ↔ r ∈ attempts ∧ r.slot = slot := by
  refine ⟨of_lastRow, ?_⟩
  rintro ⟨hr, rfl⟩
  obtain ⟨r', hr'⟩ := exists_lastRow hr
  obtain ⟨hmem, hslot⟩ := of_lastRow hr'
  rw [hr', List.inj_on_of_nodup_map h hmem hr hslot]

/-- The order of the rows of attempts does not matter for the row in a slot. -/
lemma lastRow_eq_of_perm {attempts' : List (AttemptRow ν)} (h : (attempts.map AttemptRow.slot).Nodup)
    (hperm : attempts'.Perm attempts) (slot : Nat) : lastRow attempts' slot = lastRow attempts slot := by
  apply Option.ext
  intro r
  rw [lastRow_eq_some_iff h, lastRow_eq_some_iff ((hperm.map _).nodup_iff.2 h), hperm.mem_iff]

/-- The order of the rows of steps and of variables does not matter for the attempt of a row. -/
lemma DistinctRows.make_eq_of_perm (h : DistinctRows attempts steps vars)
    {steps' : List (StepRow ν)} {vars' : List VarRow} (hsteps : steps'.Perm steps)
    (hvars : vars'.Perm vars) (questions : SortedMap String (Question ν)) (registry : Registry)
    (preferred : String) :
    AttemptRow.make questions registry preferred (Tables.orderedSteps steps' vars') =
      AttemptRow.make questions registry preferred (Tables.orderedSteps steps vars) := by
  funext r
  have hids : (steps'.map StepRow.id).Nodup := (hsteps.map _).nodup_iff.2 h.stepIds
  rw [AttemptRow.make, AttemptRow.make, Tables.filter_orderedSteps_eq hids,
    Tables.filter_orderedSteps_eq h.stepIds, Tables.stepsFor, Tables.stepsFor,
    Tables.stepsInOrder_eq_of_perm h.places hsteps, Tables.varsFor_eq_of_perm h.names hvars]

/-- The attempt of a row whose question is there. -/
lemma DistinctRows.make_eq (h : DistinctRows attempts steps vars)
    {questions : SortedMap String (Question ν)} {r : AttemptRow ν} {question : Question ν}
    (hquestion : questions.get? r.questionId = some question) (registry : Registry)
    (preferred : String) :
    r.make questions registry preferred (Tables.orderedSteps steps vars) =
      some (Attempt.ofRow r question (registry.makeOrMissing r.behaviour preferred)
        (Tables.stepsFor steps vars r.id)) := by
  rw [AttemptRow.make, hquestion, Option.map_some, Tables.filter_orderedSteps_eq h.stepIds]

end

/-! ## Usages -/

namespace Usage

variable {σ : Type} {attempts : List (AttemptRow ν)} {steps : List (StepRow ν)} {vars : List VarRow}
  {bank : Bank ν}

/-- Rows whose questions are in the bank make a usage, with the attempts of its rows. -/
lemma exists_assemble (row : UsageRow) (h : DistinctRows attempts steps vars)
    (hbank : ∀ r ∈ attempts, ∃ question, bank.questions.get? r.questionId = some question)
    (registry : Registry) (s : σ) :
    ∃ made, (assemble row attempts steps vars bank registry s).result =
        .ok (restore row made registry true) ∧
      attempts.map (AttemptRow.make bank.questions registry row.preferred
        (Tables.orderedSteps steps vars)) = made.map some := by
  have hmake : ∀ r ∈ attempts, ∃ a, AttemptRow.make bank.questions registry row.preferred
      (Tables.orderedSteps steps vars) r = some a := fun r hr => by
    obtain ⟨question, hquestion⟩ := hbank r hr
    exact ⟨_, h.make_eq hquestion registry row.preferred⟩
  obtain ⟨made, hmade⟩ := exists_map_some hmake
  exact ⟨made, (assemble_eq_ok_iff h.attemptIds).2 ⟨made, hmade, rfl⟩, hmade⟩

/-- Usages that are restored of the same rows in some order are equal. -/
lemma restore_eq_of_perm (row : UsageRow) (h : DistinctRows attempts steps vars)
    {attempts' : List (AttemptRow ν)} (hattempts : attempts'.Perm attempts)
    {stored : List (String × Assessment.Step ν)} {registry : Registry} {made made' : List (Attempt ν)}
    (hmade : attempts.map (AttemptRow.make bank.questions registry row.preferred stored) =
      made.map some)
    (hmade' : attempts'.map (AttemptRow.make bank.questions registry row.preferred stored) =
      made'.map some) : restore row made' registry true = restore row made registry true := by
  have hsame : (restore row made' registry true).attempts = (restore row made registry true).attempts := by
    apply SortedMap.ext_get?
    intro slot
    apply Option.map_injective (Option.some_injective _)
    rw [get?_restore hmade slot, get?_restore hmade' slot, lastRow_eq_of_perm h.slots hattempts]
  calc restore row made' registry true
      = { restore row made registry true with
          attempts := (restore row made' registry true).attempts } := rfl
    _ = restore row made registry true := by rw [hsame]

/-- Rows that can be told apart and whose questions are in the bank make the same usage in whatever
order they come.  It has an attempt for each row and no other; the steps of the attempt are made of the
rows that name it, in the order of their places; and nothing is left to save. -/
theorem assemble_ignores_order (row : UsageRow) (h : DistinctRows attempts steps vars)
    (hbank : ∀ r ∈ attempts, ∃ question, bank.questions.get? r.questionId = some question)
    (registry : Registry) (s : σ) :
    ∃ u, (assemble row attempts steps vars bank registry s).result = .ok u ∧
      (∀ attempts' steps' vars', attempts'.Perm attempts → steps'.Perm steps → vars'.Perm vars →
        (assemble row attempts' steps' vars' bank registry s).result = .ok u) ∧
      u.toRow = row ∧ u.id.isStored = true ∧ u.registry = registry ∧ u.pending = some Changes.none ∧
      (∀ slot, slot ∈ u.slots ↔ ∃ r ∈ attempts, r.slot = slot) ∧
      ∀ r ∈ attempts, ∃ question rows own,
        bank.questions.get? r.questionId = some question ∧
        u.attempts.get? r.slot = some ((Attempt.ofRow r question
          (registry.makeOrMissing r.behaviour row.preferred) own).observedBy u.observer) ∧
        rows.Perm (steps.filter fun x => x.attemptId == r.id) ∧
        rows.Pairwise (fun x x' => x.index < x'.index) ∧
        List.Forall₂ (Assessment.Step.Restores vars) rows own := by
  obtain ⟨made, hok, hmade⟩ := exists_assemble row h hbank registry s
  have hget := get?_restore hmade
  have hrow : ∀ r ∈ attempts, ∀ question, bank.questions.get? r.questionId = some question →
      (restore row made registry true).attempts.get? r.slot =
        some ((Attempt.ofRow r question (registry.makeOrMissing r.behaviour row.preferred)
          (Tables.stepsFor steps vars r.id)).observedBy .changes) := by
    intro r hr question hquestion
    have hlast : lastRow attempts r.slot = some r := (lastRow_eq_some_iff h.slots).2 ⟨hr, rfl⟩
    apply Option.map_injective (Option.some_injective _)
    rw [hget r.slot, hlast, Option.map_some, Option.map_some, AttemptRow.loaded, h.make_eq hquestion]
    rfl
  refine ⟨restore row made registry true, hok, ?_, rfl, rfl, rfl, rfl, fun slot => ?_, fun r hr => ?_⟩
  · intro attempts' steps' vars' hattempts hsteps hvars
    have hbank' : ∀ r ∈ attempts', ∃ question, bank.questions.get? r.questionId = some question :=
      fun r hr => hbank r (hattempts.mem_iff.1 hr)
    obtain ⟨made', hok', hmade'⟩ :=
      exists_assemble row (h.perm hattempts hsteps hvars) hbank' registry s
    rw [h.make_eq_of_perm hsteps hvars] at hmade'
    rw [hok', restore_eq_of_perm row h hattempts hmade hmade']
  · rw [slots, SortedMap.mem_keys_iff]
    constructor
    · rintro ⟨a, ha⟩
      have hlast := hget slot
      rw [ha, Option.map_some] at hlast
      obtain ⟨r, hr, -⟩ := Option.map_eq_some_iff.1 hlast.symm
      exact ⟨r, of_lastRow hr⟩
    · rintro ⟨r, hr, rfl⟩
      obtain ⟨question, hquestion⟩ := hbank r hr
      exact ⟨_, hrow r hr question hquestion⟩
  · obtain ⟨question, hquestion⟩ := hbank r hr
    exact ⟨question, Tables.stepsInOrder steps r.id, Tables.stepsFor steps vars r.id, hquestion,
      hrow r hr question hquestion, Tables.stepsInOrder_perm steps r.id,
      Tables.pairwise_stepsInOrder h.places r.id, Tables.restores_stepsFor steps h.names r.id⟩

/-- Two attempts, one with two steps that come in the wrong order, with everything turned round. -/
theorem assemble_ignores_order_reversed :
    let row : UsageRow := ⟨"u", "quiz", "course", "deferredfeedback"⟩
    let attempt (id : String) (slot : Nat) : AttemptRow Float :=
      ⟨id, "u", slot, "tf", "deferredfeedback", 1.0, 0.0, false, none, none, none, ⟨0⟩⟩
    let step (id attemptId : String) (index : Nat) : StepRow Float :=
      ⟨id, attemptId, index, .todo, none, ⟨0⟩, none⟩
    let attempts := [attempt "a" 1, attempt "b" 2]
    let steps := [step "s" "a" 1, step "t" "b" 0, step "r" "a" 0]
    let vars : List VarRow := [⟨"s", "answer", "1"⟩, ⟨"t", "answer", "0"⟩]
    let bank : Bank Float := .memory (SortedMap.ofList
      [("tf", .trueFalse (TrueFalse.new "tf" "The sky is blue" true))])
    ∃ u, (assemble row attempts steps vars bank Registry.standard ()).result = .ok u ∧
      (assemble row attempts.reverse steps.reverse vars.reverse bank Registry.standard ()).result =
        .ok u ∧
      ∃ a, u.attempts.get? 1 = some a ∧ a.steps.length = 2 := by
  intro row attempt step attempts steps vars bank
  have hrows : DistinctRows attempts steps vars :=
    ⟨by decide +kernel, by decide +kernel, by decide +kernel, by decide +kernel, by decide +kernel⟩
  have hbank : ∀ r ∈ attempts, (bank.questions.get? r.questionId).isSome = true := by
    decide +kernel
  obtain ⟨u, hok, hsame, -, -, -, -, -, hattempts⟩ :=
    assemble_ignores_order row hrows (fun r hr => Option.isSome_iff_exists.1 (hbank r hr))
      Registry.standard ()
  obtain ⟨question, rows, own, -, ha, hperm, -, hsteps⟩ :=
    hattempts (attempt "a" 1) List.mem_cons_self
  refine ⟨u, hok, hsame _ _ _ attempts.reverse_perm steps.reverse_perm vars.reverse_perm, _, ha, ?_⟩
  exact hsteps.length_eq.symm.trans hperm.length_eq

end Usage
end Assessment
