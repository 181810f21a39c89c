import Assessment.Proofs.Store.Write

/-!
# Loading what was saved

When the tables mirror a usage and nothing is stale, a load gives the usage back
(`Usage.load_agrees`).  Loading takes the rows apart again: variables go to steps by the ids of these,
steps to attempts in the order of their places, attempts to slots.  Each of these is read off the
mirror: the rows of an attempt are in order already, so sorting does not move them past each other
(`filter_mergeSort`), and no two rows share an id, so that no row takes what belongs to another.

The behaviour of an attempt is made anew from its name.  What a behaviour remembers of the usage
besides its name is not stored, so two usages agree (`Usage.Agrees`) when the names do.
-/

namespace Assessment

variable {ν : Type}

/-! ## Usages that agree -/

/-- Two attempts that are equal but for who is told of their changes and for what their behaviours are
besides their names. -/
structure Attempt.Agrees (a b : Attempt ν) : Prop where
  id : b.id = a.id
  usageId : b.usageId = a.usageId
  slot : b.slot = a.slot
  question : b.question = a.question
  behaviour : b.behaviour.map Behaviour.name = a.behaviour.map Behaviour.name
  maxMark : b.maxMark = a.maxMark
  minFraction : b.minFraction = a.minFraction
  flagged : b.flagged = a.flagged
  steps : b.steps = a.steps
  questionSummary : b.questionSummary = a.questionSummary
  rightAnswerSummary : b.rightAnswerSummary = a.rightAnswerSummary
  responseSummary : b.responseSummary = a.responseSummary
  modified : b.modified = a.modified

lemma Attempt.Agrees.observedBy {a b : Attempt ν} (h : a.Agrees b) (o : Observer) :
    a.Agrees (b.observedBy o) :=
  ⟨h.id, h.usageId, h.slot, h.question, h.behaviour, h.maxMark, h.minFraction, h.flagged, h.steps,
    h.questionSummary, h.rightAnswerSummary, h.responseSummary, h.modified⟩

/-- Two usages that are equal but for their unsaved changes, for who is told of changes and for what
their behaviours are besides their names. -/
structure Usage.Agrees (u v : Usage ν) : Prop where
  id : v.id = u.id
  plugin : v.plugin = u.plugin
  context : v.context = u.context
  preferred : v.preferred = u.preferred
  slots : v.slots = u.slots
  attempts : ∀ slot a, u.attempts.get? slot = some a →
    ∃ b, v.attempts.get? slot = some b ∧ a.Agrees b

/-! ## Rows and their ids -/

/-- Rows have different ids, or whatever is read of them, if those of each group have, and rows of one
id are in one group. -/
lemma nodup_map_of_groups {ρ γ : Type} (group : ρ → String) (id : ρ → γ) {rows : List ρ}
    (hgroups : ∀ r ∈ rows, ((rows.filter fun r' => group r' == group r).map id).Nodup)
    (hsame : ∀ r ∈ rows, ∀ r' ∈ rows, id r' = id r → group r' = group r) : (rows.map id).Nodup := by
  induction rows with
  | nil => exact List.nodup_nil
  | cons r rest ih =>
    rw [List.map_cons, List.nodup_cons]
    constructor
    · intro hmem
      obtain ⟨r', hr', heq⟩ := List.mem_map.1 hmem
      have hgroup := hsame r List.mem_cons_self r' (List.mem_cons_of_mem _ hr') heq
      have hnodup := hgroups r List.mem_cons_self
      rw [List.filter_cons_of_pos (by simp), List.map_cons, List.nodup_cons] at hnodup
      exact hnodup.1 (List.mem_map.2 ⟨r', List.mem_filter.2 ⟨hr', by simp [hgroup]⟩, heq⟩)
    · refine ih (fun r₁ h₁ => (hgroups r₁ (List.mem_cons_of_mem _ h₁)).sublist ?_)
        fun r₁ h₁ r₂ h₂ => ?_
      · exact ((List.sublist_cons_self r rest).filter _).map _
      · exact hsame r₁ (List.mem_cons_of_mem _ h₁) r₂ (List.mem_cons_of_mem _ h₂)

/-- Sorting leaves what is in order already in its order. -/
lemma filter_mergeSort {ρ : Type} {key : ρ → Nat} {p : ρ → Bool} {rows : List ρ}
    (h : (rows.filter p).Pairwise fun r r' => key r ≤ key r') :
    (rows.mergeSort fun r r' => decide (key r ≤ key r')).filter p = rows.filter p := by
  have hsub : (rows.filter p).Sublist (rows.mergeSort fun r r' => decide (key r ≤ key r')) := by
    refine List.sublist_mergeSort ?_ ?_ (h.imp fun hle => by simpa using hle) List.filter_sublist
    · intro a b c hab hbc
      simp only [decide_eq_true_eq] at hab hbc ⊢
      omega
    · intro a b
      simp only [Bool.or_eq_true, decide_eq_true_eq]
      omega
  have hsub' := hsub.filter p
  simp only [List.filter_filter, Bool.and_self] at hsub'
  refine (hsub'.eq_of_length ?_).symm
  exact ((List.mergeSort_perm rows _).filter p).length_eq.symm

namespace Tables

/-! ## Variables and steps -/

/-- The variables of a step are those of its rows. -/
lemma getD_varsByStep (rows : List VarRow) (stepId : String) :
    ((varsByStep rows).get? stepId).getD SortedMap.empty =
      SortedMap.ofList
        ((rows.filter fun r => r.stepId == stepId).map fun r => (r.name, r.value)) := by
  induction rows using List.reverseRecOn with
  | nil => rfl
  | append_singleton rows row ih =>
    have hstep : varsByStep (rows ++ [row]) = (varsByStep rows).insert row.stepId
        ((((varsByStep rows).get? row.stepId).getD SortedMap.empty).insert row.name row.value) := by
      simp [varsByStep]
    rw [hstep, List.filter_append]
    by_cases hid : row.stepId = stepId
    · subst hid
      rw [SortedMap.get?_insert_self, Option.getD_some, ih]
      simp [SortedMap.ofList_append_singleton]
    · rw [SortedMap.get?_insert_of_ne _ (Ne.symm hid), ih]
      simp [hid]

/-- Each row makes a step, when no two of them have the same id. -/
lemma stepsOfRows_eq {vars : SortedMap String Vars} {rows : List (StepRow ν)}
    (h : (rows.map StepRow.id).Nodup) :
    stepsOfRows vars rows =
      rows.map fun r => (r.attemptId, Step.ofRow r ((vars.get? r.id).getD SortedMap.empty)) := by
  induction rows generalizing vars with
  | nil => rfl
  | cons row rest ih =>
    rw [List.map_cons, List.nodup_cons] at h
    obtain ⟨hnot, hrest⟩ := h
    rw [stepsOfRows, ih hrest, List.map_cons]
    congr 1
    refine List.map_congr_left fun r hr => ?_
    have hne : (r.id != row.id) = true := by
      simpa using fun heq => hnot (List.mem_map.2 ⟨r, hr, heq⟩)
    rw [SortedMap.erase, SortedMap.get?_filter]
    cases vars.get? r.id <;> simp [Option.filter, hne]

/-- The steps of an attempt are those of its rows, which come in the order of their places. -/
lemma filter_orderedSteps {steps : List (StepRow ν)} {vars : List VarRow}
    (hnodup : (steps.map StepRow.id).Nodup) (attemptId : String) :
    ((orderedSteps steps vars).filter fun e => e.1 == attemptId).map Prod.snd =
      ((steps.mergeSort fun r r' => r.index ≤ r'.index).filter fun r => r.attemptId == attemptId).map
        fun r => Step.ofRow r (SortedMap.ofList
          ((vars.filter fun v => v.stepId == r.id).map fun v => (v.name, v.value))) := by
  have hperm := (List.mergeSort_perm steps fun a b => decide (a.index ≤ b.index)).map StepRow.id
  rw [orderedSteps, stepsOfRows_eq (hperm.nodup_iff.2 hnodup), List.filter_map, List.map_map]
  refine List.map_congr_left fun r _ => ?_
  rw [Function.comp_apply, getD_varsByStep]

/-- Rows that are in order already are left so. -/
lemma orderedSteps_of_attempt {steps : List (StepRow ν)} {vars : List VarRow}
    (hnodup : (steps.map StepRow.id).Nodup) {attemptId : String}
    (hsorted : (steps.filter fun r => r.attemptId == attemptId).Pairwise
      fun r r' => r.index ≤ r'.index) :
    ((orderedSteps steps vars).filter fun e => e.1 == attemptId).map Prod.snd =
      (steps.filter fun r => r.attemptId == attemptId).map fun r =>
        Step.ofRow r (SortedMap.ofList
          ((vars.filter fun v => v.stepId == r.id).map fun v => (v.name, v.value))) := by
  rw [filter_orderedSteps hnodup, filter_mergeSort hsorted]

/-! ## Attempts -/

/-- The attempt that a row makes when its question is in the bank. -/
def Makes (questions : SortedMap String (Question ν)) (registry : Registry) (preferred : String)
    (steps : List (String × Step ν)) (row : AttemptRow ν) (a : Attempt ν) : Prop :=
  ∃ question, questions.get? row.questionId = some question ∧
    a = Attempt.ofRow row question (registry.makeOrMissing row.behaviour preferred)
      ((steps.filter fun e => e.1 == row.id).map Prod.snd)

/-- Each row makes an attempt with the steps of its id, when no two rows have the same id. -/
lemma attemptsOfRows_ok {σ : Type} {questions : SortedMap String (Question ν)}
    (registry : Registry) (preferred : String) (steps : List (String × Step ν))
    {rows : List (AttemptRow ν)}
    (hnodup : (rows.map AttemptRow.id).Nodup)
    (hbank : ∀ row ∈ rows, ∃ question, questions.get? row.questionId = some question) (s : σ) :
    ∃ attempts, (attemptsOfRows (.memory questions) registry preferred steps rows s).result =
        .ok attempts ∧
      (∀ a ∈ attempts, ∃ row ∈ rows, Makes questions registry preferred steps row a) ∧
      ∀ row ∈ rows, ∃ a ∈ attempts, Makes questions registry preferred steps row a := by
  induction rows generalizing steps s with
  | nil => exact ⟨[], rfl, by simp, by simp⟩
  | cons row rest ih =>
    rw [List.map_cons, List.nodup_cons] at hnodup
    obtain ⟨hnot, hrest⟩ := hnodup
    obtain ⟨question, hquestion⟩ := hbank row List.mem_cons_self
    have hrow : questionOfRow (.memory questions) row s = ⟨.ok question, s, []⟩ := by
      simp only [questionOfRow, Op.mapFailure, Bank.question, hquestion]
      rfl
    obtain ⟨attempts, hok, hback, hforth⟩ := ih (steps.filter fun e => e.1 != row.id) hrest
      (fun r hr => hbank r (List.mem_cons_of_mem _ hr)) s
    -- the steps of the other rows are not those that the first row takes
    have hothers : ∀ r ∈ rest, ∀ a, Makes questions registry preferred
        (steps.filter fun e => e.1 != row.id) r a ↔ Makes questions registry preferred steps r a := by
      intro r hr a
      have hne : r.id ≠ row.id := fun heq => hnot (List.mem_map.2 ⟨r, hr, heq⟩)
      have hsame : (steps.filter fun e => e.1 != row.id).filter (fun e => e.1 == r.id) =
          steps.filter fun e => e.1 == r.id := by
        rw [List.filter_filter]
        refine List.filter_congr fun e _ => ?_
        by_cases he : e.1 = r.id
        · simp [he, hne]
        · simp [he]
      rw [Makes, Makes, hsame]
    rw [attemptsOfRows, Op.bind_of_ok (congrArg Run.result hrow)]
    simp only [hrow]
    rw [Op.bind_of_ok hok]
    refine ⟨_, rfl, List.forall_mem_cons.2 ⟨⟨row, List.mem_cons_self, question, hquestion, rfl⟩, ?_⟩,
      List.forall_mem_cons.2 ⟨⟨_, List.mem_cons_self, question, hquestion, rfl⟩, ?_⟩⟩
    · intro a ha
      obtain ⟨r, hr, hmakes⟩ := hback a ha
      exact ⟨r, List.mem_cons_of_mem _ hr, (hothers r hr a).1 hmakes⟩
    · intro r hr
      obtain ⟨a, ha, hmakes⟩ := hforth r hr
      exact ⟨a, List.mem_cons_of_mem _ ha, (hothers r hr a).1 hmakes⟩

/-! ## The rows of one usage -/

lemma stepsOf_rowsOf {t : Tables ν} {row : UsageRow} {r : AttemptRow ν} (hr : r ∈ t.attempts)
    (hid : r.usageId = row.id) : (t.rowsOf row).stepsOf r.id = t.stepsOf r.id := by
  unfold rowsOf stepsOf
  simp only
  rw [List.filter_filter]
  refine List.filter_congr fun s _ => ?_
  by_cases hs : s.attemptId = r.id
  · have hmem : r.id ∈ (t.attempts.filter fun a => a.usageId == row.id).map AttemptRow.id :=
      List.mem_map.2 ⟨r, by simpa [hr] using hid, rfl⟩
    simpa [hs] using hmem
  · simp [hs]

lemma varsOf_rowsOf {t : Tables ν} {row : UsageRow} {r : StepRow ν} (hr : r ∈ (t.rowsOf row).steps) :
    (t.rowsOf row).varsOf r.id = t.varsOf r.id := by
  unfold varsOf
  show (t.vars.filter fun v => ((t.rowsOf row).steps.map StepRow.id).contains v.stepId).filter _ = _
  rw [List.filter_filter]
  refine List.filter_congr fun v _ => ?_
  by_cases hv : v.stepId = r.id
  · have hmem : r.id ∈ (t.rowsOf row).steps.map StepRow.id := List.mem_map.2 ⟨r, hr, rfl⟩
    simpa [hv] using hmem
  · simp [hv]

end Tables

/-! ## Steps that were stored -/

namespace Attempt

lemma pairwise_withIds (place : Nat) (steps : List (Step ν)) :
    (withIds place steps).Pairwise fun e e' => e.1 ≤ e'.1 := by
  induction steps generalizing place with
  | nil => exact List.Pairwise.nil
  | cons step rest ih =>
    rw [withIds_cons]
    cases step.id with
    | none => exact ih (place + 1)
    | some id =>
      refine List.pairwise_cons.2 ⟨fun e he => ?_, ih (place + 1)⟩
      unfold withIds at he
      obtain ⟨⟨step', place'⟩, hmem, hsome⟩ := List.mem_filterMap.1 he
      obtain ⟨id', -, rfl⟩ := Option.map_eq_some_iff.1 hsome
      have hle : place + 1 ≤ place' := List.le_snd_of_mem_zipIdx hmem
      show place ≤ place'
      omega

lemma map_step_withIds (place : Nat) {steps : List (Step ν)}
    (h : ∀ step ∈ steps, step.id.isSome = true) :
    (withIds place steps).map (fun e => e.2.2) = steps := by
  induction steps generalizing place with
  | nil => rfl
  | cons step rest ih =>
    obtain ⟨id, hid⟩ := Option.isSome_iff_exists.1 (h step List.mem_cons_self)
    rw [withIds_cons, hid, List.map_append, ih _ fun s hs => h s (List.mem_cons_of_mem _ hs)]
    rfl

lemma map_id_stepRows (a : Attempt ν) (id : String) :
    (a.stepRows id).map StepRow.id = a.steps.filterMap Step.id := by
  rw [stepRows, List.map_map, ← map_id_withIds 0]
  rfl

/-- A step is made again of its row and its variables. -/
lemma ofRow_stepRow {step : Step ν} {stepId : String} (hid : step.id = some stepId)
    (hreadOnly : step.readOnly = true) (attemptId : String) (place : Nat) :
    Step.ofRow (stepRow attemptId place stepId step)
      (SortedMap.ofList ((varRows stepId step).map fun v => (v.name, v.value))) = step := by
  have hvars : (varRows stepId step).map (fun v => (v.name, v.value)) = step.vars.entries := by
    simp [varRows, Function.comp_def]
  rw [hvars, SortedMap.ofList_entries]
  cases step
  simp_all [Step.ofRow, stepRow]

end Attempt

/-! ## Saved usages -/

/-- A usage that is in the tables as it is. -/
structure Usage.Saved (u : Usage ν) (t : Tables ν) : Prop where
  sound : u.Sound
  stored : u.id.isStored = true
  mirrors : Mirrors u Changes.none.stale t
  numbered : ∀ {slot a}, u.attempts.get? slot = some a →
    a.id.isSome = true ∧ ∀ step ∈ a.steps, step.id.isSome = true

/-- The tables after a save have the settled usage. -/
lemma Saving.Writing.saved {t : Tables ν} {taken : Option Changes} {s : Saving ν}
    (h : Writing t taken [] s) : s.usage.settle.Saved (t.apply s.plan.write) where
  sound := h.sound.settle
  stored := by
    rw [h.sound.settle_eq]
    exact h.stored
  mirrors := h.settle.mirrors
  numbered := fun ha => by
    obtain ⟨b, hb, _, rfl⟩ := Usage.exists_of_get?_settle ha
    have hnumbered := h.numbered hb (by simp)
    exact hnumbered

namespace Usage.Saved

variable {u : Usage ν} {t : Tables ν}

lemma not_stale (slot : Nat) : ¬ Changes.none.stale.row slot ∧ ¬ Changes.none.stale.steps slot := by
  simp [Changes.stale, Changes.has_slotsToUpdate, Changes.none]

/-- The row of an attempt. -/
lemma exists_row (h : u.Saved t) {slot : Nat} {a : Attempt ν} (ha : u.attempts.get? slot = some a) :
    ∃ row, a.toRow a.question.id = .ok row ∧ t.attemptsWith row.id = [row] ∧
      row ∈ (t.rowsOf u.toRow).attempts := by
  obtain ⟨id, hid⟩ := Option.isSome_iff_exists.1 (h.numbered ha).1
  obtain ⟨row, hrow, hfresh⟩ := (h.mirrors.attempts ha).row id hid
  have htoRow := hfresh (not_stale slot).1
  have hview : row ∈ t.attemptsWith id := hrow ▸ List.mem_cons_self
  obtain ⟨hmem, rfl⟩ := Tables.mem_attemptsWith.1 hview
  have husage : row.usageId = u.id.text :=
    (Attempt.usageId_of_toRow htoRow).trans (h.sound.usageId ha)
  exact ⟨row, htoRow, hrow, List.mem_filter.2 ⟨hmem, by simpa [Usage.toRow] using husage⟩⟩

/-- Every row under the usage's identity is that of an attempt. -/
lemma exists_attempt (h : u.Saved t) {row : AttemptRow ν} (hrow : row ∈ (t.rowsOf u.toRow).attempts) :
    ∃ slot a, u.attempts.get? slot = some a ∧ a.toRow a.question.id = .ok row := by
  obtain ⟨hmem, hid⟩ := List.mem_filter.1 hrow
  obtain ⟨slot, a, ha, haid⟩ := h.mirrors.owned row hmem (by simpa [Usage.toRow] using hid)
  obtain ⟨row', htoRow, hrow', -⟩ := h.exists_row ha
  have hid' : row'.id = row.id := Option.some.inj ((Attempt.id_of_toRow htoRow).symm.trans haid)
  have hmem' : row ∈ t.attemptsWith row'.id := Tables.mem_attemptsWith.2 ⟨hmem, hid'.symm⟩
  rw [hrow', List.mem_singleton] at hmem'
  exact ⟨slot, a, ha, hmem' ▸ htoRow⟩

/-- The rows of the steps of an attempt, among those of the usage. -/
lemma stepsOf_rowsOf (h : u.Saved t) {slot : Nat} {a : Attempt ν}
    (ha : u.attempts.get? slot = some a) {id : String} (hid : a.id = some id) :
    (t.rowsOf u.toRow).stepsOf id = a.stepRows id := by
  obtain ⟨row, htoRow, -, hmem⟩ := h.exists_row ha
  obtain rfl := Option.some.inj ((Attempt.id_of_toRow htoRow).symm.trans hid)
  obtain ⟨hrow, husage⟩ := List.mem_filter.1 hmem
  rw [Tables.stepsOf_rowsOf hrow (by simpa using husage)]
  exact (h.mirrors.attempts ha).steps _ hid (not_stale slot).2

/-- A row of a step of the usage is that of an attempt of the usage. -/
lemma exists_attempt_of_step (h : u.Saved t) {r : StepRow ν} (hr : r ∈ (t.rowsOf u.toRow).steps) :
    ∃ slot a, u.attempts.get? slot = some a ∧ a.id = some r.attemptId := by
  obtain ⟨row, hrow, hid⟩ := List.mem_map.1 (List.contains_iff_mem.1 (List.mem_filter.1 hr).2)
  obtain ⟨slot, a, ha, htoRow⟩ := h.exists_attempt hrow
  exact ⟨slot, a, ha, hid ▸ Attempt.id_of_toRow htoRow⟩

lemma nodup_attempts (h : u.Saved t) :
    ((t.rowsOf u.toRow).attempts.map AttemptRow.id).Nodup := by
  refine nodup_map_of_groups AttemptRow.id _ (fun row hrow => ?_) fun _ _ _ _ heq => heq
  obtain ⟨slot, a, ha, htoRow⟩ := h.exists_attempt hrow
  obtain ⟨row', htoRow', hview, -⟩ := h.exists_row ha
  obtain rfl := Except.ok.inj (htoRow.symm.trans htoRow')
  have hsub : ((t.rowsOf u.toRow).attempts.filter fun r => r.id == row.id).Sublist
      (t.attemptsWith row.id) := List.filter_sublist.filter _
  rw [hview] at hsub
  exact (hsub.map AttemptRow.id).nodup (List.nodup_singleton _)

lemma nodup_steps (h : u.Saved t) : ((t.rowsOf u.toRow).steps.map StepRow.id).Nodup := by
  refine nodup_map_of_groups StepRow.attemptId _ (fun r hr => ?_) fun r hr r' hr' heq => ?_
  · obtain ⟨slot, a, ha, hid⟩ := h.exists_attempt_of_step hr
    show (((t.rowsOf u.toRow).stepsOf r.attemptId).map StepRow.id).Nodup
    rw [h.stepsOf_rowsOf ha hid, Attempt.map_id_stepRows]
    exact (h.mirrors.attempts ha).inOrder.nodup
  · obtain ⟨slot, a, ha, hid⟩ := h.exists_attempt_of_step hr
    exact (h.mirrors.attempts ha).owner _ hid r (List.mem_filter.1 hr).1 rfl r'
      (List.mem_filter.1 hr').1 heq

/-- The steps of an attempt come back as they are. -/
lemma orderedSteps_of_attempt (h : u.Saved t) {slot : Nat} {a : Attempt ν}
    (ha : u.attempts.get? slot = some a) {id : String} (hid : a.id = some id) :
    ((Tables.orderedSteps (t.rowsOf u.toRow).steps (t.rowsOf u.toRow).vars).filter
      fun e => e.1 == id).map Prod.snd = a.steps := by
  have hrows := h.stepsOf_rowsOf ha hid
  unfold Tables.stepsOf at hrows
  have hsorted : ((t.rowsOf u.toRow).steps.filter fun r => r.attemptId == id).Pairwise
      fun r r' => r.index ≤ r'.index := by
    rw [hrows, Attempt.stepRows, List.pairwise_map]
    exact Attempt.pairwise_withIds 0 a.steps
  rw [Tables.orderedSteps_of_attempt h.nodup_steps hsorted, hrows, Attempt.stepRows, List.map_map]
  refine Eq.trans (List.map_congr_left fun e he => ?_)
    (Attempt.map_step_withIds 0 (h.numbered ha).2)
  obtain ⟨hstep, hstepId⟩ := Attempt.of_mem_withIds he
  have hrow : Attempt.stepRow id e.1 e.2.1 e.2.2 ∈ (t.rowsOf u.toRow).stepsOf id := by
    rw [h.stepsOf_rowsOf ha hid]
    exact List.mem_map.2 ⟨e, he, rfl⟩
  have hvars := (Tables.varsOf_rowsOf (Tables.mem_stepsOf.1 hrow).1).trans
    ((h.mirrors.attempts ha).vars e.2.2 hstep e.2.1 hstepId)
  unfold Tables.varsOf at hvars
  show Step.ofRow _ (SortedMap.ofList (List.map _ (List.filter _ _))) = _
  rw [hvars]
  exact Attempt.ofRow_stepRow hstepId ((h.sound.attempt ha).readOnly _ hstep) id e.1

end Usage.Saved

/-! ## Loading -/

/-- Whether every behaviour on offer is a built-in one under its own name. -/
def Registry.IsBuiltIn (registry : Registry) : Prop :=
  ∀ name factory, registry.get? name = some factory → (name, factory) ∈ builtIn

lemma Registry.isBuiltIn_standard : standard.IsBuiltIn := fun _ _ => SortedMap.mem_of_get?_ofList

/-- The behaviour that is made for stored history has the name that was stored. -/
lemma Registry.IsBuiltIn.name_makeOrMissing {registry : Registry} (h : registry.IsBuiltIn)
    (name preferred : String) : (registry.makeOrMissing name preferred).name = name := by
  unfold makeOrMissing
  cases hfactory : registry.get? name with
  | none => rfl
  | some factory =>
    have hmem := h name factory hfactory
    simp only [builtIn, List.mem_cons, List.not_mem_nil, or_false, Prod.mk.injEq] at hmem
    rcases hmem with ⟨rfl, rfl⟩ | ⟨rfl, rfl⟩ | ⟨rfl, rfl⟩ | ⟨rfl, rfl⟩ | ⟨rfl, rfl⟩ | ⟨rfl, rfl⟩ |
      ⟨rfl, rfl⟩ <;> rfl

lemma Registry.name_makeOrMissing (name preferred : String) :
    (standard.makeOrMissing name preferred).name = name :=
  isBuiltIn_standard.name_makeOrMissing name preferred

namespace Usage.Saved

variable {u : Usage ν} {s : Store ν} {questions : SortedMap String (Question ν)}

/-- The attempt that is made of a row agrees with the one that the row was written for. -/
lemma agrees_of_makes (h : u.Saved s.tables) {slot : Nat} {a b : Attempt ν}
    (ha : u.attempts.get? slot = some a) (hbank : questions.get? a.question.id = some a.question)
    {row : AttemptRow ν} (hrow : a.toRow a.question.id = .ok row)
    (hb : Tables.Makes questions Registry.standard u.preferred
      (Tables.orderedSteps (s.tables.rowsOf u.toRow).steps (s.tables.rowsOf u.toRow).vars) row b) :
    a.Agrees b := by
  obtain ⟨behaviour, minFraction, modified, hbehaviour, hminFraction, hmodified, hid, hfields⟩ :=
    Attempt.of_toRow hrow
  obtain ⟨question, hquestion, rfl⟩ := hb
  rw [h.orderedSteps_of_attempt ha hid]
  have hsame : a.question = question := by
    rw [hfields, hbank] at hquestion
    exact Option.some.inj hquestion
  constructor
  case behaviour =>
    rw [hbehaviour, hfields]
    exact congrArg some (Registry.name_makeOrMissing _ _)
  case id => exact hid.symm
  case question => exact hsame.symm
  case steps => rfl
  case minFraction => rw [hminFraction, hfields]; rfl
  case modified => rw [hmodified, hfields]; rfl
  all_goals rw [hfields]; rfl

/-- A usage agrees with one that is restored from attempts which agree with its own. -/
lemma agrees_restore (h : u.Saved s.tables) {attempts : List (Attempt ν)}
    (hloaded : ∀ b ∈ attempts, ∃ a, u.attempts.get? b.slot = some a ∧ a.Agrees b)
    (hsaved : ∀ slot a, u.attempts.get? slot = some a → ∃ b ∈ attempts, b.slot = slot)
    (registry : Registry) : u.Agrees (restore u.toRow attempts registry true) := by
  have hget : ∀ slot b, (restore u.toRow attempts registry true).attempts.get? slot = some b →
      ∃ a, u.attempts.get? slot = some a ∧ a.Agrees b := by
    intro slot b hb
    rw [attempts_restore] at hb
    obtain ⟨b', hb', rfl⟩ := Option.map_eq_some_iff.1 hb
    obtain ⟨b'', hmem, heq⟩ := List.mem_map.1 (SortedMap.mem_of_get?_ofList hb')
    obtain ⟨rfl, rfl⟩ := Prod.mk.inj heq
    obtain ⟨a, ha, hagrees⟩ := hloaded b'' hmem
    exact ⟨a, ha, hagrees.observedBy _⟩
  have hagree : ∀ slot a, u.attempts.get? slot = some a →
      ∃ b, (restore u.toRow attempts registry true).attempts.get? slot = some b ∧ a.Agrees b := by
    intro slot a ha
    obtain ⟨b, hb, rfl⟩ := hsaved slot a ha
    obtain ⟨b', hb'⟩ := SortedMap.exists_get?_ofList
      (List.mem_map.2 ⟨b, hb, rfl⟩ : (b.slot, b) ∈ attempts.map fun a => (a.slot, a))
    have hrestored := (attempts_restore u.toRow attempts registry b.slot).trans (congrArg _ hb')
    obtain ⟨a', ha', hagrees⟩ := hget b.slot _ hrestored
    rw [ha] at ha'
    cases ha'
    exact ⟨_, hrestored, hagrees⟩
  refine ⟨?_, rfl, rfl, rfl, SortedMap.keys_eq_of_isSome fun slot => ?_, hagree⟩
  · have hstored := h.stored
    cases hid : u.id with
    | stored id => simp [restore, tracking, toRow, hid, UsageId.text]
    | ephemeral token => simp [hid, UsageId.isStored] at hstored
  · cases ha : u.attempts.get? slot with
    | some a =>
      obtain ⟨b, hb, -⟩ := hagree slot a ha
      rw [hb]
      rfl
    | none =>
      rw [Option.isSome_none, Option.isSome_eq_false_iff, Option.isNone_iff_eq_none]
      by_contra hsome
      obtain ⟨b, hb⟩ := Option.ne_none_iff_exists'.1 hsome
      obtain ⟨a, ha', -⟩ := hget slot b hb
      rw [ha] at ha'
      cases ha'

/-- Loading a usage that is in the tables gives it back. -/
theorem load_agrees (h : u.Saved s.tables) (hbackend : s.backend = .memory)
    (hbank : ∀ {slot a}, u.attempts.get? slot = some a →
      questions.get? a.question.id = some a.question) :
    ∃ v, (Store.load u.id.text (.memory questions) Registry.standard s).result = .ok v ∧
      u.Agrees v := by
  have hquestions : ∀ row ∈ (s.tables.rowsOf u.toRow).attempts,
      ∃ question, questions.get? row.questionId = some question := by
    intro row hrow
    obtain ⟨slot, a, ha, htoRow⟩ := h.exists_attempt hrow
    obtain ⟨_, _, _, -, -, -, -, hfields⟩ := Attempt.of_toRow htoRow
    rw [hfields]
    exact ⟨a.question, hbank ha⟩
  obtain ⟨attempts, hok, hback, hforth⟩ := Tables.attemptsOfRows_ok Registry.standard u.preferred
    (Tables.orderedSteps (s.tables.rowsOf u.toRow).steps (s.tables.rowsOf u.toRow).vars)
    h.nodup_attempts hquestions s
  have hloaded : ∀ b ∈ attempts, ∃ a, u.attempts.get? b.slot = some a ∧ a.Agrees b := by
    intro b hb
    obtain ⟨row, hrow, hmakes⟩ := hback b hb
    obtain ⟨slot, a, ha, htoRow⟩ := h.exists_attempt hrow
    have hagrees := h.agrees_of_makes ha (hbank ha) htoRow hmakes
    have hslot : b.slot = slot := hagrees.slot.trans (h.sound.slot ha)
    exact ⟨a, hslot ▸ ha, hagrees⟩
  have hsaved : ∀ slot a, u.attempts.get? slot = some a → ∃ b ∈ attempts, b.slot = slot := by
    intro slot a ha
    obtain ⟨row, htoRow, -, hrow⟩ := h.exists_row ha
    obtain ⟨b, hb, hmakes⟩ := hforth row hrow
    have hagrees := h.agrees_of_makes ha (hbank ha) htoRow hmakes
    exact ⟨b, hb, hagrees.slot.trans (h.sound.slot ha)⟩
  have hfind := h.mirrors.usage (by simp [Changes.stale, Changes.none])
  have hassemble := Op.bind_of_ok (f := fun attempts => Op.pure
    (Usage.restore u.toRow attempts Registry.standard true)) hok
  refine ⟨restore u.toRow attempts Registry.standard true, ?_, h.agrees_restore hloaded hsaved _⟩
  simp only [Store.load, hbackend, hfind]
  exact congrArg Run.result hassemble

end Usage.Saved
end Assessment
