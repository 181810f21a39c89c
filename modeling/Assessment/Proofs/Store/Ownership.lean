import Assessment.Proofs.Store.Apply

/-!
# Whose rows are whose

All usages share four tables.  The rows of a usage are found through chains of ids: its attempts by
its own id, their steps by theirs, the variables of those by theirs.  A write of one usage may
therefore touch another one's rows as soon as two of these chains meet.

They do not meet when the tables are owned (`Tables.Owned`): there is one usage for every id of an
attempt, also for one that is in no row any more, and no id of a step is in the rows of two attempts.
A write is owned (`Write.Owned`) when it is about ids of one usage only, and the steps that it adds
have ids which no row has.  Owned writes keep the tables owned (`Tables.Owned.apply`) and leave the
rows of every other usage as they are (`Tables.Owned.sameRows_apply`); so do deleting a usage and
setting marks.  The owner of an id is not stored anywhere; that there is one is all that is needed.

Deleting a usage leaves nothing of it (`Tables.Owned.purged_delete`): the rows that stay belong to
one another, so none of them is a remainder.
-/

namespace Assessment

variable {ν : Type}

/-! ## Owned tables -/

/-- Every row belongs to another: that of an attempt to the usage that owns its id, that of a step to
an attempt, and that of a variable to a step. -/
structure Tables.Owned (owner : String → String) (t : Tables ν) : Prop where
  attempts : ∀ r ∈ t.attempts, owner r.id = r.usageId
  steps : ∀ r ∈ t.steps, ∃ a ∈ t.attempts, a.id = r.attemptId
  -- no two attempts have a step of the same id
  sameAttempt : ∀ r ∈ t.steps, ∀ r' ∈ t.steps, r.id = r'.id → r.attemptId = r'.attemptId
  vars : ∀ x ∈ t.vars, ∃ r ∈ t.steps, r.id = x.stepId

/-- The rows of attempts that a write puts in. -/
def Write.rows (w : Write ν) : List (AttemptRow ν) := w.newAttempts ++ w.updatedAttempts

/-- A write that is about one usage.  Its new steps have ids that were issued between two states of
the supply. -/
structure Write.Owned (owner : String → String) (usageId : String) (s s' : Supply) (w : Write ν) :
    Prop where
  usage : ∀ row ∈ w.usage, row.id = usageId
  rows : ∀ r ∈ w.rows, owner r.id = usageId ∧ r.usageId = usageId ∧ ¬ s'.ToCome r.id
  cleared : ∀ id ∈ w.clearedAttempts, owner id = usageId
  steps : ∀ r ∈ w.newSteps, ∃ a ∈ w.rows, a.id = r.attemptId
  issued : ∀ r ∈ w.newSteps, s.Issued s' r.id
  sameAttempt : ∀ r ∈ w.newSteps, ∀ r' ∈ w.newSteps, r.id = r'.id → r.attemptId = r'.attemptId
  vars : ∀ x ∈ w.newVars, ∃ r ∈ w.newSteps, r.id = x.stepId

/-- What is stored of one usage is the same in two tables. -/
structure Tables.SameRows (usageId : String) (t t' : Tables ν) : Prop where
  usage : (t'.usages.find? fun row => row.id == usageId) = t.usages.find? fun row => row.id == usageId
  rows : ∀ row : UsageRow, row.id = usageId → t'.rowsOf row = t.rowsOf row

/-- No row is left of a usage. -/
structure Tables.Purged (usageId : String) (t t' : Tables ν) : Prop where
  usages : ∀ row ∈ t'.usages, row.id ≠ usageId
  attempts : ∀ r ∈ t'.attempts, r.usageId ≠ usageId
  steps : ∀ r ∈ t'.steps, r.attemptId ∉ t.attemptIds usageId
  vars : ∀ x ∈ t'.vars, ∀ r ∈ t.steps, r.attemptId ∈ t.attemptIds usageId → r.id ≠ x.stepId
  -- nor is there a row that belongs to none
  stepsOfAttempts : ∀ r ∈ t'.steps, ∃ a ∈ t'.attempts, a.id = r.attemptId
  varsOfSteps : ∀ x ∈ t'.vars, ∃ r ∈ t'.steps, r.id = x.stepId

/-! ## The rows of one usage -/

namespace Tables

lemma mem_attemptIds {t : Tables ν} {usageId id : String} :
    id ∈ t.attemptIds usageId ↔ ∃ r ∈ t.attempts, r.usageId = usageId ∧ r.id = id := by
  simp [attemptIds, and_assoc]

/-- Whether a row of a step is one of a usage's. -/
def hasStep (t : Tables ν) (usageId stepId : String) : Prop :=
  ∃ r ∈ t.steps, r.attemptId ∈ t.attemptIds usageId ∧ r.id = stepId

/-- The rows of a usage are the same when its attempts are, and their steps, and the variables of
those. -/
lemma rowsOf_congr {t t' : Tables ν} {usageId : String}
    (hattempts : (t'.attempts.filter fun r => r.usageId == usageId) =
      t.attempts.filter fun r => r.usageId == usageId)
    (hsteps : ∀ p : StepRow ν → Bool, (∀ r, p r = true → r.attemptId ∈ t.attemptIds usageId) →
      t'.steps.filter p = t.steps.filter p)
    (hvars : ∀ p : VarRow → Bool, (∀ x, p x = true → t.hasStep usageId x.stepId) →
      t'.vars.filter p = t.vars.filter p) (row : UsageRow) (hid : row.id = usageId) :
    t'.rowsOf row = t.rowsOf row := by
  subst hid
  have hsteps' := hsteps (fun r => (t.attemptIds row.id).contains r.attemptId) (by simp)
  have hvars' := hvars
    (fun x => ((t.steps.filter fun r => (t.attemptIds row.id).contains r.attemptId).map
      StepRow.id).contains x.stepId) (by simp [hasStep, and_assoc])
  unfold attemptIds at hsteps' hvars'
  simp only [rowsOf, hattempts, hsteps', hvars']

lemma SameRows.refl (usageId : String) (t : Tables ν) : SameRows usageId t t := ⟨rfl, fun _ _ => rfl⟩

lemma SameRows.stepCount {usageId : String} {t t' : Tables ν} (h : SameRows usageId t t') :
    t'.stepCount usageId = t.stepCount usageId :=
  congrArg (fun rows : Tables ν => rows.steps.length) (h.rows ⟨usageId, "", "", ""⟩ rfl)

/-- The row of a usage is found when those of another are left out. -/
lemma find?_filter_ne (rows : List UsageRow) {uid v : String} (h : uid ≠ v) :
    ((rows.filter fun row => row.id != uid).find? fun row => row.id == v) =
      rows.find? fun row => row.id == v := by
  rw [List.find?_filter]
  congr 1
  funext row
  by_cases hrow : row.id = v
  · simp [hrow, Ne.symm h]
  · simp [hrow]

/-- Rows that are replaced are none of those that have a property, if neither the new rows have it nor
any row with the id of a new one. -/
lemma filter_foldl_replaceRow_of_not {ρ : Type} {id : ρ → String} {rows l : List ρ} {p : ρ → Bool}
    (hnew : ∀ r ∈ l, p r = false) (hold : ∀ r ∈ rows, p r = true → ∀ r' ∈ l, id r ≠ id r') :
    (l.foldl (replaceRow id) rows).filter p = rows.filter p := by
  induction l using List.reverseRecOn with
  | nil => rfl
  | append_singleton l row ih =>
    have hrow : row ∈ l ++ [row] := List.mem_append_right _ List.mem_cons_self
    have hrest := ih (fun r hr => hnew r (List.mem_append_left _ hr))
      fun r hr hp r' hr' => hold r hr hp r' (List.mem_append_left _ hr')
    rw [List.foldl_append, List.foldl_cons, List.foldl_nil, replaceRow, List.filter_append,
      List.filter_cons_of_neg (by simp [hnew row hrow]), List.filter_nil, List.append_nil,
      List.filter_filter, ← hrest]
    refine List.filter_congr fun r hr => ?_
    cases hp : p r with
    | false => rfl
    | true =>
      have hmem : r ∈ rows.filter p := hrest ▸ List.mem_filter.2 ⟨hr, hp⟩
      simpa using hold r (List.mem_filter.1 hmem).1 hp row hrow

/-- Rows that have a property are replaced among those that have it. -/
lemma filter_foldl_replaceRow_of_all {ρ : Type} {id : ρ → String} {rows l : List ρ} {p : ρ → Bool}
    (h : ∀ r ∈ l, p r = true) :
    (l.foldl (replaceRow id) rows).filter p = l.foldl (replaceRow id) (rows.filter p) := by
  induction l generalizing rows with
  | nil => rfl
  | cons row rest ih =>
    have hrow := h row List.mem_cons_self
    rw [List.foldl_cons, List.foldl_cons, ih fun r hr => h r (List.mem_cons_of_mem _ hr), replaceRow,
      replaceRow, List.filter_append, List.filter_comm, List.filter_cons_of_pos hrow, List.filter_nil]

/-- The rows after some were replaced are new ones and old ones whose id is not replaced. -/
lemma mem_foldl_replaceRow {ρ : Type} {id : ρ → String} {rows l : List ρ} {r : ρ} :
    r ∈ l.foldl (replaceRow id) rows → r ∈ l ∨ r ∈ rows := by
  induction l using List.reverseRecOn with
  | nil => exact .inr
  | append_singleton l row ih =>
    rw [List.foldl_append, List.foldl_cons, List.foldl_nil, replaceRow, List.mem_append,
      List.mem_filter]
    rintro (⟨hr, -⟩ | hr)
    · exact (ih hr).imp_left (List.mem_append_left _)
    · exact .inl (List.mem_append_right _ hr)

/-- An id that is in a row stays in one when rows are replaced. -/
lemma exists_mem_foldl_replaceRow {ρ : Type} {id : ρ → String} {rows l : List ρ} {r : ρ}
    (h : r ∈ rows ∨ r ∈ l) : ∃ r' ∈ l.foldl (replaceRow id) rows, id r' = id r := by
  have hview := filter_foldl_replaceRow id rows l (id r)
  have hne : (l.foldl (replaceRow id) rows).filter (fun r' => id r' == id r) ≠ [] := by
    rw [hview]
    cases hlast : (l.filter fun r' => id r' == id r).getLast? with
    | some last => simp
    | none =>
      have hnone := List.getLast?_eq_none_iff.1 hlast
      have hnot : r ∉ l := fun hr => by
        have hmem : r ∈ l.filter fun r' => id r' == id r := List.mem_filter.2 ⟨hr, by simp⟩
        simp [hnone] at hmem
      have hmem : r ∈ rows.filter fun r' => id r' == id r :=
        List.mem_filter.2 ⟨h.resolve_right hnot, by simp⟩
      exact List.ne_nil_of_mem hmem
  obtain ⟨r', hr'⟩ := List.exists_mem_of_ne_nil _ hne
  exact ⟨r', (List.mem_filter.1 hr').1, by simpa using (List.mem_filter.1 hr').2⟩

/-- A usage that has a row has one after a write. -/
lemma exists_mem_usages_apply {t : Tables ν} {usageId : String}
    (h : ∃ row ∈ t.usages, row.id = usageId) (w : Write ν) :
    ∃ row ∈ (t.apply w).usages, row.id = usageId := by
  obtain ⟨row, hrow, rfl⟩ := h
  rw [usages_apply]
  cases w.usage with
  | none => exact ⟨row, hrow, rfl⟩
  | some row' =>
    rw [Option.elim_some]
    exact exists_mem_foldl_replaceRow (l := [row']) (.inl hrow)

/-- The rows of attempts after marks were set. -/
lemma mem_attempts_setMaxMark {t : Tables ν} (ids : List String) (slot : Nat) (m : ν)
    {r : AttemptRow ν} : r ∈ (t.setMaxMark ids slot m).attempts ↔ ∃ r' ∈ t.attempts,
      (if inSlot ids slot r' then { r' with maxMark := m } else r') = r := List.mem_map

namespace Owned

variable {owner : String → String} {t : Tables ν} {v : String}

/-- The attempts with rows of a usage are owned by it. -/
lemma owner_of_mem (h : t.Owned owner) {id : String} (hid : id ∈ t.attemptIds v) : owner id = v := by
  obtain ⟨r, hr, husage, rfl⟩ := mem_attemptIds.1 hid
  exact (h.attempts r hr).trans husage

/-- The attempt that a step belongs to is the usage's if it has the id of one of the usage's steps. -/
lemma attemptId_of_hasStep (h : t.Owned owner) {stepId : String} (hstep : t.hasStep v stepId)
    {r : StepRow ν} (hr : r ∈ t.steps) (hid : r.id = stepId) : r.attemptId ∈ t.attemptIds v := by
  obtain ⟨r', hr', hmem, hid'⟩ := hstep
  rwa [h.sameAttempt r hr r' hr' (hid.trans hid'.symm)]

/-- Clearing attempts of others clears no step of a usage. -/
lemma clears_eq_false (h : t.Owned owner) {ids : List String} (hids : ∀ id ∈ ids, owner id ≠ v)
    {stepId : String} (hstep : t.hasStep v stepId) : t.clears ids stepId = false := by
  rw [Bool.eq_false_iff]
  intro hclears
  obtain ⟨r, hr, hmem, hid⟩ := clears_iff.1 hclears
  exact hids _ hmem (h.owner_of_mem (h.attemptId_of_hasStep hstep hr hid))

/-- The tables with some attempts' steps cleared, some rows of attempts fewer or more, and new
steps: nothing changes for a usage that this is not about. -/
lemma rowsOf_eq (h : t.Owned owner) {ids : List String} (hids : ∀ id ∈ ids, owner id ≠ v)
    {t' : Tables ν} {steps : List (StepRow ν)} {vars : List VarRow}
    (hattempts : (t'.attempts.filter fun r => r.usageId == v) =
      t.attempts.filter fun r => r.usageId == v)
    (hsteps : t'.steps = (t.clearSteps ids).steps ++ steps)
    (hvars : t'.vars = (t.clearSteps ids).vars ++ vars)
    (hnewSteps : ∀ r ∈ steps, r.attemptId ∉ t.attemptIds v)
    (hnewVars : ∀ x ∈ vars, ¬ t.hasStep v x.stepId) (row : UsageRow) (hid : row.id = v) :
    t'.rowsOf row = t.rowsOf row := by
  refine rowsOf_congr hattempts (fun p hp => ?_) (fun p hp => ?_) row hid
  · have hnone : steps.filter p = [] := by
      rw [List.filter_eq_nil_iff]
      exact fun r hr hpr => hnewSteps r hr (hp r hpr)
    rw [hsteps, List.filter_append, hnone, List.append_nil, steps_clearSteps, List.filter_filter]
    refine List.filter_congr fun r hr => ?_
    cases hpr : p r with
    | false => rfl
    | true => simp [h.clears_eq_false hids ⟨r, hr, hp r hpr, rfl⟩]
  · have hnone : vars.filter p = [] := by
      rw [List.filter_eq_nil_iff]
      exact fun x hx hpx => hnewVars x hx (hp x hpx)
    rw [hvars, List.filter_append, hnone, List.append_nil, vars_clearSteps, List.filter_filter]
    refine List.filter_congr fun x _ => ?_
    cases hpx : p x with
    | false => rfl
    | true => simp [h.clears_eq_false hids (hp x hpx)]

/-- The owners of ids that are in no row do not matter. -/
lemma congr (h : t.Owned owner) {owner' : String → String}
    (hsame : ∀ r ∈ t.attempts, owner' r.id = owner r.id) : t.Owned owner' :=
  ⟨fun r hr => (hsame r hr).trans (h.attempts r hr), h.steps, h.sameAttempt, h.vars⟩

/-! ## Writes -/

section Apply

variable {w : Write ν} {uid : String} {s s' : Supply}

/-- A step that stays after clearing stays with its variables, and the other way round. -/
lemma step_of_mem_vars_clearSteps (h : t.Owned owner) (ids : List String) :
    ∀ x ∈ (t.clearSteps ids).vars, ∃ r ∈ (t.clearSteps ids).steps, r.id = x.stepId := by
  intro x hx
  rw [Tables.vars_clearSteps, List.mem_filter] at hx
  obtain ⟨r, hr, hid⟩ := h.vars x hx.1
  exact ⟨r, by rw [steps_clearSteps, List.mem_filter, hid]; exact ⟨hr, hx.2⟩, hid⟩

lemma apply (h : t.Owned owner) (hpast : s.Past t) (hw : w.Owned owner uid s s') :
    (t.apply w).Owned owner where
  attempts := by
    intro r hr
    rw [attempts_apply] at hr
    rcases mem_foldl_replaceRow hr with hr | hr
    · obtain ⟨howner, husage, -⟩ := hw.rows r hr
      exact howner.trans husage.symm
    · exact h.attempts r hr
  steps := by
    intro r hr
    rw [steps_apply, List.mem_append] at hr
    rw [attempts_apply]
    rcases hr with hr | hr
    · obtain ⟨a, ha, hid⟩ := h.steps r (List.mem_filter.1 hr).1
      rw [← hid]
      exact exists_mem_foldl_replaceRow (.inl ha)
    · obtain ⟨a, ha, hid⟩ := hw.steps r hr
      rw [← hid]
      exact exists_mem_foldl_replaceRow (.inr ha)
  sameAttempt := by
    -- the ids of new steps are in no row yet
    have hfresh : ∀ r ∈ t.steps, ∀ r' ∈ w.newSteps, r.id ≠ r'.id := fun r hr r' hr' heq =>
      (hpast.steps r hr).1 (heq ▸ (hw.issued r' hr').1)
    intro r hr r' hr' hid
    rw [steps_apply, List.mem_append] at hr hr'
    rcases hr with hr | hr <;> rcases hr' with hr' | hr'
    · exact h.sameAttempt r (List.mem_filter.1 hr).1 r' (List.mem_filter.1 hr').1 hid
    · exact absurd hid (hfresh r (List.mem_filter.1 hr).1 r' hr')
    · exact absurd hid.symm (hfresh r' (List.mem_filter.1 hr').1 r hr)
    · exact hw.sameAttempt r hr r' hr' hid
  vars := by
    intro x hx
    rw [vars_apply, List.mem_append] at hx
    rw [steps_apply]
    rcases hx with hx | hx
    · obtain ⟨r, hr, hid⟩ := h.step_of_mem_vars_clearSteps w.clearedAttempts x hx
      exact ⟨r, List.mem_append_left _ hr, hid⟩
    · obtain ⟨r, hr, hid⟩ := hw.vars x hx
      exact ⟨r, List.mem_append_right _ hr, hid⟩

/-- A write of one usage leaves the rows of the others. -/
lemma sameRows_apply (h : t.Owned owner) (hpast : s.Past t) (hw : w.Owned owner uid s s')
    (hne : uid ≠ v) : SameRows v t (t.apply w) where
  usage := by
    rw [usages_apply]
    cases husage : w.usage with
    | none => rfl
    | some row =>
      have hrow : row.id ≠ v := hw.usage row husage ▸ hne
      simp [replaceRow, List.find?_append, find?_filter_ne t.usages hrow, hrow]
  rows := by
    refine h.rowsOf_eq (fun id (hid : id ∈ w.clearedAttempts) => hw.cleared id hid ▸ hne) ?_
      (t.steps_apply w) (t.vars_apply w) (fun r hr hmem => ?_) fun x hx hstep => ?_
    · rw [attempts_apply]
      refine filter_foldl_replaceRow_of_not (fun r hr => ?_) fun r hr hv r' hr' heq => ?_
      · simpa [(hw.rows r hr).2.1] using hne
      · have howner := h.attempts r hr
        rw [heq, (hw.rows r' hr').1] at howner
        exact hne (howner.trans (by simpa using hv))
    · obtain ⟨a, ha, hid⟩ := hw.steps r hr
      exact hne ((hw.rows a ha).1.symm.trans (hid ▸ h.owner_of_mem hmem))
    · obtain ⟨r, hr, hid⟩ := hw.vars x hx
      obtain ⟨r', hr', -, hid'⟩ := hstep
      exact (hpast.steps r' hr').1 ((hid'.trans hid.symm) ▸ (hw.issued r hr).1)

/-- After a write no id in the tables is to come. -/
lemma past_apply (h : t.Owned owner) (hpast : s.Past t) (hw : w.Owned owner uid s s')
    (hle : s ≤ s') (huid : ¬ s'.ToCome uid) : s'.Past (t.apply w) := by
  have howned := h.apply hpast hw
  have hold := hpast.mono hle
  have hattempts : ∀ r ∈ (t.apply w).attempts, ¬ s'.ToCome r.id ∧ ¬ s'.ToCome r.usageId := by
    intro r hr
    rw [attempts_apply] at hr
    rcases mem_foldl_replaceRow hr with hr | hr
    · obtain ⟨-, husage, hid⟩ := hw.rows r hr
      exact ⟨hid, husage ▸ huid⟩
    · exact hold.attempts r hr
  have hsteps : ∀ r ∈ (t.apply w).steps, ¬ s'.ToCome r.id ∧ ¬ s'.ToCome r.attemptId := by
    intro r hr
    obtain ⟨a, ha, hid⟩ := howned.steps r hr
    refine ⟨?_, hid ▸ (hattempts a ha).1⟩
    rw [steps_apply, List.mem_append] at hr
    rcases hr with hr | hr
    · exact (hold.steps r (List.mem_filter.1 hr).1).1
    · exact (hw.issued r hr).2
  refine ⟨hattempts, hsteps, fun x hx => ?_⟩
  obtain ⟨r, hr, hid⟩ := howned.vars x hx
  exact hid ▸ (hsteps r hr).1

end Apply

/-! ## Deleting a usage -/

lemma attempts_delete (t : Tables ν) (uid : String) :
    (t.delete uid).attempts = t.attempts.filter fun a => a.usageId != uid := rfl

/-- The steps that stay are not of the deleted usage. -/
lemma attemptId_of_mem_steps_delete {uid : String} {r : StepRow ν} (hr : r ∈ (t.delete uid).steps) :
    r ∈ t.steps ∧ r.attemptId ∉ t.attemptIds uid := by
  have hstays : r ∈ (t.clearSteps (t.attemptIds uid)).steps := hr
  rw [steps_clearSteps, List.mem_filter] at hstays
  obtain ⟨hmem, hkept⟩ := hstays
  refine ⟨hmem, fun hid => ?_⟩
  have hclears : t.clears (t.attemptIds uid) r.id = true := clears_iff.2 ⟨r, hmem, hid, rfl⟩
  simp [hclears] at hkept

lemma delete (h : t.Owned owner) (uid : String) : (t.delete uid).Owned owner where
  attempts := fun r hr => h.attempts r (List.mem_filter.1 hr).1
  steps := by
    intro r hr
    obtain ⟨hmem, hnot⟩ := attemptId_of_mem_steps_delete hr
    obtain ⟨a, ha, hid⟩ := h.steps r hmem
    refine ⟨a, List.mem_filter.2 ⟨ha, ?_⟩, hid⟩
    simpa using fun husage => hnot (mem_attemptIds.2 ⟨a, ha, husage, hid⟩)
  sameAttempt := fun r hr r' hr' =>
    h.sameAttempt r (List.mem_filter.1 hr).1 r' (List.mem_filter.1 hr').1
  vars := h.step_of_mem_vars_clearSteps (t.attemptIds uid)

/-- Deleting a usage leaves the rows of the others. -/
lemma sameRows_delete (h : t.Owned owner) {uid : String} (hne : uid ≠ v) :
    SameRows v t (t.delete uid) where
  usage := find?_filter_ne t.usages hne
  rows := by
    refine h.rowsOf_eq (fun id (hid : id ∈ t.attemptIds uid) => h.owner_of_mem hid ▸ hne) ?_
      (List.append_nil _).symm (List.append_nil _).symm (by simp) (by simp)
    rw [attempts_delete, List.filter_filter]
    refine List.filter_congr fun r _ => ?_
    by_cases hr : r.usageId = v
    · simp [hr, Ne.symm hne]
    · simp [hr]

/-- Deleting a usage leaves no row of it. -/
lemma purged_delete (h : t.Owned owner) (uid : String) : Purged uid t (t.delete uid) where
  usages := fun row hrow => by simpa using (List.mem_filter.1 hrow).2
  attempts := fun r hr => by simpa using (List.mem_filter.1 hr).2
  steps := fun r hr => (attemptId_of_mem_steps_delete hr).2
  vars := by
    intro x hx r hr hmem hid
    obtain ⟨r', hr', hid'⟩ := (h.delete uid).vars x hx
    obtain ⟨hold, hnot⟩ := attemptId_of_mem_steps_delete hr'
    exact hnot (h.sameAttempt r hr r' hold (hid.trans hid'.symm) ▸ hmem)
  stepsOfAttempts := (h.delete uid).steps
  varsOfSteps := (h.delete uid).vars

/-! ## Setting marks -/

section SetMaxMark

variable (ids : List String) (slot : Nat) (m : ν)

lemma setMaxMark (h : t.Owned owner) : (t.setMaxMark ids slot m).Owned owner where
  attempts := by
    intro r hr
    obtain ⟨r', hr', rfl⟩ := (mem_attempts_setMaxMark ids slot m).1 hr
    have howner := h.attempts r' hr'
    split <;> exact howner
  steps := by
    intro r hr
    obtain ⟨a, ha, hid⟩ := h.steps r hr
    refine ⟨_, (mem_attempts_setMaxMark ids slot m).2 ⟨a, ha, rfl⟩, ?_⟩
    split <;> exact hid
  sameAttempt := h.sameAttempt
  vars := h.vars

/-- Setting marks of some usages leaves the rows of the others. -/
lemma sameRows_setMaxMark (hids : v ∉ ids) : SameRows v t (t.setMaxMark ids slot m) where
  usage := rfl
  rows := by
    refine rowsOf_congr ?_ (fun _ _ => rfl) (fun _ _ => rfl)
    show (t.attempts.map _).filter _ = _
    rw [List.filter_map]
    have husage : ((fun r : AttemptRow ν => r.usageId == v) ∘
        fun r => if inSlot ids slot r then { r with maxMark := m } else r) =
        fun r => r.usageId == v := by
      funext r
      simp only [Function.comp_apply]
      split <;> rfl
    rw [husage]
    refine (List.map_congr_left fun r hr => ?_).trans (List.map_id _)
    have hr : r.usageId = v := by simpa using (List.mem_filter.1 hr).2
    simp [inSlot, hr, hids]

end SetMaxMark

end Owned
end Tables

/-! ## Ids to come -/

namespace Supply.Past

variable {s : Supply} {t : Tables ν}

lemma delete (h : s.Past t) (uid : String) : s.Past (t.delete uid) :=
  ⟨fun r hr => h.attempts r (List.mem_filter.1 hr).1, fun r hr => h.steps r (List.mem_filter.1 hr).1,
    fun x hx => h.vars x (List.mem_filter.1 hx).1⟩

lemma setMaxMark (h : s.Past t) (ids : List String) (slot : Nat) (m : ν) :
    s.Past (t.setMaxMark ids slot m) where
  attempts := by
    intro r hr
    obtain ⟨r', hr', rfl⟩ := (Tables.mem_attempts_setMaxMark ids slot m).1 hr
    have hpast := h.attempts r' hr'
    split <;> exact hpast
  steps := h.steps
  vars := h.vars

end Supply.Past
end Assessment
