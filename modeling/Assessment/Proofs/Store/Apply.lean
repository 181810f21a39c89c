import Assessment.Proofs.Store.Mirror

/-!
# Storing an attempt

Tables are looked at by ids: the rows of an attempt (`Tables.attemptsWith`), the steps of an attempt
(`Tables.stepsOf`) and the variables of a step (`Tables.varsOf`).  `Stores` says in these terms what
storing one attempt does to the tables, and `Storing.mirrors_put` that the numbered attempt is then
mirrored, while what is known of the other attempts stays.

Everything here rests on the ids being apart.  The ids of stored rows are not to come
(`Supply.Past`), so what is numbered now is in no row yet; and no two attempts share an id or the
id of a step, so clearing the steps of one leaves those of the others.
-/

namespace Assessment

variable {ν : Type}

/-! ## Writing rows -/

namespace Tables

/-- Of several rows with one id the last stays. -/
lemma filter_foldl_replaceRow {ρ : Type} (id : ρ → String) (rows l : List ρ) (x : String) :
    (l.foldl (replaceRow id) rows).filter (fun r => id r == x) =
      ((l.filter fun r => id r == x).getLast?.map fun r => [r]).getD
        (rows.filter fun r => id r == x) := by
  induction l using List.reverseRecOn with
  | nil => rfl
  | append_singleton l row ih =>
    rw [List.foldl_append, List.foldl_cons, List.foldl_nil, replaceRow, List.filter_append,
      List.filter_append, List.filter_filter]
    by_cases hrow : id row = x
    · have hnone : (l.foldl (replaceRow id) rows).filter (fun r => id r == x && id r != id row) =
          [] := by
        rw [List.filter_eq_nil_iff]
        intro r _
        simp [hrow]
      rw [hnone]
      simp [hrow]
    · have hsame : ((l.foldl (replaceRow id) rows).filter fun r => id r == x && id r != id row) =
          (l.foldl (replaceRow id) rows).filter fun r => id r == x := by
        refine List.filter_congr fun r _ => ?_
        by_cases hr : id r = x
        · simp [hr, Ne.symm hrow]
        · simp [hr]
      rw [hsame, ih]
      simp [hrow]

/-- Whether a step's rows are removed when the steps of some attempts are cleared. -/
def clears (t : Tables ν) (ids : List String) (stepId : String) : Bool :=
  ((t.steps.filter fun s => ids.contains s.attemptId).map StepRow.id).contains stepId

lemma clears_iff {t : Tables ν} {ids : List String} {stepId : String} :
    t.clears ids stepId = true ↔ ∃ r ∈ t.steps, r.attemptId ∈ ids ∧ r.id = stepId := by
  simp [clears, and_assoc]

lemma steps_clearSteps (t : Tables ν) (ids : List String) :
    (t.clearSteps ids).steps = t.steps.filter fun s => !t.clears ids s.id := rfl

lemma vars_clearSteps (t : Tables ν) (ids : List String) :
    (t.clearSteps ids).vars = t.vars.filter fun v => !t.clears ids v.stepId := rfl

lemma clearSteps_nil (t : Tables ν) : t.clearSteps [] = t := by
  cases t
  simp [clearSteps]

/-- The steps of an attempt stay if none of them is cleared. -/
lemma stepsOf_clearSteps_of_kept {t : Tables ν} {ids : List String} {attemptId : String}
    (hkept : ∀ r ∈ t.steps, r.attemptId = attemptId → t.clears ids r.id = false) :
    (t.clearSteps ids).stepsOf attemptId = t.stepsOf attemptId := by
  unfold stepsOf
  rw [steps_clearSteps, List.filter_filter]
  refine List.filter_congr fun r hr => ?_
  by_cases hr' : r.attemptId = attemptId
  · simp [hr', hkept r hr hr']
  · simp [hr']

/-- The variables of a step stay if it is not cleared. -/
lemma varsOf_clearSteps_of_kept {t : Tables ν} {ids : List String} {stepId : String}
    (hkept : t.clears ids stepId = false) : (t.clearSteps ids).varsOf stepId = t.varsOf stepId := by
  unfold varsOf
  rw [vars_clearSteps, List.filter_filter]
  refine List.filter_congr fun v _ => ?_
  by_cases hv : v.stepId = stepId
  · simp [hv, hkept]
  · simp [hv]

variable (t : Tables ν) (w : Write ν)

lemma steps_apply : (t.apply w).steps = (t.clearSteps w.clearedAttempts).steps ++ w.newSteps := by
  unfold apply
  cases w.usage <;> rfl

lemma vars_apply : (t.apply w).vars = (t.clearSteps w.clearedAttempts).vars ++ w.newVars := by
  unfold apply
  cases w.usage <;> rfl

lemma attempts_apply :
    (t.apply w).attempts =
      (w.newAttempts ++ w.updatedAttempts).foldl (replaceRow AttemptRow.id) t.attempts := by
  unfold apply
  cases w.usage <;> rfl

lemma usages_apply :
    (t.apply w).usages = w.usage.elim t.usages (replaceRow UsageRow.id t.usages) := by
  unfold apply
  cases w.usage <;> rfl

lemma attemptsWith_apply (id : String) :
    (t.apply w).attemptsWith id =
      (((w.newAttempts ++ w.updatedAttempts).filter fun r => r.id == id).getLast?.map
        fun r => [r]).getD (t.attemptsWith id) := by
  rw [attemptsWith, attempts_apply, filter_foldl_replaceRow]
  rfl

variable {t w}

/-- A write adds its steps of an attempt to those that are stored if none of these is cleared. -/
lemma stepsOf_apply_of_kept {attemptId : String}
    (hkept : ∀ r ∈ t.steps, r.attemptId = attemptId → t.clears w.clearedAttempts r.id = false) :
    (t.apply w).stepsOf attemptId =
      t.stepsOf attemptId ++ w.newSteps.filter fun r => r.attemptId == attemptId := by
  rw [stepsOf, steps_apply, List.filter_append, ← stepsOf, stepsOf_clearSteps_of_kept hkept]

/-- A row that is written for an attempt is there afterwards, or another one with its id. -/
lemma exists_of_mem_rows {r : AttemptRow ν} (h : r ∈ w.newAttempts ++ w.updatedAttempts) :
    ∃ r' ∈ (t.apply w).attempts, r'.id = r.id := by
  have hmem : r ∈ (w.newAttempts ++ w.updatedAttempts).filter fun r' => r'.id == r.id := by
    simpa using h
  have hview := t.attemptsWith_apply w r.id
  cases hlast : ((w.newAttempts ++ w.updatedAttempts).filter fun r' => r'.id == r.id).getLast? with
  | none =>
    rw [List.getLast?_eq_none_iff.1 hlast] at hmem
    cases hmem
  | some r' =>
    rw [hlast] at hview
    exact ⟨r', mem_attemptsWith.1 (hview ▸ List.mem_cons_self)⟩

/-- Clearing more attempts clears what is cleared of the tables in between, as long as none of them
has new steps. -/
lemma clears_append {ids : List String} (hnew : ∀ r ∈ w.newSteps, r.attemptId ∉ ids)
    (stepId : String) :
    t.clears (w.clearedAttempts ++ ids) stepId =
      (t.clears w.clearedAttempts stepId || (t.apply w).clears ids stepId) := by
  rw [Bool.eq_iff_iff, Bool.or_eq_true, clears_iff, clears_iff, clears_iff, steps_apply]
  constructor
  · rintro ⟨r, hr, hid, rfl⟩
    by_cases hcleared : t.clears w.clearedAttempts r.id = true
    · exact .inl (clears_iff.1 hcleared)
    · have hkept : r ∈ (t.clearSteps w.clearedAttempts).steps := by
        simpa [steps_clearSteps, hr] using hcleared
      rcases List.mem_append.1 hid with hid | hid
      · exact .inl ⟨r, hr, hid, rfl⟩
      · exact .inr ⟨r, List.mem_append_left _ hkept, hid, rfl⟩
  · rintro (⟨r, hr, hid, rfl⟩ | ⟨r, hr, hid, rfl⟩)
    · exact ⟨r, hr, List.mem_append_left _ hid, rfl⟩
    · rcases List.mem_append.1 hr with hr | hr
      · exact ⟨r, (List.mem_filter.1 hr).1, List.mem_append_right _ hid, rfl⟩
      · exact absurd hid (hnew r hr)

section Extended

variable {w' : Write ν} {ids : List String}

/-- The steps after a write that clears more attempts and has more steps. -/
lemma steps_apply_extended {added : List (StepRow ν)}
    (hcleared : w'.clearedAttempts = w.clearedAttempts ++ ids)
    (hsteps : w'.newSteps = w.newSteps ++ added) (hnew : ∀ r ∈ w.newSteps, r.attemptId ∉ ids)
    (hkept : ∀ r ∈ w.newSteps, (t.apply w).clears ids r.id = false) :
    (t.apply w').steps = ((t.apply w).clearSteps ids).steps ++ added := by
  have hself : (w.newSteps.filter fun r => !(t.apply w).clears ids r.id) = w.newSteps := by
    rw [List.filter_eq_self]
    intro r hr
    simp [hkept r hr]
  rw [steps_apply, hcleared, hsteps, steps_clearSteps, steps_clearSteps, steps_apply,
    List.filter_append, hself, steps_clearSteps, List.filter_filter, List.append_assoc]
  congr 1
  refine List.filter_congr fun r _ => ?_
  rw [clears_append hnew, Bool.not_or, Bool.and_comm]

/-- The variables after such a write. -/
lemma vars_apply_extended {added : List VarRow}
    (hcleared : w'.clearedAttempts = w.clearedAttempts ++ ids)
    (hvars : w'.newVars = w.newVars ++ added) (hnew : ∀ r ∈ w.newSteps, r.attemptId ∉ ids)
    (hkept : ∀ v ∈ w.newVars, (t.apply w).clears ids v.stepId = false) :
    (t.apply w').vars = ((t.apply w).clearSteps ids).vars ++ added := by
  have hself : (w.newVars.filter fun v => !(t.apply w).clears ids v.stepId) = w.newVars := by
    rw [List.filter_eq_self]
    intro v hv
    simp [hkept v hv]
  rw [vars_apply, hcleared, hvars, vars_clearSteps, vars_clearSteps, vars_apply,
    List.filter_append, hself, vars_clearSteps, List.filter_filter, List.append_assoc]
  congr 1
  refine List.filter_congr fun v _ => ?_
  rw [clears_append hnew, Bool.not_or, Bool.and_comm]

end Extended

end Tables

/-! ## Ids of stored rows -/

/-- No id in the tables is still to come. -/
structure Supply.Past (supply : Supply) (t : Tables ν) : Prop where
  attempts : ∀ r ∈ t.attempts, ¬ supply.ToCome r.id ∧ ¬ supply.ToCome r.usageId
  steps : ∀ r ∈ t.steps, ¬ supply.ToCome r.id ∧ ¬ supply.ToCome r.attemptId
  vars : ∀ r ∈ t.vars, ¬ supply.ToCome r.stepId

lemma Supply.Past.mono {supply supply' : Supply} {t : Tables ν} (h : supply.Past t)
    (hle : supply ≤ supply') : supply'.Past t where
  attempts := by
    intro r hr
    obtain ⟨hid, husage⟩ := h.attempts r hr
    exact ⟨fun hcome => hid (hcome.mono hle), fun hcome => husage (hcome.mono hle)⟩
  steps := by
    intro r hr
    obtain ⟨hid, hattempt⟩ := h.steps r hr
    exact ⟨fun hcome => hid (hcome.mono hle), fun hcome => hattempt (hcome.mono hle)⟩
  vars := by
    intro r hr hcome
    exact h.vars r hr (hcome.mono hle)

namespace Attempt

/-- A step with an id is in a row of its attempt. -/
lemma Mirrored.stored {a : Attempt ν} {slot : Nat} {stale : Stale} {t : Tables ν}
    (h : a.Mirrored slot stale t) {step : Step ν} (hstep : step ∈ a.steps) {stepId : String}
    (hid : step.id = some stepId) :
    ∃ id, a.id = some id ∧ ∃ r ∈ t.steps, r.attemptId = id ∧ r.id = stepId := by
  cases ha : a.id with
  | none =>
    rw [h.inOrder.unsaved ha step hstep] at hid
    cases hid
  | some id =>
    have hfresh : ¬ stale.steps slot := fun hs => by
      rw [h.replayed hs step hstep] at hid
      cases hid
    obtain ⟨n, hn⟩ := exists_mem_withIds.2 ⟨hstep, hid⟩
    have hmem : stepRow id n stepId step ∈ t.stepsOf id := by
      rw [h.steps id ha hfresh]
      exact List.mem_map.2 ⟨_, hn, rfl⟩
    exact ⟨id, rfl, _, (Tables.mem_stepsOf.1 hmem).1, rfl, rfl⟩

lemma stepId_of_mem_varRows {stepId : String} {step : Step ν} {v : VarRow}
    (h : v ∈ varRows stepId step) : v.stepId = stepId := by
  obtain ⟨x, -, rfl⟩ := List.mem_map.1 h
  rfl

/-- The variables of added steps are under the ids of these. -/
lemma exists_of_mem_flatMap_varRows {added : List (Nat × String × Step ν)} {v : VarRow}
    (h : v ∈ added.flatMap fun e => varRows e.2.1 e.2.2) : ∃ e ∈ added, v.stepId = e.2.1 := by
  obtain ⟨e, he, hv⟩ := List.mem_flatMap.1 h
  exact ⟨e, he, stepId_of_mem_varRows hv⟩

/-- The variables of one of several steps. -/
lemma filter_varRows {added : List (Nat × String × Step ν)}
    (hnodup : (added.map fun e => e.2.1).Nodup) {e : Nat × String × Step ν} (he : e ∈ added) :
    ((added.flatMap fun e => varRows e.2.1 e.2.2).filter fun v => v.stepId == e.2.1) =
      varRows e.2.1 e.2.2 := by
  induction added with
  | nil => cases he
  | cons e' rest ih =>
    rw [List.map_cons, List.nodup_cons] at hnodup
    obtain ⟨hnot, hrest⟩ := hnodup
    rw [List.flatMap_cons, List.filter_append]
    rcases List.mem_cons.1 he with rfl | he
    · have hself : (varRows e.2.1 e.2.2).filter (fun v => v.stepId == e.2.1) =
          varRows e.2.1 e.2.2 := by
        rw [List.filter_eq_self]
        intro v hv
        simpa using stepId_of_mem_varRows hv
      have hothers : ((rest.flatMap fun e => varRows e.2.1 e.2.2).filter
          fun v => v.stepId == e.2.1) = [] := by
        rw [List.filter_eq_nil_iff]
        intro v hv
        obtain ⟨e', he', hid⟩ := exists_of_mem_flatMap_varRows hv
        rw [hid]
        simpa using fun heq => hnot (List.mem_map.2 ⟨e', he', heq⟩)
      rw [hself, hothers, List.append_nil]
    · have hne : e'.2.1 ≠ e.2.1 := fun heq => hnot (List.mem_map.2 ⟨e, he, heq.symm⟩)
      have hnone : (varRows e'.2.1 e'.2.2).filter (fun v => v.stepId == e.2.1) = [] := by
        rw [List.filter_eq_nil_iff]
        intro v hv
        simpa [stepId_of_mem_varRows hv] using hne
      rw [hnone, List.nil_append, ih hrest he]

end Attempt

/-! ## Storing one attempt -/

/-- The tables after an attempt was stored: it has its row, the steps that were to be cleared are
gone, and the added ones are there. -/
structure Stores (t t' : Tables ν) (row : AttemptRow ν) (cleared : List String)
    (added : List (Nat × String × Step ν)) : Prop where
  usages : t'.usages = t.usages
  own : t'.attemptsWith row.id = [row]
  rows : ∀ id, id ≠ row.id → t'.attemptsWith id = t.attemptsWith id
  steps : t'.steps =
    (t.clearSteps cleared).steps ++ added.map fun e => Attempt.stepRow row.id e.1 e.2.1 e.2.2
  vars : t'.vars =
    (t.clearSteps cleared).vars ++ added.flatMap fun e => Attempt.varRows e.2.1 e.2.2

namespace Stores

variable {t t' : Tables ν} {row : AttemptRow ν} {cleared : List String}
  {added : List (Nat × String × Step ν)}

/-- The rows of attempts are those from before, and the one of the attempt. -/
lemma mem_attempts (h : Stores t t' row cleared added) {r : AttemptRow ν} (hr : r ∈ t'.attempts) :
    r = row ∨ r ∈ t.attempts := by
  have hmem : r ∈ t'.attemptsWith r.id := Tables.mem_attemptsWith.2 ⟨hr, rfl⟩
  by_cases hid : r.id = row.id
  · rw [hid, h.own] at hmem
    exact .inl (List.mem_singleton.1 hmem)
  · rw [h.rows _ hid] at hmem
    exact .inr (Tables.mem_attemptsWith.1 hmem).1

/-- The rows of steps are some of those from before, and those of the added steps. -/
lemma mem_steps (h : Stores t t' row cleared added) {r : StepRow ν} (hr : r ∈ t'.steps) :
    (r ∈ t.steps ∧ t.clears cleared r.id = false) ∨
      ∃ e ∈ added, Attempt.stepRow row.id e.1 e.2.1 e.2.2 = r := by
  rw [h.steps, List.mem_append, Tables.steps_clearSteps, List.mem_filter] at hr
  refine hr.imp (fun hr => ⟨hr.1, by simpa using hr.2⟩) fun hr => ?_
  exact List.mem_map.1 hr

lemma stepsOf_self (h : Stores t t' row cleared added) :
    t'.stepsOf row.id = (t.clearSteps cleared).stepsOf row.id ++
      added.map fun e => Attempt.stepRow row.id e.1 e.2.1 e.2.2 := by
  unfold Tables.stepsOf
  rw [h.steps, List.filter_append]
  congr 1
  rw [List.filter_eq_self]
  intro r hr
  obtain ⟨e, -, rfl⟩ := List.mem_map.1 hr
  simp [Attempt.stepRow]

/-- The steps of another attempt stay if none of them is cleared. -/
lemma stepsOf_other (h : Stores t t' row cleared added) {id : String} (hid : id ≠ row.id)
    (hkept : ∀ r ∈ t.steps, r.attemptId = id → t.clears cleared r.id = false) :
    t'.stepsOf id = t.stepsOf id := by
  have hadded : ((added.map fun e => Attempt.stepRow row.id e.1 e.2.1 e.2.2).filter
      fun r => r.attemptId == id) = [] := by
    rw [List.filter_eq_nil_iff]
    intro r hr
    obtain ⟨e, -, rfl⟩ := List.mem_map.1 hr
    simpa [Attempt.stepRow] using Ne.symm hid
  rw [← Tables.stepsOf_clearSteps_of_kept hkept]
  unfold Tables.stepsOf
  rw [h.steps, List.filter_append, hadded, List.append_nil]

/-- The variables of a step stay if they are not cleared and the step is none of the added ones. -/
lemma varsOf_other (h : Stores t t' row cleared added) {stepId : String}
    (hkept : t.clears cleared stepId = false) (hadded : ∀ e ∈ added, e.2.1 ≠ stepId) :
    t'.varsOf stepId = t.varsOf stepId := by
  have hnone : ((added.flatMap fun e => Attempt.varRows e.2.1 e.2.2).filter
      fun v => v.stepId == stepId) = [] := by
    rw [List.filter_eq_nil_iff]
    intro v hv
    obtain ⟨e, he, hid⟩ := Attempt.exists_of_mem_flatMap_varRows hv
    simpa [hid] using hadded e he
  rw [← Tables.varsOf_clearSteps_of_kept hkept]
  unfold Tables.varsOf
  rw [h.vars, List.filter_append, hnone, List.append_nil]

/-- An added step has its variables. -/
lemma varsOf_added (h : Stores t t' row cleared added)
    (hnodup : (added.map fun e => e.2.1).Nodup) {e : Nat × String × Step ν} (he : e ∈ added)
    (hnew : ∀ v ∈ t.vars, v.stepId ≠ e.2.1) :
    t'.varsOf e.2.1 = Attempt.varRows e.2.1 e.2.2 := by
  have hnone : (t.clearSteps cleared).vars.filter (fun v => v.stepId == e.2.1) = [] := by
    rw [List.filter_eq_nil_iff]
    intro v hv
    simpa using hnew v (List.mem_filter.1 hv).1
  unfold Tables.varsOf
  rw [h.vars, List.filter_append, hnone, List.nil_append, Attempt.filter_varRows hnodup he]

end Stores

/-- What the row of an attempt says. -/
lemma Attempt.of_toRow {a : Attempt ν} {questionId : String} {row : AttemptRow ν}
    (h : a.toRow questionId = .ok row) :
    ∃ behaviour minFraction modified, a.behaviour = some behaviour ∧
      a.minFraction = some minFraction ∧ a.modified = some modified ∧ a.id = some row.id ∧
      row = ⟨row.id, a.usageId, a.slot, questionId, behaviour.name, a.maxMark, minFraction,
        a.flagged, a.questionSummary, a.rightAnswerSummary, a.responseSummary, modified⟩ := by
  unfold toRow at h
  split at h
  · cases h
  · rename_i hid
    split at h
    · rename_i hbehaviour hminFraction hmodified
      cases h
      exact ⟨_, _, _, hbehaviour, hminFraction, hmodified, hid, rfl⟩
    · cases h

lemma Attempt.id_of_toRow {a : Attempt ν} {questionId : String} {row : AttemptRow ν}
    (h : a.toRow questionId = .ok row) : a.id = some row.id := by
  obtain ⟨_, _, _, -, -, -, hid, -⟩ := of_toRow h
  exact hid

lemma Attempt.usageId_of_toRow {a : Attempt ν} {questionId : String} {row : AttemptRow ν}
    (h : a.toRow questionId = .ok row) : row.usageId = a.usageId := by
  obtain ⟨_, _, _, -, -, -, -, hfields⟩ := of_toRow h
  rw [hfields]

lemma Attempt.slot_of_toRow {a : Attempt ν} {questionId : String} {row : AttemptRow ν}
    (h : a.toRow questionId = .ok row) : row.slot = a.slot := by
  obtain ⟨_, _, _, -, -, -, -, hfields⟩ := of_toRow h
  rw [hfields]

/-- An attempt of a mirrored usage is about to be stored.  Its stored steps are cleared if they are
stale. -/
structure Storing (u : Usage ν) (stale : Stale) (t : Tables ν) (supply : Supply) (slot : Nat)
    (a : Attempt ν) (row : AttemptRow ν) (cleared : List String) : Prop where
  mirrors : Mirrors u stale t
  past : supply.Past t
  named : ¬ supply.ToCome u.id.text
  attempt : u.attempts.get? slot = some a
  usageId : a.usageId = u.id.text
  stored : (a.numbered supply).toRow a.question.id = .ok row
  cleared : ∀ id, id ∈ cleared ↔ a.id = some id ∧ stale.steps slot

namespace Storing

variable {u : Usage ν} {stale : Stale} {t t' : Tables ν} {supply : Supply} {slot : Nat}
  {a : Attempt ν} {row : AttemptRow ν} {cleared : List String}

lemma mirrored (h : Storing u stale t supply slot a row cleared) : a.Mirrored slot stale t :=
  h.mirrors.attempts h.attempt

/-- The attempt has its id already, or gets one that was to come. -/
lemma id_cases (h : Storing u stale t supply slot a row cleared) :
    (a.id = some row.id ∧ (a.takeId supply).2 = supply) ∨
      a.id = none ∧ supply.ToCome row.id ∧ ¬ (a.takeId supply).2.ToCome row.id := by
  have hid : row.id = (a.takeId supply).1 := (Option.some.inj (Attempt.id_of_toRow h.stored)).symm
  obtain ⟨hsome, hsame⟩ | ⟨hnone, hfresh, hnext⟩ := a.takeId_cases supply
  · exact .inl ⟨hid ▸ hsome, hsame⟩
  · rw [hid, hfresh, hnext]
    exact .inr ⟨hnone, Supply.issued_next le_rfl⟩

/-- A stored attempt has a row, whose id is not to come. -/
lemma not_toCome_of_stored (h : Storing u stale t supply slot a row cleared) {slot' : Nat}
    {b : Attempt ν} (hb : u.attempts.get? slot' = some b) {id : String} (hid : b.id = some id) :
    ¬ supply.ToCome id := by
  obtain ⟨r, hrows, -⟩ := (h.mirrors.attempts hb).row id hid
  have hmem : r ∈ t.attemptsWith id := hrows ▸ List.mem_cons_self
  obtain ⟨hr, rfl⟩ := Tables.mem_attemptsWith.1 hmem
  exact (h.past.attempts r hr).1

/-- The id is not to come any more. -/
lemma not_toCome_id (h : Storing u stale t supply slot a row cleared) :
    ¬ (a.takeId supply).2.ToCome row.id := by
  obtain ⟨hid, hsame⟩ | ⟨-, -, hpast⟩ := h.id_cases
  · rw [hsame]
    exact h.not_toCome_of_stored h.attempt hid
  · exact hpast

/-- No other attempt has the id. -/
lemma id_ne (h : Storing u stale t supply slot a row cleared) {slot' : Nat} {b : Attempt ν}
    (hne : slot' ≠ slot) (hb : u.attempts.get? slot' = some b) {id : String} (hid : b.id = some id) :
    id ≠ row.id := by
  rintro rfl
  obtain ⟨hsome, -⟩ | ⟨-, hcome, -⟩ := h.id_cases
  · exact hne (h.mirrors.distinct hb h.attempt hid hsome)
  · exact h.not_toCome_of_stored hb hid hcome

/-- The id of a stored step is not to come. -/
lemma not_toCome_of_step (h : Storing u stale t supply slot a row cleared) {slot' : Nat}
    {b : Attempt ν} (hb : u.attempts.get? slot' = some b) {step : Step ν} (hstep : step ∈ b.steps)
    {stepId : String} (hid : step.id = some stepId) : ¬ supply.ToCome stepId := by
  obtain ⟨_, -, r, hr, -, rfl⟩ := (h.mirrors.attempts hb).stored hstep hid
  exact (h.past.steps r hr).1

/-- The steps of another attempt are not cleared. -/
lemma not_clears (h : Storing u stale t supply slot a row cleared) {slot' : Nat} {b : Attempt ν}
    (hne : slot' ≠ slot) (hb : u.attempts.get? slot' = some b) {id : String} (hid : b.id = some id)
    {r : StepRow ν} (hr : r ∈ t.steps) (hrid : r.attemptId = id) :
    t.clears cleared r.id = false := by
  rw [Bool.eq_false_iff]
  intro hclears
  obtain ⟨r', hr', hmem, heq⟩ := Tables.clears_iff.1 hclears
  have hown := (h.mirrors.attempts hb).owner id hid r hr hrid r' hr' heq
  have ha := ((h.cleared _).1 hmem).1
  exact hne (h.mirrors.distinct hb h.attempt hid (hown ▸ ha))

/-- What is left of the stored steps is the steps that have ids. -/
lemma stepsOf_clearSteps (h : Storing u stale t supply slot a row cleared) :
    (t.clearSteps cleared).stepsOf row.id = a.stepRows row.id := by
  by_cases hstale : stale.steps slot ∨ a.id = none
  · have hnone : ∀ step ∈ a.steps, step.id = none := by
      obtain hstale | hnone := hstale
      · exact h.mirrored.replayed hstale
      · exact h.mirrored.inOrder.unsaved hnone
    rw [Attempt.stepRows, Attempt.withIds_of_none hnone, List.map_nil,
      List.eq_nil_iff_forall_not_mem]
    intro r hr
    obtain ⟨hr, hrid⟩ := Tables.mem_stepsOf.1 hr
    rw [Tables.steps_clearSteps, List.mem_filter] at hr
    obtain ⟨hid, -⟩ | ⟨-, hcome, -⟩ := h.id_cases
    · have hmem : r.attemptId ∈ cleared := (h.cleared _).2
        ⟨by rw [hrid, hid], hstale.resolve_right (by simp [hid])⟩
      have hclears : t.clears cleared r.id = true := Tables.clears_iff.2 ⟨r, hr.1, hmem, rfl⟩
      simp [hclears] at hr
    · exact (h.past.steps r hr.1).2 (hrid ▸ hcome)
  · obtain ⟨hfresh, hsome⟩ := not_or.1 hstale
    have hnil : cleared = [] := List.eq_nil_iff_forall_not_mem.2 fun id hid =>
      hfresh ((h.cleared id).1 hid).2
    rw [hnil, Tables.clearSteps_nil]
    obtain ⟨hid, -⟩ | ⟨hnone, -⟩ := h.id_cases
    · exact h.mirrored.steps _ hid hfresh
    · exact absurd hnone hsome

/-- The numbered attempt is mirrored, and nothing of it is stale. -/
theorem mirrored_numbered (h : Storing u stale t supply slot a row cleared)
    (hs : Stores t t' row cleared (a.addedSteps supply)) {stale' : Stale}
    (hfresh : ¬ stale'.steps slot) : (a.numbered supply).Mirrored slot stale' t' := by
  have hrow := Attempt.id_of_toRow h.stored
  have horder := h.mirrored.inOrder
  have hown : ∀ id, (a.numbered supply).id = some id → id = row.id := fun id hid =>
    Option.some.inj (hid.symm.trans hrow)
  refine ⟨?_, fun hstale => absurd hstale hfresh, fun id hid => ?_, fun id hid _ => ?_,
    fun id hid r hr hrid r' hr' heq => ?_, fun step hstep stepId hid => ?_⟩
  · exact horder.numbered fun step hstep id hid => h.not_toCome_of_step h.attempt hstep hid
  · obtain rfl := hown id hid
    exact ⟨row, hs.own, fun _ => h.stored⟩
  · obtain rfl := hown id hid
    have hrows : (a.numbered supply).stepRows row.id = a.stepRows row.id ++
        (a.addedSteps supply).map fun e => Attempt.stepRow row.id e.1 e.2.1 e.2.2 := by
      show (Attempt.withIds 0 (a.numbering supply).1).map _ = _
      rw [horder.withIds_numbering, List.map_append]
      rfl
    rw [hs.stepsOf_self, h.stepsOf_clearSteps, hrows]
  · obtain rfl := hown id hid
    obtain ⟨hr', hkept'⟩ | ⟨e', -, rfl⟩ := hs.mem_steps hr'
    · obtain ⟨hr, -⟩ | ⟨e, he, rfl⟩ := hs.mem_steps hr
      · obtain ⟨hid, -⟩ | ⟨-, hcome, -⟩ := h.id_cases
        · exact h.mirrored.owner _ hid r hr hrid r' hr' heq
        · exact absurd (hrid ▸ hcome) (h.past.steps r hr).2
      · -- an added step has the id of no step that was stored before
        have hcome := (Attempt.issued_of_mem_addedSteps he).1
        exact absurd (heq ▸ hcome) (h.past.steps r' hr').1
    · rfl
  · obtain ⟨n, hn⟩ : ∃ n, (n, stepId, step) ∈ Attempt.withIds 0 (a.numbering supply).1 :=
      Attempt.exists_mem_withIds.2 ⟨hstep, hid⟩
    rw [horder.withIds_numbering, List.mem_append] at hn
    obtain hold | hadded := hn
    · obtain ⟨hstep, -⟩ := Attempt.of_mem_withIds hold
      rw [hs.varsOf_other, h.mirrored.vars step hstep stepId hid]
      · rw [Bool.eq_false_iff]
        intro hclears
        obtain ⟨r, -, hmem, -⟩ := Tables.clears_iff.1 hclears
        rw [h.mirrored.replayed ((h.cleared _).1 hmem).2 step hstep] at hid
        cases hid
      · rintro e he rfl
        exact h.not_toCome_of_step h.attempt hstep hid (Attempt.issued_of_mem_addedSteps he).1
    · refine hs.varsOf_added (horder.nodup_addedSteps supply) hadded fun v hv heq => ?_
      exact h.past.vars v hv (heq ▸ (Attempt.issued_of_mem_addedSteps hadded).1)

/-- What is known of another attempt stays. -/
theorem mirrored_other (h : Storing u stale t supply slot a row cleared)
    (hs : Stores t t' row cleared (a.addedSteps supply)) {slot' : Nat} {b : Attempt ν}
    (hne : slot' ≠ slot) (hb : u.attempts.get? slot' = some b) : b.Mirrored slot' stale t' := by
  have hm := h.mirrors.attempts hb
  have hkept : ∀ {id}, b.id = some id → ∀ r ∈ t.steps, r.attemptId = id →
      t.clears cleared r.id = false := fun hid r hr hrid => h.not_clears hne hb hid hr hrid
  refine ⟨hm.inOrder, hm.replayed, fun id hid => ?_, fun id hid hfresh => ?_,
    fun id hid r hr hrid r' hr' heq => ?_, fun step hstep stepId hid => ?_⟩
  · rw [hs.rows id (h.id_ne hne hb hid)]
    exact hm.row id hid
  · rw [hs.stepsOf_other (h.id_ne hne hb hid) (hkept hid)]
    exact hm.steps id hid hfresh
  · obtain ⟨hr, -⟩ | ⟨e, -, rfl⟩ := hs.mem_steps hr
    · obtain ⟨hr', -⟩ | ⟨e', he', rfl⟩ := hs.mem_steps hr'
      · exact hm.owner id hid r hr hrid r' hr' heq
      · have hcome := (Attempt.issued_of_mem_addedSteps he').1
        exact absurd (heq ▸ hcome) (h.past.steps r hr).1
    · exact absurd hrid.symm (h.id_ne hne hb hid)
  · obtain ⟨id, hbid, r, hr, hrid, rfl⟩ := hm.stored hstep hid
    rw [hs.varsOf_other (hkept hbid r hr hrid), hm.vars step hstep _ hid]
    rintro e he heq
    exact (h.past.steps r hr).1 (heq ▸ (Attempt.issued_of_mem_addedSteps he).1)

/-- Storing an attempt keeps the mirror, and the attempt is not stale any more. -/
theorem mirrors_put (h : Storing u stale t supply slot a row cleared)
    (hs : Stores t t' row cleared (a.addedSteps supply)) {stale' : Stale}
    (hfresh : ¬ stale'.steps slot) (husage : stale'.usage ↔ stale.usage)
    (hrow : ∀ slot', slot' ≠ slot → (stale'.row slot' ↔ stale.row slot'))
    (hsteps : ∀ slot', slot' ≠ slot → (stale'.steps slot' ↔ stale.steps slot')) :
    Mirrors { u with attempts := u.attempts.insert slot (a.numbered supply) } stale' t' := by
  have hid := Attempt.id_of_toRow h.stored
  have hcases : ∀ {slot' b}, (u.attempts.insert slot (a.numbered supply)).get? slot' = some b →
      (slot' = slot ∧ b = a.numbered supply) ∨ slot' ≠ slot ∧ u.attempts.get? slot' = some b :=
    fun hb => SortedMap.get?_insert_cases hb
  refine ⟨fun hs' => ?_, fun r hr hrid => ?_, ?_, ?_⟩
  · rw [hs.usages]
    exact h.mirrors.usage fun hs'' => hs' (husage.2 hs'')
  · obtain rfl | hr := hs.mem_attempts hr
    · exact ⟨slot, a.numbered supply, SortedMap.get?_insert_self _ _ _, hid⟩
    · obtain ⟨slot', b, hb, hbid⟩ := h.mirrors.owned r hr hrid
      by_cases heq : slot' = slot
      · subst heq
        have hab : a = b := Option.some.inj (h.attempt.symm.trans hb)
        have hsame : (a.numbered supply).id = a.id := by
          simp [Attempt.numbered, Attempt.takeId, hab, hbid]
        exact ⟨slot', a.numbered supply, SortedMap.get?_insert_self _ _ _, by rw [hsame, hab, hbid]⟩
      · exact ⟨slot', b, (SortedMap.get?_insert_of_ne _ heq _).trans hb, hbid⟩
  · intro slot₁ slot₂ b₁ b₂ id hb₁ hb₂ hid₁ hid₂
    obtain ⟨heq₁, hself₁⟩ | ⟨hne₁, hold₁⟩ := hcases hb₁
    · obtain ⟨heq₂, -⟩ | ⟨hne₂, hold₂⟩ := hcases hb₂
      · rw [heq₁, heq₂]
      · rw [hself₁, hid] at hid₁
        exact absurd (Option.some.inj hid₁).symm (h.id_ne hne₂ hold₂ hid₂)
    · obtain ⟨-, hself₂⟩ | ⟨-, hold₂⟩ := hcases hb₂
      · rw [hself₂, hid] at hid₂
        exact absurd (Option.some.inj hid₂).symm (h.id_ne hne₁ hold₁ hid₁)
      · exact h.mirrors.distinct hold₁ hold₂ hid₁ hid₂
  · intro slot' b hb
    obtain ⟨rfl, rfl⟩ | ⟨hne, hb⟩ := hcases hb
    · exact h.mirrored_numbered hs hfresh
    · exact (h.mirrored_other hs hne hb).congr (hrow slot' hne) (hsteps slot' hne)

/-- No id in the tables is to come after an attempt was stored. -/
theorem past_numbering (h : Storing u stale t supply slot a row cleared)
    (hs : Stores t t' row cleared (a.addedSteps supply)) : (a.numbering supply).2.1.Past t' := by
  have hpast := h.past.mono (a.le_numbering supply)
  have hid : ¬ (a.numbering supply).2.1.ToCome row.id := fun hcome =>
    h.not_toCome_id (hcome.mono (a.takeId_le_numbering supply))
  have hadded : ∀ e ∈ a.addedSteps supply, ¬ (a.numbering supply).2.1.ToCome e.2.1 := fun e he =>
    (Attempt.issued_of_mem_addedSteps he).2
  refine ⟨fun r hr => ?_, fun r hr => ?_, fun v hv => ?_⟩
  · obtain rfl | hr := hs.mem_attempts hr
    · have husage : r.usageId = u.id.text :=
        (Attempt.usageId_of_toRow h.stored).trans h.usageId
      exact ⟨hid, fun hcome => h.named (husage ▸ hcome.mono (a.le_numbering supply))⟩
    · exact hpast.attempts r hr
  · obtain ⟨hr, -⟩ | ⟨e, he, rfl⟩ := hs.mem_steps hr
    · exact hpast.steps r hr
    · exact ⟨hadded e he, hid⟩
  · rw [hs.vars, List.mem_append] at hv
    obtain hv | hv := hv
    · exact hpast.vars v (List.mem_filter.1 hv).1
    · obtain ⟨e, he, heq⟩ := Attempt.exists_of_mem_flatMap_varRows hv
      rw [heq]
      exact hadded e he

end Storing
end Assessment
