import Assessment.Proofs.Store.Apply
import Assessment.Proofs.Usage.Reach

/-!
# What a save writes

A save is prepared slot by slot, and at each point the write collected so far is one that could be
made (`Saving.Writing`): the tables after it mirror the usage under way, up to the attempts that are
still to be collected.  Collecting an attempt adds to the write what storing the attempt takes
(`Saving.Writing.stores`), so the loop keeps this (`Saving.Writing.collect`).  When no attempt is left
the tables mirror the usage without exception, and every attempt and every step has an id
(`Saving.Writing.settle`).

A save begins with a usage that keeps track of its changes, or with one that is not stored and of
which nothing has an id (`Usage.Unsaved`).
-/

namespace Assessment

variable {ν : Type}

/-- What is out of date while the attempts in some slots are still to be collected.  A save that takes
no changes writes every attempt. -/
def Stale.due (taken : Option Changes) (slots : List Nat) : Stale where
  usage := False
  row slot := slot ∈ slots ∧
    (taken.isNone = true ∨ (taken.getD Changes.none).slotsToUpdate.has slot = true)
  steps slot := slot ∈ slots ∧ (taken.getD Changes.none).stepsDeleted.has slot = true

/-- Whatever is known of the slots in use can be said of the usage with other unsaved changes. -/
lemma Mirrors.congr {u : Usage ν} {stale stale' : Stale} {t : Tables ν} (h : Mirrors u stale t)
    (husage : ¬ stale'.usage → ¬ stale.usage)
    (hslots : ∀ {slot a}, u.attempts.get? slot = some a →
      (stale'.row slot ↔ stale.row slot) ∧ (stale'.steps slot ↔ stale.steps slot))
    (pending : Option Changes) : Mirrors { u with pending := pending } stale' t where
  usage := fun hs => h.usage (husage hs)
  owned := h.owned
  distinct := h.distinct
  attempts := fun ha => (h.attempts ha).congr (hslots ha).1 (hslots ha).2

namespace Saving

/-- A save that is under way: the tables after what it would write now mirror the usage, up to the
attempts in the slots that are still to be collected. -/
structure Writing (t : Tables ν) (taken : Option Changes) (slots : List Nat) (s : Saving ν) :
    Prop where
  sound : s.usage.Sound
  stored : s.usage.id.isStored = true
  pending : s.usage.pending.getD Changes.none = Changes.none
  mirrors : Mirrors s.usage (Stale.due taken slots) (t.apply s.plan.write)
  past : s.supply.Past (t.apply s.plan.write)
  named : ¬ s.supply.ToCome s.usage.id.text
  -- no attempt whose stored steps are to be cleared has new ones
  newSteps : ∀ r ∈ s.plan.write.newSteps, ∀ {slot a}, s.usage.attempts.get? slot = some a →
    a.id = some r.attemptId → ¬ (Stale.due taken slots).steps slot
  newVars : ∀ v ∈ s.plan.write.newVars, ∃ r ∈ s.plan.write.newSteps, r.id = v.stepId
  numbered : ∀ {slot a}, s.usage.attempts.get? slot = some a → slot ∉ slots →
    a.id.isSome = true ∧ ∀ step ∈ a.steps, step.id.isSome = true

/-! ## The row of an attempt in a write -/

section WriteRow

variable (w : Write ν) (isNew isTouched : Bool) (row : AttemptRow ν)

@[simp] lemma usage_writeRow : (writeRow w isNew isTouched row).usage = w.usage := by
  unfold writeRow
  split_ifs <;> rfl

@[simp] lemma clearedAttempts_writeRow :
    (writeRow w isNew isTouched row).clearedAttempts = w.clearedAttempts := by
  unfold writeRow
  split_ifs <;> rfl

@[simp] lemma newSteps_writeRow : (writeRow w isNew isTouched row).newSteps = w.newSteps := by
  unfold writeRow
  split_ifs <;> rfl

@[simp] lemma newVars_writeRow : (writeRow w isNew isTouched row).newVars = w.newVars := by
  unfold writeRow
  split_ifs <;> rfl

/-- The rows that a write has for other attempts. -/
lemma filter_writeRow {id : String} (h : id ≠ row.id) :
    (((writeRow w isNew isTouched row).newAttempts ++
      (writeRow w isNew isTouched row).updatedAttempts).filter fun r => r.id == id) =
      (w.newAttempts ++ w.updatedAttempts).filter fun r => r.id == id := by
  unfold writeRow
  split_ifs <;> simp [Ne.symm h]

end WriteRow

/-- The attempt whose stored steps are cleared when an attempt is collected, if they are. -/
def clearedWith (taken : Option Changes) (slot : Nat) (s : Saving ν) (a : Attempt ν) : List String :=
  if !a.id.isNone && (taken.getD Changes.none).stepsDeleted.has slot then [(a.takeId s.supply).1]
  else []

lemma mem_clearedWith {taken : Option Changes} {slot : Nat} {s : Saving ν} {a : Attempt ν}
    {id : String} :
    id ∈ clearedWith taken slot s a ↔
      a.id = some id ∧ (taken.getD Changes.none).stepsDeleted.has slot = true := by
  unfold clearedWith Attempt.takeId
  cases a.id with
  | none => simp
  | some id' =>
    simp only [Option.isNone_some, Bool.not_false, Bool.true_and, Option.some.injEq]
    split
    · rename_i hdeleted
      simp [hdeleted, eq_comm]
    · rename_i hdeleted
      simp [hdeleted]

lemma clearedAttempts_writeWith (s : Saving ν) (taken : Option Changes) (slot : Nat)
    (a : Attempt ν) :
    (s.writeWith taken slot a).clearedAttempts =
      s.plan.write.clearedAttempts ++ clearedWith taken slot s a := by
  unfold writeWith clearedWith
  simp only
  split_ifs <;> simp

/-! ## Collecting an attempt -/

namespace Writing

variable {t : Tables ν} {taken : Option Changes} {slot : Nat} {slots : List Nat} {s : Saving ν}
  {a : Attempt ν} {row : AttemptRow ν}

lemma storing (h : Writing t taken (slot :: slots) s) (ha : s.usage.attempts.get? slot = some a)
    (hrow : (a.numbered s.supply).toRow a.question.id = .ok row) :
    Storing s.usage (Stale.due taken (slot :: slots)) (t.apply s.plan.write) s.supply slot a row
      (clearedWith taken slot s a) where
  mirrors := h.mirrors
  past := h.past
  named := h.named
  attempt := ha
  usageId := h.sound.usageId ha
  stored := hrow
  cleared := fun id => by simp [mem_clearedWith, Stale.due]

/-- The one row that an attempt has after the write. -/
lemma attemptsWith_collect (h : Writing t taken (slot :: slots) s)
    (ha : s.usage.attempts.get? slot = some a)
    (hrow : (a.numbered s.supply).toRow a.question.id = .ok row) :
    (t.apply (writeRow (s.writeWith taken slot a) a.id.isNone (s.touches taken slot a) row)
      ).attemptsWith row.id = [row] := by
  have hstoring := h.storing ha hrow
  rw [Tables.attemptsWith_apply]
  obtain ⟨hid, -⟩ | ⟨hnone, hcome, -⟩ := hstoring.id_cases
  · cases htouched : s.touches taken slot a with
    | true => simp [writeRow, hid]
    | false =>
      -- nothing of the attempt has changed, so its row is the one that is there
      simp only [touches, Bool.or_eq_false_iff, Bool.not_eq_false', List.isEmpty_iff] at htouched
      obtain ⟨⟨htracked, hclean⟩, hplaces⟩ := htouched
      have hsame : a.numbered s.supply = a := Attempt.numbered_eq_self hid hplaces
      obtain ⟨r, hr, hfresh⟩ := hstoring.mirrored.row _ hid
      have hr' : a.toRow a.question.id = .ok r := hfresh fun hs => by
        simp [Stale.due, htracked, hclean] at hs
      rw [hsame, hr'] at hrow
      cases hrow
      have hview := t.attemptsWith_apply s.plan.write row.id
      rw [hr] at hview
      simpa [writeRow, writeWith, hid] using hview.symm
  · have hupdated : (s.plan.write.updatedAttempts.filter fun r => r.id == row.id) = [] := by
      rw [List.filter_eq_nil_iff]
      intro r hr heq
      obtain ⟨r', hr', hid⟩ := Tables.exists_of_mem_rows (t := t) (List.mem_append_right _ hr)
      have heq : r.id = row.id := by simpa using heq
      exact (h.past.attempts r' hr').1 (hid ▸ heq ▸ hcome)
    simp [writeRow, writeWith, hnone, hupdated]

/-- Collecting an attempt adds to the write what storing it takes. -/
theorem stores (h : Writing t taken (slot :: slots) s) (ha : s.usage.attempts.get? slot = some a)
    (hrow : (a.numbered s.supply).toRow a.question.id = .ok row) :
    Stores (t.apply s.plan.write)
      (t.apply (writeRow (s.writeWith taken slot a) a.id.isNone (s.touches taken slot a) row)) row
      (clearedWith taken slot s a) (a.addedSteps s.supply) := by
  have hid : (a.takeId s.supply).1 = row.id := Option.some.inj (Attempt.id_of_toRow hrow)
  have hstoring := h.storing ha hrow
  have hnew : ∀ r ∈ s.plan.write.newSteps, r.attemptId ∉ clearedWith taken slot s a := by
    intro r hr hmem
    obtain ⟨hra, hstale⟩ := (hstoring.cleared _).1 hmem
    exact h.newSteps r hr ha hra hstale
  have hkept : ∀ r ∈ s.plan.write.newSteps,
      (t.apply s.plan.write).clears (clearedWith taken slot s a) r.id = false := by
    intro r hr
    rw [Bool.eq_false_iff]
    intro hclears
    obtain ⟨r', hr', hmem, heq⟩ := Tables.clears_iff.1 hclears
    have hmem' : r ∈ (t.apply s.plan.write).steps := by
      rw [Tables.steps_apply]
      exact List.mem_append_right _ hr
    have hown := hstoring.mirrored.owner _ ((hstoring.cleared _).1 hmem).1 r' hr' rfl r hmem' heq.symm
    exact hnew r hr (hown ▸ hmem)
  have hcleared : (writeRow (s.writeWith taken slot a) a.id.isNone (s.touches taken slot a)
      row).clearedAttempts = s.plan.write.clearedAttempts ++ clearedWith taken slot s a := by
    rw [clearedAttempts_writeRow, clearedAttempts_writeWith]
  refine ⟨?_, h.attemptsWith_collect ha hrow, fun id hne => ?_, ?_, ?_⟩
  · rw [Tables.usages_apply, Tables.usages_apply, usage_writeRow]
    rfl
  · rw [Tables.attemptsWith_apply, Tables.attemptsWith_apply, filter_writeRow _ _ _ _ hne]
    rfl
  · refine Tables.steps_apply_extended hcleared ?_ hnew hkept
    rw [newSteps_writeRow, ← hid]
    rfl
  · refine Tables.vars_apply_extended hcleared ?_ hnew fun v hv => ?_
    · rw [newVars_writeRow]
      rfl
    · obtain ⟨r, hr, heq⟩ := h.newVars v hv
      rw [← heq]
      exact hkept r hr

/-- What is due in the other slots. -/
lemma due_cons_of_ne {slot' : Nat} (hne : slot' ≠ slot) :
    ((Stale.due taken slots).row slot' ↔ (Stale.due taken (slot :: slots)).row slot') ∧
      ((Stale.due taken slots).steps slot' ↔ (Stale.due taken (slot :: slots)).steps slot') := by
  simp [Stale.due, hne]

/-- A slot without an attempt is passed over. -/
lemma skip (h : Writing t taken (slot :: slots) s) (ha : s.usage.attempts.get? slot = none) :
    Writing t taken slots s := by
  have hne : ∀ {slot' b}, s.usage.attempts.get? slot' = some b → slot' ≠ slot := fun hb heq => by
    rw [heq, ha] at hb
    cases hb
  refine ⟨h.sound, h.stored, h.pending, ?_, h.past, h.named, fun r hr {slot' b} hb hid hs => ?_,
    h.newVars, fun hb hmem => h.numbered hb ?_⟩
  · exact h.mirrors.congr (fun _ hs => hs) (fun hb => due_cons_of_ne (hne hb)) s.usage.pending
  · exact h.newSteps r hr hb hid ((due_cons_of_ne (hne hb)).2.1 hs)
  · rw [List.mem_cons, not_or]
    exact ⟨hne hb, hmem⟩

/-- Collecting an attempt keeps what is known of the save, and the attempt is done. -/
theorem collect (h : Writing t taken (slot :: slots) s) (hnot : slot ∉ slots)
    (hok : (Saving.collect taken slot s).result = .ok ()) :
    Writing t taken slots (Saving.collect taken slot s).state := by
  have hsound := Usage.Sound.collect h.sound taken slot
  obtain ⟨hnone, hstate⟩ | ⟨a, row, ha, hrow, hstate⟩ := collect_cases hok
  · rw [hstate]
    exact h.skip hnone
  · rw [hstate] at hsound ⊢
    have hstoring := h.storing ha hrow
    have hstores := h.stores ha hrow
    have hid : (a.takeId s.supply).1 = row.id := Option.some.inj (Attempt.id_of_toRow hrow)
    have hfresh : ¬ (Stale.due taken slots).steps slot := fun hs => hnot hs.1
    refine ⟨hsound, h.stored, h.pending, ?_, hstoring.past_numbering hstores, fun hcome => ?_,
      fun r hr {slot' b} hb hbid hs => ?_, fun v hv => ?_, fun {slot' b} hb hmem => ?_⟩
    · exact hstoring.mirrors_put hstores hfresh Iff.rfl (fun slot' hne => (due_cons_of_ne hne).1)
        fun slot' hne => (due_cons_of_ne hne).2
    · exact h.named (hcome.mono (a.le_numbering s.supply))
    · obtain ⟨rfl, -⟩ | ⟨hne, hb⟩ := SortedMap.get?_insert_cases hb
      · exact hfresh hs
      · simp only [newSteps_writeRow, writeWith, List.mem_append, List.mem_map] at hr
        obtain hr | ⟨e, -, rfl⟩ := hr
        · exact h.newSteps r hr hb hbid ((due_cons_of_ne hne).2.1 hs)
        · exact hstoring.id_ne hne hb hbid hid
    · simp only [newSteps_writeRow, newVars_writeRow, writeWith, List.mem_append] at hv ⊢
      obtain hv | hv := hv
      · obtain ⟨r, hr, heq⟩ := h.newVars v hv
        exact ⟨r, .inl hr, heq⟩
      · obtain ⟨e, he, heq⟩ := Attempt.exists_of_mem_flatMap_varRows hv
        exact ⟨_, .inr (List.mem_map.2 ⟨e, he, rfl⟩), heq.symm⟩
    · obtain ⟨-, rfl⟩ | ⟨hne, hb⟩ := SortedMap.get?_insert_cases hb
      · exact ⟨rfl, Attempt.isSome_of_mem_assignStepIds⟩
      · exact h.numbered hb (by simp [hne, hmem])

/-- Collecting all attempts. -/
theorem collectAll (h : Writing t taken slots s) (hnodup : slots.Nodup)
    (hok : (Op.forEach (Saving.collect taken) slots s).result = .ok ()) :
    Writing t taken [] (Op.forEach (Saving.collect taken) slots s).state := by
  induction slots generalizing s with
  | nil => exact h
  | cons slot rest ih =>
    obtain ⟨hnot, hrest⟩ := List.nodup_cons.1 hnodup
    cases hslot : (Saving.collect taken slot s).result with
    | error e =>
      rw [Op.forEach_cons_of_error hslot] at hok
      cases hok
    | ok _ =>
      rw [Op.forEach_cons_of_ok hslot] at hok ⊢
      exact ih (h.collect hnot hslot) hrest hok

/-- When everything is collected, the tables mirror the settled usage without exception. -/
theorem settle (h : Writing t taken [] s) :
    Tracks s.usage.settle Changes.none (t.apply s.plan.write) := by
  rw [h.sound.settle_eq]
  exact {
    pending := congrArg some h.pending
    stored := fun _ _ => rfl
    mirrors := (h.mirrors.congr (fun _ hs => hs)
      (fun _ => by simp [Stale.due, Changes.stale, Changes.has_slotsToUpdate, Changes.none])
      s.usage.pending).tracking _ }

end Writing
end Saving

/-! ## The beginning of a save -/

/-- A usage that was never stored: it keeps no track of changes, and nothing of it has an id. -/
structure Usage.Unsaved (u : Usage ν) : Prop where
  pending : u.pending = none
  id : ∃ token, u.id = .ephemeral token
  attempts : ∀ {slot a}, u.attempts.get? slot = some a →
    a.id = none ∧ ∀ step ∈ a.steps, step.id = none

/-- A write of nothing but the row of a usage. -/
lemma Tables.apply_usageRow (t : Tables ν) (row : Option UsageRow) (isNew : Bool) :
    t.apply { Write.empty with usage := row, usageIsNew := isNew } =
      { t with usages := row.elim t.usages (replaceRow UsageRow.id t.usages) } := by
  unfold apply
  cases row with
  | none => simp [Write.empty, clearSteps_nil]
  | some row =>
    have hcleared := clearSteps_nil { t with usages := replaceRow UsageRow.id t.usages row }
    simp [Write.empty, hcleared]

lemma Tables.find?_replaceRow (rows : List UsageRow) (u : Usage ν) :
    (replaceRow UsageRow.id rows u.toRow).find? (fun r => r.id == u.id.text) = some u.toRow := by
  have hnone : (rows.filter fun r => r.id != u.toRow.id).find? (fun r => r.id == u.id.text) =
      none := by
    simp [List.find?_eq_none, Usage.toRow]
  rw [replaceRow, List.find?_append, hnone]
  simp [Usage.toRow]

lemma Supply.Past.withUsages {supply : Supply} {t : Tables ν} (h : supply.Past t)
    (usages : List UsageRow) : supply.Past { t with usages := usages } :=
  ⟨h.attempts, h.steps, h.vars⟩

/-- What is known of an attempt does not depend on the rows of usages. -/
lemma Attempt.Mirrored.withUsages {a : Attempt ν} {slot : Nat} {stale : Stale} {t : Tables ν}
    (h : a.Mirrored slot stale t) (usages : List UsageRow) :
    a.Mirrored slot stale { t with usages := usages } :=
  ⟨h.inOrder, h.replayed, h.row, h.steps, h.owner, h.vars⟩

namespace Saving

variable {u : Usage ν} {t : Tables ν} {supply : Supply}

/-- A save of a usage that keeps track of its changes begins by writing its row if this changed. -/
lemma writing_begin_of_tracks {c : Changes} (hu : u.Sound) (h : Tracks u c t)
    (hid : u.id.isStored = true) (hpast : supply.Past t) (hnamed : ¬ supply.ToCome u.id.text) :
    Writing t u.pending u.slots (begin u supply) := by
  have hsound := hu.begin supply
  obtain ⟨id, hid⟩ := UsageId.exists_eq_stored hid
  rw [begin_of_stored hid] at hsound ⊢
  refine ⟨hsound, by simp [hid, UsageId.isStored], by simp [h.pending], ?_, ?_, hnamed, ?_, ?_, ?_⟩
  · rw [Tables.apply_usageRow]
    refine ⟨fun _ => ?_, h.mirrors.owned, h.mirrors.distinct, fun {slot a} ha => ?_⟩
    · simp only [h.pending, Option.all_some]
      cases hmodified : c.usageModified with
      | true => exact Tables.find?_replaceRow t.usages u
      | false => exact h.mirrors.usage (by simp [Changes.stale, hmodified])
    · have hslot : slot ∈ u.slots := SortedMap.mem_keys_iff.2 ⟨a, ha⟩
      refine ((h.mirrors.attempts ha).withUsages _).congr ?_ ?_ <;>
        simp [Stale.due, Changes.stale, h.pending, hslot]
  · rw [Tables.apply_usageRow]
    exact hpast.withUsages _
  · simp [Write.empty]
  · simp [Write.empty]
  · intro slot a ha hnot
    exact absurd (SortedMap.mem_keys_iff.2 ⟨a, ha⟩) hnot

/-- A save of a usage that was never stored begins by giving it an id, under which there are no
rows. -/
lemma writing_begin_of_unsaved (hu : u.Sound) (h : u.Unsaved) (hpast : supply.Past t) :
    Writing t u.pending u.slots (begin u supply) := by
  have hsound := hu.begin supply
  obtain ⟨token, hid⟩ := h.id
  have hle : supply ≤ supply.next := supply.le_next
  have hnone : ∀ {slot a},
      (u.withId (.stored (supply.rowId supply.issued))).attempts.get? slot = some a →
      slot ∈ u.slots ∧ a.id = none ∧ ∀ step ∈ a.steps, step.id = none := by
    intro slot a ha
    rw [Usage.withId, SortedMap.get?_map] at ha
    obtain ⟨a', ha', rfl⟩ := Option.map_eq_some_iff.1 ha
    have hids := h.attempts ha'
    exact ⟨SortedMap.mem_keys_iff.2 ⟨a', ha'⟩, hids⟩
  rw [begin_of_ephemeral hid] at hsound ⊢
  refine ⟨hsound, rfl, by simp [h.pending], ?_, ?_, fun hcome => ?_, ?_, ?_, ?_⟩
  · rw [Tables.apply_usageRow]
    refine ⟨fun _ => ?_, fun r hr hrid => ?_, ?_, fun ha => ?_⟩
    · exact Tables.find?_replaceRow t.usages (u.withId (.stored (supply.rowId supply.issued)))
    · exact absurd (hrid ▸ supply.toCome_next) (hpast.attempts r hr).2
    · intro slot slot' a a' id ha _ haid _
      rw [(hnone ha).2.1] at haid
      cases haid
    · obtain ⟨-, haid, hsteps⟩ := hnone ha
      exact .of_unsaved (Attempt.inOrder_of_none hsteps) haid _ _ _
  · rw [Tables.apply_usageRow]
    exact (hpast.mono hle).withUsages _
  · exact Supply.not_toCome_of_next_le le_rfl hcome
  · simp [Write.empty]
  · simp [Write.empty]
  · intro slot a ha hnot
    exact absurd (hnone ha).1 hnot

/-- A save that is prepared to the end. -/
theorem writing_prepare {plan : Plan ν} (h : Writing t u.pending u.slots (begin u supply))
    (hok : (Usage.prepare (u, supply)).result = .ok plan) :
    Writing t u.pending []
      ⟨(Usage.prepare (u, supply)).state.1, (Usage.prepare (u, supply)).state.2, plan⟩ := by
  obtain ⟨hloop, hstate⟩ := prepare_of_ok hok
  rw [hstate]
  exact h.collectAll u.attempts.nodup_keys hloop

end Saving
end Assessment
