import Assessment.Proofs.Store.Holding
import Assessment.Proofs.Store.Resave

/-!
# Tables that are intact

Nothing in the tables says that the rows of a step refer to an attempt that exists, or that no place is
taken twice.  `Tables.Intact` says all of this.  It follows from what is known of a store whose usages
are held apart (`Store.Holds`): each row is one that some saved usage was written to, and that usage has
one attempt in a slot, its steps in a row, and one value for a variable (`Store.Holds.intact`).
-/

namespace Assessment

variable {ν : Type}

/-- The tables keep their integrity. -/
structure Tables.Intact (t : Tables ν) : Prop where
  -- no id stands twice
  usages : (t.usages.map UsageRow.id).Nodup
  attempts : (t.attempts.map AttemptRow.id).Nodup
  steps : (t.steps.map StepRow.id).Nodup
  -- every row belongs to one that is there
  usageOf : ∀ r ∈ t.attempts, ∃ row ∈ t.usages, row.id = r.usageId
  attemptOf : ∀ r ∈ t.steps, ∃ a ∈ t.attempts, a.id = r.attemptId
  stepOf : ∀ x ∈ t.vars, ∃ r ∈ t.steps, r.id = x.stepId
  slots : (t.attempts.map fun r => (r.usageId, r.slot)).Nodup
  /-- The steps of an attempt are numbered from zero, and there is one. -/
  places : ∀ a ∈ t.attempts, ∃ n ≥ 1, (t.stepsOf a.id).map StepRow.index = List.range n
  vars : (t.vars.map fun x => (x.stepId, x.name)).Nodup

/-! ## The rows of an attempt -/

namespace Attempt

lemma map_place_withIds (place : Nat) {steps : List (Step ν)}
    (h : ∀ step ∈ steps, step.id.isSome = true) :
    (withIds place steps).map Prod.fst = List.range' place steps.length := by
  induction steps generalizing place with
  | nil => rfl
  | cons step rest ih =>
    obtain ⟨id, hid⟩ := Option.isSome_iff_exists.1 (h step List.mem_cons_self)
    rw [withIds_cons, hid, List.map_append, ih _ fun s hs => h s (List.mem_cons_of_mem _ hs),
      List.length_cons, List.range'_succ]
    rfl

/-- When all steps have ids, their rows are numbered from zero. -/
lemma map_index_stepRows {a : Attempt ν} (h : ∀ step ∈ a.steps, step.id.isSome = true) (id : String) :
    (a.stepRows id).map StepRow.index = List.range a.steps.length := by
  rw [stepRows, List.map_map, List.range_eq_range', ← map_place_withIds 0 h]
  rfl

/-- A step has one row for each of its variables. -/
lemma nodup_varRows (stepId : String) (step : Step ν) :
    ((varRows stepId step).map fun x => (x.stepId, x.name)).Nodup := by
  have hnames : (varRows stepId step).map (fun x => (x.stepId, x.name)) =
      step.vars.keys.map fun name => (stepId, name) := by
    simp [varRows, SortedMap.keys, Function.comp_def]
  rw [hnames]
  exact step.vars.nodup_keys.map fun _ _ h => (Prod.mk.inj h).2

end Attempt

/-! ## Attempts with steps -/

namespace Usage

/-- Every started attempt has steps. -/
def HasSteps (u : Usage ν) : Prop :=
  ∀ ⦃slot a⦄, u.attempts.get? slot = some a → a.behaviour.isSome = true → a.steps ≠ []

namespace HasSteps

variable {u : Usage ν}

lemma map (h : u.HasSteps) {f : Attempt ν → Attempt ν}
    (hf : ∀ a, (f a).behaviour.isSome = a.behaviour.isSome ∧ (f a).steps.length = a.steps.length)
    {u' : Usage ν} (hu' : u'.attempts = u.attempts.map f) : u'.HasSteps := by
  intro slot b hb hstarted
  rw [hu', SortedMap.get?_map] at hb
  obtain ⟨a, ha, rfl⟩ := Option.map_eq_some_iff.1 hb
  have hsteps := h ha ((hf a).1 ▸ hstarted)
  rw [← List.length_pos_iff] at hsteps ⊢
  exact (hf a).2 ▸ hsteps

lemma settle (h : u.HasSteps) : u.settle.HasSteps := by
  intro slot a ha hstarted
  obtain ⟨b, hb, _, rfl⟩ := exists_of_get?_settle ha
  have hsteps := h hb hstarted
  exact hsteps

lemma reloaded (h : u.HasSteps) : u.reloaded.HasSteps :=
  h.map (f := Attempt.reloaded u.preferred) (fun a => ⟨by simp [Attempt.reloaded], rfl⟩) rfl

/-- Preparing a save gives ids and nothing else. -/
lemma prepare (h : u.HasSteps) {supply : Supply} {plan : Plan ν}
    (hok : (Usage.prepare (u, supply)).result = .ok plan) :
    (Usage.prepare (u, supply)).state.1.HasSteps := by
  have hbegin : (Saving.begin u supply).usage.HasSteps := by
    cases hid : u.id with
    | stored id =>
      rw [Saving.begin_of_stored hid]
      exact h
    | ephemeral token =>
      rw [Saving.begin_of_ephemeral hid]
      exact h.map (f := fun a => { a with usageId := supply.rowId supply.issued })
        (fun a => ⟨rfl, rfl⟩) rfl
  refine Saving.prepare_keeps (P := fun s => s.usage.HasSteps) hbegin (fun slot _ s hs _ => ?_) hok
  cases ha : s.usage.attempts.get? slot with
  | none => rwa [Saving.collect_of_none ha]
  | some a =>
    rw [(Saving.collect_keeps u.pending ha).1]
    intro slot' b hb hstarted
    obtain ⟨-, rfl⟩ | ⟨-, hb⟩ := SortedMap.get?_insert_cases hb
    · have hsteps := hs ha hstarted
      have hlength : (a.numbered s.supply).steps.length = a.steps.length :=
        Attempt.length_assignStepIds
      rw [← List.length_pos_iff] at hsteps ⊢
      exact hlength ▸ hsteps
    · exact hs hb hstarted

/-- A change keeps that started attempts have steps. -/
lemma change [Scalar ν] {u' : Usage ν} (hu : u.HasSteps) (h : u.Change u') : u'.HasSteps := by
  intro slot b hb hstarted
  cases h with
  | put ha hchange =>
    obtain ⟨-, rfl⟩ | ⟨-, hb⟩ := SortedMap.get?_insert_cases hb
    · exact hchange.started (hu ha) hstarted
    · exact hu hb hstarted
  | add hid hsteps hbehaviour =>
    obtain ⟨-, rfl⟩ | ⟨-, hb⟩ := SortedMap.get?_insert_cases hb
    · simp [hbehaviour] at hstarted
    · exact hu hb hstarted
  | prefer name => exact hu hb hstarted

end HasSteps
end Usage

/-! ## Usages held apart have intact tables -/

namespace Usage.Saved

variable {u : Usage ν} {t : Tables ν}

/-- A row under the name of a saved usage is that of one of its attempts. -/
lemma attempt_of_row (h : u.Saved t) {r : AttemptRow ν} (hr : r ∈ t.attempts)
    (hid : u.id = .stored r.usageId) :
    ∃ slot a, u.attempts.get? slot = some a ∧ a.toRow a.question.id = .ok r :=
  h.exists_attempt (List.mem_filter.2 ⟨hr, by simp [toRow, hid, UsageId.text]⟩)

/-- The stored steps of an attempt. -/
lemma stepsOf_eq (h : u.Saved t) {slot : Nat} {a : Attempt ν} (ha : u.attempts.get? slot = some a)
    {id : String} (hid : a.id = some id) : t.stepsOf id = a.stepRows id :=
  (h.mirrors.attempts ha).steps id hid (not_stale slot).2

/-- The stored steps of an attempt are numbered from zero. -/
lemma map_index_stepsOf (h : u.Saved t) {slot : Nat} {a : Attempt ν}
    (ha : u.attempts.get? slot = some a) {id : String} (hid : a.id = some id) :
    (t.stepsOf id).map StepRow.index = List.range a.steps.length := by
  rw [h.stepsOf_eq ha hid]
  exact Attempt.map_index_stepRows (h.numbered ha).2 id

end Usage.Saved

namespace Store.Holds

variable {P : Usage ν → Prop} {owner : String → String} {s : Store ν} {us : List (Usage ν)}

/-- Every row of an attempt is one that a saved usage has. -/
lemma saved_of_attempt (h : Holds P owner s us) {r : AttemptRow ν} (hr : r ∈ s.tables.attempts) :
    ∃ g slot a, g.id = .stored r.usageId ∧ g.Saved s.tables ∧ P g ∧ g.attempts.get? slot = some a ∧
      a.toRow a.question.id = .ok r := by
  obtain ⟨g, hid, hg, hproperty⟩ := h.saved r.usageId (h.usageOf r hr)
  obtain ⟨slot, a, ha, htoRow⟩ := hg.attempt_of_row hr hid
  exact ⟨g, slot, a, hid, hg, hproperty, ha, htoRow⟩

/-- So is every row of a step. -/
lemma saved_of_step (h : Holds P owner s us) {r : StepRow ν} (hr : r ∈ s.tables.steps) :
    ∃ (g : Usage ν) (slot : Nat) (a : Attempt ν), g.Saved s.tables ∧
      g.attempts.get? slot = some a ∧ s.tables.stepsOf r.attemptId = a.stepRows r.attemptId := by
  obtain ⟨row, hrow, hid⟩ := h.store.tables.steps r hr
  obtain ⟨g, slot, a, -, hg, -, ha, htoRow⟩ := h.saved_of_attempt hrow
  exact ⟨g, slot, a, hg, ha, hg.stepsOf_eq ha (hid ▸ Attempt.id_of_toRow htoRow)⟩

/-- The tables are intact when usages are held apart whose started attempts have steps. -/
theorem intact (h : Holds P owner s us) (hsteps : ∀ u, P u → u.HasSteps) : s.tables.Intact := by
  have hattempts : (s.tables.attempts.map AttemptRow.id).Nodup := by
    refine nodup_map_of_groups AttemptRow.usageId _ (fun r hr => ?_) fun r hr r' hr' heq => ?_
    · obtain ⟨g, hid, hg, -⟩ := h.saved r.usageId (h.usageOf r hr)
      have hnodup := hg.nodup_attempts
      simpa only [Tables.rowsOf, Usage.toRow, hid, UsageId.text] using hnodup
    · rw [← h.store.tables.attempts r hr, ← h.store.tables.attempts r' hr', heq]
  constructor
  case usages => exact h.usages
  case attempts => exact hattempts
  case steps =>
    refine nodup_map_of_groups StepRow.attemptId _ (fun r hr => ?_) fun r hr r' hr' heq =>
      h.store.tables.sameAttempt r' hr' r hr heq
    obtain ⟨g, slot, a, hg, ha, hrows⟩ := h.saved_of_step hr
    show ((s.tables.stepsOf r.attemptId).map StepRow.id).Nodup
    rw [hrows, Attempt.map_id_stepRows]
    exact (hg.mirrors.attempts ha).inOrder.nodup
  case usageOf => exact h.usageOf
  case attemptOf => exact h.store.tables.steps
  case stepOf => exact h.store.tables.vars
  case slots =>
    -- two rows in one slot of a usage are the row of one attempt
    refine List.Nodup.map_on (fun r hr r' hr' heq => ?_) hattempts.of_map
    obtain ⟨husage, hslot⟩ := Prod.mk.inj heq
    obtain ⟨g, hid, hg, -⟩ := h.saved r.usageId (h.usageOf r hr)
    obtain ⟨slot, a, ha, htoRow⟩ := hg.attempt_of_row hr hid
    obtain ⟨slot', a', ha', htoRow'⟩ := hg.attempt_of_row hr' (husage ▸ hid)
    have hsame : slot = slot' := calc
      slot = a.slot := (hg.sound.slot ha).symm
      _ = r.slot := (Attempt.slot_of_toRow htoRow).symm
      _ = r'.slot := hslot
      _ = a'.slot := Attempt.slot_of_toRow htoRow'
      _ = slot' := hg.sound.slot ha'
    subst hsame
    obtain rfl := Option.some.inj (ha.symm.trans ha')
    exact Except.ok.inj (htoRow.symm.trans htoRow')
  case places =>
    intro r hr
    obtain ⟨g, slot, a, -, hg, hproperty, ha, htoRow⟩ := h.saved_of_attempt hr
    have hpos : 0 < a.steps.length :=
      List.length_pos_iff.2 (hsteps g hproperty ha (hg.started ha))
    exact ⟨a.steps.length, hpos, hg.map_index_stepsOf ha (Attempt.id_of_toRow htoRow)⟩
  case vars =>
    refine nodup_map_of_groups VarRow.stepId _ (fun x hx => ?_) fun x _ x' _ heq =>
      (Prod.mk.inj heq).1
    obtain ⟨r, hr, hid⟩ := h.store.tables.vars x hx
    obtain ⟨g, slot, a, hg, ha, hrows⟩ := h.saved_of_step hr
    have hmem : r ∈ a.stepRows r.attemptId := hrows ▸ Tables.mem_stepsOf.2 ⟨hr, rfl⟩
    obtain ⟨⟨place, id, step⟩, he, hrow⟩ := List.mem_map.1 hmem
    obtain ⟨hstep, hstepId⟩ := Attempt.of_mem_withIds he
    have hid : id = x.stepId := (congrArg StepRow.id hrow).trans hid
    show ((s.tables.varsOf x.stepId).map _).Nodup
    rw [← hid, (hg.mirrors.attempts ha).vars step hstep id hstepId]
    exact Attempt.nodup_varRows id step

end Store.Holds
end Assessment
