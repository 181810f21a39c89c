import Assessment.Proofs.Store.Exclusive
import Assessment.Proofs.Usage.Prolonged

/-!
# Copies of a stored usage

A copy of a stored usage (`Store.Copy`) is what was loaded, and what has become of it by batches.  A save
of the copy clears no stored steps and adds those that the batches added, numbered on from those that
were loaded (`Copy.write_spec`).  It looks at nothing that the store has by then.

So when two copies of one usage are saved, the second goes on from the same number as the first, and steps
of an attempt get the same number exactly if both copies have steps to add to it
(`Copy.numbersSteps_iff`).
-/

namespace Assessment

variable {ν : Type}

/-! ## Steps with numbers -/

namespace Tables

/-- No two steps of an attempt are stored under the same number. -/
def NumbersSteps (t : Tables ν) : Prop :=
  ∀ attemptId, ((t.stepsOf attemptId).map StepRow.index).Nodup

lemma Intact.numbersSteps {t : Tables ν} (h : t.Intact) : t.NumbersSteps := by
  intro attemptId
  cases hsteps : t.stepsOf attemptId with
  | nil => exact List.nodup_nil
  | cons r rest =>
    have hr : r ∈ t.stepsOf attemptId := hsteps ▸ List.mem_cons_self
    obtain ⟨hmem, rfl⟩ := mem_stepsOf.1 hr
    obtain ⟨a, ha, hid⟩ := h.attemptOf r hmem
    obtain ⟨n, -, hplaces⟩ := h.places a ha
    rw [hid, hsteps] at hplaces
    rw [hplaces]
    exact List.nodup_range

/-- A write that clears nothing adds its steps to those of an attempt. -/
lemma stepsOf_apply (t : Tables ν) {w : Write ν} (hcleared : w.clearedAttempts = [])
    (attemptId : String) :
    (t.apply w).stepsOf attemptId =
      t.stepsOf attemptId ++ w.newSteps.filter fun r => r.attemptId == attemptId :=
  stepsOf_apply_of_kept fun r _ _ => by simp [hcleared, clears]

/-- Two runs of numbers overlap when the second starts before the first ends, unless it is empty. -/
lemma nodup_range_append {m n k : Nat} (hle : n ≤ m) :
    (List.range m ++ List.range' n k).Nodup ↔ ¬ (n < m ∧ 0 < k) := by
  rw [List.nodup_append]
  constructor
  · rintro ⟨-, -, hapart⟩ ⟨hlt, hpos⟩
    exact hapart n (List.mem_range.2 hlt) n (List.mem_range'_1.2 (by omega)) rfl
  · refine fun hnot => ⟨List.nodup_range, List.nodup_range', fun x hx y hy heq => ?_⟩
    rw [List.mem_range] at hx
    rw [List.mem_range'_1] at hy
    omega

end Tables

/-! ## Saves that only add -/

namespace Saving

/-- A save under way that clears no steps and adds steps to attempts of its usage. -/
structure Appends (s : Saving ν) : Prop where
  cleared : s.plan.write.clearedAttempts = []
  steps : ∀ r ∈ s.plan.write.newSteps, ∃ slot a, s.usage.attempts.get? slot = some a ∧
    a.id = some r.attemptId

lemma appends_begin (u : Usage ν) (supply : Supply) : (begin u supply).Appends :=
  ⟨rfl, fun r hr => by simp [begin, Write.empty] at hr⟩

/-- An attempt whose stored steps stay is collected without clearing anything. -/
lemma Appends.collect {s : Saving ν} (h : s.Appends) {taken : Option Changes} {slot : Nat}
    (hkept : (taken.getD Changes.none).stepsDeleted.has slot = false)
    (hok : (Saving.collect taken slot s).result = .ok ()) :
    (Saving.collect taken slot s).state.Appends := by
  obtain ⟨-, hstate⟩ | ⟨a, row, ha, hrow, hstate⟩ := collect_cases hok
  · rwa [hstate]
  · rw [hstate]
    refine ⟨?_, fun r hr => ?_⟩
    · have hnone : clearedWith taken slot s a = [] := by simp [clearedWith, hkept]
      simp only [clearedAttempts_writeRow, clearedAttempts_writeWith, hnone, List.append_nil]
      exact h.cleared
    · simp only [newSteps_writeRow, writeWith, List.mem_append, List.mem_map] at hr
      obtain hr | ⟨e, -, rfl⟩ := hr
      · obtain ⟨slot', hb⟩ := h.steps r hr
        exact ⟨slot', exists_id_insert ha hb⟩
      · exact ⟨slot, _, SortedMap.get?_insert_self _ _ _, rfl⟩

/-- A save of a usage whose stored steps all stay clears nothing. -/
lemma appends_prepare {u : Usage ν} {supply : Supply} {plan : Plan ν}
    (hkept : ∀ slot ∈ u.slots, (u.pending.getD Changes.none).stepsDeleted.has slot = false)
    (hok : (Usage.prepare (u, supply)).result = .ok plan) :
    Appends ⟨(Usage.prepare (u, supply)).state.1, (Usage.prepare (u, supply)).state.2, plan⟩ :=
  prepare_keeps (appends_begin u supply)
    (fun slot hslot _ hs hok => hs.collect (hkept slot hslot) hok) hok

end Saving

/-- Where both usages have an attempt, it has the same number of steps. -/
def Usage.SameLengths (u u' : Usage ν) : Prop :=
  ∀ ⦃slot a a'⦄, u.attempts.get? slot = some a → u'.attempts.get? slot = some a' →
    a'.steps.length = a.steps.length

variable [Scalar ν]

namespace Store

/-! ## Copies -/

/-- A stored usage as it was loaded from a store, and what batches have made of it in memory.  The copy is
the only one as far as it knows. -/
structure Copy (s : Store ν) (us : List (Usage ν)) (usageId : String) (loaded now : Usage ν) : Prop where
  id : loaded.id = .stored usageId
  saved : loaded.outline.Saved s.outline.tables
  reloaded : loaded.outline.reloaded = loaded.outline
  hasSteps : loaded.outline.HasSteps
  prolonged : ∃ slots, loaded.Prolonged slots now
  tended : ∃ owner, Tended owner s (now :: us)

namespace Copy

variable {s : Store ν} {us : List (Usage ν)} {usageId : String} {w u w' u' : Usage ν}

lemma of_load {owner : String → String} (h : Tended owner s us) {bank : Bank ν} {registry : Registry}
    (hu : (Store.load usageId bank registry s).result = .ok u)
    (hfree : ∀ u' ∈ us, u'.id ≠ .stored usageId) : Copy s us usageId u u := by
  obtain ⟨row, hrow, hrowId, hid, -⟩ := Usage.of_load hu
  obtain ⟨hsaved, hsteps⟩ := h.saved_of_load hu
  refine ⟨hid, hsaved, ?_, hsteps, ⟨[], .refl _ u⟩, owner, h.load hu hfree⟩
  exact (Tended.outline_of_load hsaved hid u.outline_outline h.backend hu).symm

/-- Whatever is loaded as well is a copy of the same. -/
lemma outline_of_load (h : Copy s us usageId w u) {bank : Bank ν} {registry : Registry}
    (hw' : (Store.load usageId bank registry s).result = .ok w') : w'.outline = w.outline := by
  obtain ⟨owner, htended⟩ := h.tended
  rw [Tended.outline_of_load h.saved h.id w.outline_outline htended.backend hw', h.reloaded]

lemma submit (h : Copy s us usageId w w) {batch : Batch} {time : Instant} {actor : Option String}
    (hok : (Usage.submit batch time actor w).result = .ok ()) :
    Copy s us usageId w (Usage.submit batch time actor w).state := by
  obtain ⟨owner, htended⟩ := h.tended
  exact ⟨h.id, h.saved, h.reloaded, h.hasSteps, ⟨_, (Usage.prolonged_submit hok).2⟩, owner,
    htended.operation (.submit batch time actor)⟩

/-- Ids that are issued to others do not matter. -/
lemma supply (h : Copy s us usageId w u) {supply : Supply} (hle : s.supply ≤ supply) :
    Copy { s with supply := supply } us usageId w u := by
  obtain ⟨owner, htended⟩ := h.tended
  exact ⟨h.id, h.saved, h.reloaded, h.hasSteps, h.prolonged, owner, htended.supply hle⟩

lemma sound (h : Copy s us usageId w u) : u.Sound := by
  obtain ⟨owner, htended⟩ := h.tended
  exact Usage.sound_outline.1 (htended.kept u.outline List.mem_cons_self).sound

/-- An attempt that was loaded: it has an id and steps, which are the stored ones. -/
lemma attempt (h : Copy s us usageId w u) {slot : Nat} {a : Attempt ν}
    (ha : w.attempts.get? slot = some a) :
    ∃ id, a.id = some id ∧ a.steps ≠ [] ∧ (∀ step ∈ a.steps, step.id.isSome = true) ∧
      (s.tables.stepsOf id).map StepRow.index = List.range a.steps.length := by
  have hattempt : w.outline.attempts.get? slot = some a.outline := Usage.get?_outline.2 ⟨a, ha, rfl⟩
  obtain ⟨hid, hids⟩ := h.saved.numbered hattempt
  obtain ⟨id, hid⟩ := Option.isSome_iff_exists.1 hid
  have hne : a.outline.steps ≠ [] := h.hasSteps hattempt (h.saved.started hattempt)
  exact ⟨id, hid, hne, hids, h.saved.map_index_stepsOf hattempt hid⟩

/-! ## What a copy writes -/

/-- No stored steps of a copy go. -/
lemma has_stepsDeleted (h : Copy s us usageId w u) {slot : Nat} (hslot : slot ∈ u.slots) :
    (u.pending.getD Changes.none).stepsDeleted.has slot = false := by
  obtain ⟨slots, hprolonged⟩ := h.prolonged
  obtain ⟨owner, htended⟩ := h.tended
  obtain ⟨a', ha'⟩ := SortedMap.mem_keys_iff.1 hslot
  obtain ⟨a, ha, hlater⟩ := hprolonged.attempts.of_get?_eq_some ha'
  obtain ⟨id, -, hne, hids, -⟩ := h.attempt ha
  obtain ⟨step, hstep⟩ := List.exists_mem_of_ne_nil _ hne
  obtain hunsaved | ⟨-, -, c, htracks⟩ := (htended.kept u.outline List.mem_cons_self).tracked
  · obtain ⟨token, htoken⟩ := hunsaved.id
    have hid : u.outline.id = .stored usageId := hprolonged.id.trans h.id
    rw [hid] at htoken
    cases htoken
  · -- an attempt whose steps are replayed has no step with an id, but the loaded ones have ids
    have hpending : u.pending = some c := htracks.pending
    rw [hpending, Option.getD_some, Bool.eq_false_iff]
    intro hdeleted
    obtain ⟨later, hsteps, -⟩ := hlater.steps
    have hnone := (htracks.mirrors.attempts (Usage.get?_outline.2 ⟨a', ha', rfl⟩)).replayed hdeleted
      step (hsteps ▸ List.mem_append_left _ hstep)
    simpa [hnone] using hids step hstep

/-- The stored steps of an attempt after the copy was saved. -/
lemma map_index_stepsOf (h : Copy s us usageId w u) {plan : Plan ν}
    (hok : (Usage.prepare (u, s.supply)).result = .ok plan) {slot : Nat} {a : Attempt ν}
    (ha : u.attempts.get? slot = some a) {id : String} (hid : a.id = some id) :
    ((s.tables.apply plan.write).stepsOf id).map StepRow.index = List.range a.steps.length := by
  obtain ⟨owner, htended⟩ := h.tended
  obtain ⟨a', ha', hids, hlength⟩ := (Usage.matches_prepare h.sound hok).get?_eq_some ha
  obtain ⟨o, hsettled⟩ := Usage.exists_get?_settle ha'
  have hsaved := (htended.saved_save hok).map_index_stepsOf
    (Usage.get?_outline.2 ⟨_, hsettled, rfl⟩) (hids id hid)
  rw [← hlength]
  exact hsaved

/-- A copy that is loaded after another was saved has as many steps as that one. -/
lemma sameLengths_of_load (h : Copy s us usageId w u) {plan : Plan ν}
    (hok : (Usage.prepare (u, s.supply)).result = .ok plan) {supply : Supply} {bank : Bank ν}
    {registry : Registry} (hload : (Store.load usageId bank registry
      { s with supply := supply, tables := s.tables.apply plan.write }).result = .ok w') :
    u.SameLengths w' := by
  intro slot a a' ha ha'
  obtain ⟨slots, hprolonged⟩ := h.prolonged
  obtain ⟨owner, htended⟩ := h.tended
  have howned : u.Owned owner s.supply :=
    Usage.owned_outline.1 (htended.owned u.outline List.mem_cons_self)
  have hstored : u.id = .stored usageId := hprolonged.id.trans h.id
  obtain ⟨uid, owner', huid, -, hprepared⟩ := Saving.owned_prepare howned hok
  have hid : (Usage.prepare (u, s.supply)).state.1.settle.outline.id = .stored usageId := by
    refine (Usage.id_settle _).trans ?_
    obtain hown | ⟨hephemeral, -⟩ := huid
    · exact hprepared.id.trans (hown.symm.trans hstored)
    · simp [hstored, UsageId.isStored] at hephemeral
  obtain ⟨b, hb, -, hlength⟩ := (Usage.matches_prepare h.sound hok).get?_eq_some ha
  have hreloaded := congrArg (fun x => x.attempts.get? slot) (Tended.outline_of_load
    (s := { s with supply := supply, tables := s.tables.apply plan.write }) (htended.saved_save hok) hid
    (Usage.outline_outline _) htended.backend hload)
  obtain ⟨o, hsettled⟩ := Usage.exists_get?_settle hb
  simp only [Usage.outline, Usage.reloaded, SortedMap.get?_map, ha', hsettled, Option.map_some,
    Option.some.injEq] at hreloaded
  have hsteps : a'.steps = b.steps := (congrArg Attempt.steps hreloaded :)
  rw [hsteps, hlength]

/-- The store after a save of a copy, when the copy is let go. -/
lemma tended_save (h : Copy s us usageId w u) {plan : Plan ν}
    (hok : (Usage.prepare (u, s.supply)).result = .ok plan) :
    ∃ owner, Tended owner { s with
      supply := (Usage.prepare (u, s.supply)).state.2, tables := s.tables.apply plan.write } us := by
  obtain ⟨owner, htended⟩ := h.tended
  obtain ⟨e, he, -⟩ | ⟨plan', hok', -, hstate⟩ := Usage.save_cases (u := u) htended.backend
  · rw [hok] at he
    cases he
  · obtain rfl := Except.ok.inj (hok.symm.trans hok')
    obtain ⟨owner', hsaved⟩ := htended.save
    rw [hstate] at hsaved
    exact ⟨owner', hsaved.tail⟩

/-- A save of a copy clears nothing, adds steps only to attempts that were loaded, and numbers them on
from those that were loaded, whatever ids have been issued meanwhile. -/
lemma write_spec (h : Copy s us usageId w u) {supply : Supply} (hle : s.supply ≤ supply)
    {plan : Plan ν} (hok : (Usage.prepare (u, supply)).result = .ok plan) :
    plan.write.clearedAttempts = [] ∧
    (∀ r ∈ plan.write.newSteps, ∃ slot a, w.attempts.get? slot = some a ∧ a.id = some r.attemptId) ∧
    ∀ {slot a a' id}, w.attempts.get? slot = some a → u.attempts.get? slot = some a' →
      a.id = some id →
      (plan.write.newSteps.filter fun r => r.attemptId == id).map StepRow.index =
        List.range' a.steps.length (a'.steps.length - a.steps.length) := by
  obtain ⟨slots, hprolonged⟩ := h.prolonged
  have happends := Saving.appends_prepare (fun slot hslot => h.has_stepsDeleted hslot) hok
  refine ⟨happends.cleared, fun r hr => ?_, fun {slot a a' id} ha ha' hid => ?_⟩
  · obtain ⟨slot, b, hb, hbid⟩ := happends.steps r hr
    obtain ⟨a₁, ha₁, hids, -⟩ := (Usage.matches_prepare h.sound hok).of_get?_eq_some hb
    obtain ⟨a, ha, hlater⟩ := hprolonged.attempts.of_get?_eq_some ha₁
    obtain ⟨id, hid, -⟩ := h.attempt ha
    have hsame := hids id (hlater.id.trans hid)
    exact ⟨slot, a, ha, hid.trans (hsame.symm.trans hbid)⟩
  · obtain ⟨a'', ha'', hlater⟩ := hprolonged.attempts.get?_eq_some ha
    obtain rfl := Option.some.inj (ha'.symm.trans ha'')
    obtain ⟨id', hid', -, -, hloaded⟩ := h.attempt ha
    obtain rfl := Option.some.inj (hid'.symm.trans hid)
    -- the save of this copy alone would number the steps from zero
    have halone := (h.supply hle).map_index_stepsOf hok ha' (hlater.id.trans hid)
    rw [Tables.stepsOf_apply _ happends.cleared, List.map_append, hloaded, List.range_eq_range',
      List.range_eq_range'] at halone
    refine List.append_cancel_left (halone.trans ?_)
    have hsplit := List.range'_append_1 (s := 0) (m := a.steps.length)
      (n := a'.steps.length - a.steps.length)
    rw [Nat.zero_add, Nat.add_sub_cancel' hlater.length_le] at hsplit
    exact hsplit.symm

/-- Copies of one usage have the same attempts with the same steps. -/
lemma alike (hsame : w'.outline = w.outline) {slot : Nat} {a b : Attempt ν}
    (ha : w.attempts.get? slot = some a) (hb : w'.attempts.get? slot = some b) :
    b.id = a.id ∧ b.steps = a.steps := by
  have hslot := congrArg (fun x => x.attempts.get? slot) hsame
  simp only [Usage.outline, SortedMap.get?_map, ha, hb, Option.map_some, Option.some.injEq] at hslot
  exact ⟨(congrArg Attempt.id hslot :), (congrArg Attempt.steps hslot :)⟩

/-- After two copies of one usage were saved, the steps of an attempt are those of the first save and
those that the second has added. -/
lemma nodup_stepsOf_iff (h : Copy s us usageId w u) (h' : Copy s us usageId w' u')
    (hsame : w'.outline = w.outline) {plan plan' : Plan ν}
    (hok : (Usage.prepare (u, s.supply)).result = .ok plan)
    (hok' : (Usage.prepare (u', (Usage.prepare (u, s.supply)).state.2)).result = .ok plan')
    {slot : Nat} {a b a' b' : Attempt ν} {id : String} (ha : w.attempts.get? slot = some a)
    (hb : w'.attempts.get? slot = some b) (ha' : u.attempts.get? slot = some a')
    (hb' : u'.attempts.get? slot = some b') (hid : a.id = some id) :
    ((((s.tables.apply plan.write).apply plan'.write).stepsOf id).map StepRow.index).Nodup ↔
      ¬ (a.steps.length < a'.steps.length ∧ b.steps.length < b'.steps.length) := by
  obtain ⟨slots, hprolonged⟩ := h.prolonged
  obtain ⟨hcleared, -, hindices⟩ := h'.write_spec (u.le_prepare s.supply) hok'
  obtain ⟨a'', ha'', hlater⟩ := hprolonged.attempts.get?_eq_some ha
  obtain rfl := Option.some.inj (ha'.symm.trans ha'')
  obtain ⟨hbid, hbsteps⟩ := alike hsame ha hb
  rw [Tables.stepsOf_apply _ hcleared, List.map_append,
    h.map_index_stepsOf hok ha' (hlater.id.trans hid), hindices hb hb' (hbid.trans hid), hbsteps,
    Tables.nodup_range_append hlater.length_le, Nat.sub_pos_iff_lt]

/-- After two copies of one usage were saved, the steps of every attempt have numbers of their own exactly
if the copies do not both add steps to one attempt. -/
theorem numbersSteps_iff (h : Copy s us usageId w u) (h' : Copy s us usageId w' u')
    (hsame : w'.outline = w.outline) {plan plan' : Plan ν}
    (hok : (Usage.prepare (u, s.supply)).result = .ok plan)
    (hok' : (Usage.prepare (u', (Usage.prepare (u, s.supply)).state.2)).result = .ok plan')
    (hnumbers : (s.tables.apply plan.write).NumbersSteps) :
    ((s.tables.apply plan.write).apply plan'.write).NumbersSteps ↔
      ∀ slot, ¬ (w.GrowsIn slot u ∧ w'.GrowsIn slot u') := by
  constructor
  · rintro hnodup slot ⟨⟨a, a', ha, ha', hlt⟩, b, b', hb, hb', hlt'⟩
    obtain ⟨id, hid, -⟩ := h.attempt ha
    exact (h.nodup_stepsOf_iff h' hsame hok hok' ha hb ha' hb' hid).1 (hnodup id) ⟨hlt, hlt'⟩
  · intro hnone id
    obtain ⟨slots, hprolonged⟩ := h.prolonged
    obtain ⟨slots', hprolonged'⟩ := h'.prolonged
    obtain ⟨hcleared, hnew, -⟩ := h'.write_spec (u.le_prepare s.supply) hok'
    by_cases hloaded : ∃ slot b, w'.attempts.get? slot = some b ∧ b.id = some id
    · obtain ⟨slot, b, hb, hid⟩ := hloaded
      obtain ⟨a, ha, -⟩ := Usage.get?_outline.1 (hsame ▸ Usage.get?_outline.2 ⟨b, hb, rfl⟩)
      obtain ⟨a', ha', -⟩ := hprolonged.attempts.get?_eq_some ha
      obtain ⟨b', hb', -⟩ := hprolonged'.attempts.get?_eq_some hb
      refine (h.nodup_stepsOf_iff h' hsame hok hok' ha hb ha' hb'
        ((alike hsame ha hb).1.symm.trans hid)).2 fun hboth => ?_
      exact hnone slot ⟨⟨a, a', ha, ha', hboth.1⟩, b, b', hb, hb', hboth.2⟩
    · -- nothing is added to an attempt that was not loaded
      have hadded : plan'.write.newSteps.filter (fun r => r.attemptId == id) = [] := by
        rw [List.filter_eq_nil_iff]
        intro r hr heq
        obtain ⟨slot, b, hb, hid⟩ := hnew r hr
        exact hloaded ⟨slot, b, hb, hid.trans (congrArg some (beq_iff_eq.1 heq))⟩
      rw [Tables.stepsOf_apply _ hcleared, hadded, List.append_nil]
      exact hnumbers id

end Copy
end Store
end Assessment
