import Assessment.Proofs.Store.Handle
import Assessment.Proofs.Store.Ownership

/-!
# A save writes what its usage owns

A usage in memory is owned (`Usage.Owned`) when the ids of its attempts belong to it and none of its
ids is to come.  Operations give no ids (`Usage.Owned.operation`), and a load takes them from rows
(`Usage.owned_of_load`).  Preparing a save issues new ones, which nobody owns yet, so they can be given
to the usage that is saved (`exists_owner`).

With this in place the loop over the slots keeps the write owned (`Saving.Owned.collect`): a row is
written under the usage's name and for an id that the usage owns, and the steps that are added belong
to a row that is written along with them, because an attempt with new steps is always written.
Nothing has to be known about what the tables hold of the usage.  It may have been saved from another
handle in between, or deleted.
-/

namespace Assessment

variable {ν : Type}

/-- The ids that are to come can be given to one owner. -/
lemma exists_owner (owner : String → String) (supply : Supply) (uid : String) :
    ∃ owner' : String → String, (∀ id, ¬ supply.ToCome id → owner' id = owner id) ∧
      ∀ id, supply.ToCome id → owner' id = uid := by
  classical
  refine ⟨fun id => if supply.ToCome id then uid else owner id, fun id hid => ?_, fun id hid => ?_⟩
  · simp [hid]
  · simp [hid]

/-! ## Owned usages -/

/-- A usage that is sound, owns the ids of its attempts, and has no id that is to come. -/
structure Usage.Owned (owner : String → String) (supply : Supply) (u : Usage ν) : Prop where
  sound : u.Sound
  named : u.id.isStored = true → ¬ supply.ToCome u.id.text
  attempts : ∀ {slot a}, u.attempts.get? slot = some a → ∀ {id}, a.id = some id →
    u.id.isStored = true ∧ owner id = u.id.text ∧ ¬ supply.ToCome id

namespace Usage

variable {owner owner' : String → String} {supply supply' : Supply} {u u' : Usage ν}

/-- Ids that are to come can be given away. -/
lemma Owned.mono (h : u.Owned owner supply) (hle : supply ≤ supply')
    (hsame : ∀ id, ¬ supply.ToCome id → owner' id = owner id) : u.Owned owner' supply' where
  sound := h.sound
  named := fun hstored hcome => h.named hstored (hcome.mono hle)
  attempts := by
    intro slot a ha id hid
    obtain ⟨hstored, howner, hpast⟩ := h.attempts ha hid
    exact ⟨hstored, (hsame id hpast).trans howner, fun hcome => hpast (hcome.mono hle)⟩

/-- A usage is owned if it goes by the same id as another and its attempts have no other ids than
those of that one. -/
lemma Owned.of_ids (h : u.Owned owner supply) (hsound : u'.Sound) (hid : u'.id = u.id)
    (hids : ∀ {slot a}, u'.attempts.get? slot = some a → ∀ {id}, a.id = some id →
      ∃ slot' b, u.attempts.get? slot' = some b ∧ b.id = some id) : u'.Owned owner supply where
  sound := hsound
  named := hid ▸ h.named
  attempts := by
    intro slot a ha id haid
    obtain ⟨slot', b, hb, hbid⟩ := hids ha haid
    exact hid ▸ h.attempts hb hbid

/-- Putting an attempt in a slot brings in no other id than its own. -/
lemma exists_id_of_put {slot : Nat} {a' : Attempt ν} (hid : ∀ id, a'.id = some id →
      ∃ slot' b, u.attempts.get? slot' = some b ∧ b.id = some id) (notices : List Notice) :
    ∀ {slot' b}, (u.put slot a' notices).attempts.get? slot' = some b → ∀ {id}, b.id = some id →
      ∃ slot'' c, u.attempts.get? slot'' = some c ∧ c.id = some id := by
  intro slot' b hb id hbid
  obtain ⟨-, rfl⟩ | ⟨-, hb⟩ := SortedMap.get?_insert_cases hb
  · exact hid id hbid
  · exact ⟨slot', b, hb, hbid⟩

section Operations

variable [Scalar ν]

/-- No step of an operation gives an id to an attempt. -/
lemma Step.exists_id (h : u.Step u') {slot : Nat} {a : Attempt ν}
    (ha : u'.attempts.get? slot = some a) {id : String} (hid : a.id = some id) :
    ∃ slot' b, u.attempts.get? slot' = some b ∧ b.id = some id := by
  cases h with
  | advance slot' b b' notices hb hadvance =>
    refine exists_id_of_put (fun id hid => ?_) notices ha hid
    exact ⟨slot', b, hb, hadvance.samePlace.id.symm.trans hid⟩
  | flag slot' b flagged hb =>
    refine exists_id_of_put (fun id hid => ?_) _ ha hid
    exact ⟨slot', b, hb, hid⟩
  | replay slot' b b' maxMark draw hb hok hb' =>
    obtain ⟨hnew, -⟩ := successor_replay hok
    rw [hb'] at hnew
    exact exists_id_of_put (fun id hid => ⟨slot', b, hb, hnew.place.id.symm.trans hid⟩) _ ha hid
  | add question maxMark =>
    refine exists_id_of_put (fun id hid => ?_) _ ha hid
    cases hid
  | prefer name b hb => exact ⟨slot, a, ha, hid⟩

lemma Owned.operation (h : u.Owned owner supply) (o : Operation ν) :
    (o.after u).Owned owner supply := by
  have hsteps := o.after_steps u
  generalize o.after u = u' at hsteps
  induction hsteps with
  | refl => exact h
  | tail _ hstep ih => exact ih.of_ids (hstep.sound ih.sound) hstep.id_eq fun ha => hstep.exists_id ha

end Operations

/-- Settling a usage gives no ids. -/
lemma Owned.settle (h : u.Owned owner supply) : u.settle.Owned owner supply := by
  refine h.of_ids h.sound.settle u.id_settle fun {slot a} ha id hid => ?_
  obtain ⟨b, hb, _, rfl⟩ := exists_of_get?_settle ha
  exact ⟨slot, b, hb, hid⟩

lemma owned_of_new {token plugin context preferred : String} {registry : Registry}
    (h : Usage.new token plugin context preferred registry = .ok u) (owner : String → String)
    (supply : Supply) : u.Owned owner supply := by
  have hsound := sound_of_new h
  rw [eq_of_new h] at hsound ⊢
  exact ⟨hsound, fun hstored => by simp [UsageId.isStored] at hstored, fun ha => by simp at ha⟩

/-- What a load makes of rows. -/
lemma of_load {usageId : String} {bank : Bank ν} {registry : Registry} {s : Store ν}
    (h : (Store.load usageId bank registry s).result = .ok u) :
    ∃ row ∈ s.tables.usages, row.id = usageId ∧ u.id = .stored usageId ∧ u.registry = registry ∧
      u.pending = some Changes.none ∧
      ∀ {slot a}, u.attempts.get? slot = some a →
        ∃ r ∈ s.tables.attempts, r.usageId = usageId ∧ a.id = some r.id ∧
          a.behaviour = some (registry.makeOrMissing r.behaviour u.preferred) ∧
          ∀ step ∈ a.steps, step.id.isSome = true := by
  unfold Store.load at h
  split at h
  · cases h
  · split at h
    · cases h
    · rename_i row hrow
      obtain rfl : row.id = usageId := by simpa using List.find?_some hrow
      unfold assemble at h
      cases hattempts : (Tables.attemptsOfRows bank registry row.preferred
          (Tables.orderedSteps (s.tables.rowsOf row).steps (s.tables.rowsOf row).vars)
          (s.tables.rowsOf row).attempts s).result with
      | error e => rw [Op.bind_of_error hattempts] at h; cases h
      | ok loaded =>
        rw [Op.bind_of_ok hattempts] at h
        cases h
        refine ⟨row, List.mem_of_find?_eq_some hrow, rfl, rfl, rfl, rfl, fun {slot a} ha => ?_⟩
        rw [attempts_restore] at ha
        obtain ⟨b, hb, rfl⟩ := Option.map_eq_some_iff.1 ha
        obtain ⟨b', hb', heq⟩ := List.mem_map.1 (SortedMap.mem_of_get?_ofList hb)
        cases heq
        obtain ⟨r, hr, q, own, rfl, hown⟩ := Tables.exists_of_attemptsOfRows hattempts b hb'
        obtain ⟨hmem, husage⟩ := List.mem_filter.1 hr
        refine ⟨r, hmem, by simpa using husage, rfl, rfl, fun step hstep => ?_⟩
        obtain ⟨e, he, rfl⟩ := hown step hstep
        obtain ⟨_, _, hmade⟩ := Tables.exists_row_of_mem_stepsOfRows e he
        rw [hmade]
        rfl

/-- Who is told of the changes of a usage that is loaded. -/
lemma observer_of_load {usageId : String} {bank : Bank ν} {registry : Registry} {s : Store ν}
    (h : (Store.load usageId bank registry s).result = .ok u) : u.observer = .changes := by
  obtain ⟨-, -, -, -, -, hpending, -⟩ := of_load h
  rw [observer, hpending]
  rfl

lemma owned_of_load {usageId : String} {bank : Bank ν} {registry : Registry} {s : Store ν}
    (h : (Store.load usageId bank registry s).result = .ok u) (howned : s.tables.Owned owner)
    (hpast : s.supply.Past s.tables) (husages : ∀ row ∈ s.tables.usages, ¬ s.supply.ToCome row.id) :
    u.Owned owner s.supply := by
  obtain ⟨row, hrow, rfl, hid, -, -, hattempts⟩ := of_load h
  refine ⟨sound_of_load h, fun _ => ?_, fun ha id haid => ?_⟩
  · rw [hid]
    exact husages row hrow
  · obtain ⟨r, hr, husage, hrid, -⟩ := hattempts ha
    obtain rfl := Option.some.inj (hrid.symm.trans haid)
    rw [hid]
    exact ⟨rfl, (howned.attempts r hr).trans husage, (hpast.attempts r hr).1⟩

end Usage

/-! ## Owned saves -/

namespace Saving

/-- The rows of a write with that of an attempt. -/
lemma mem_rows_writeRow {w : Write ν} {isNew isTouched : Bool} {row r : AttemptRow ν} :
    r ∈ (writeRow w isNew isTouched row).rows ↔
      r ∈ w.rows ∨ (isNew || isTouched) = true ∧ r = row := by
  unfold writeRow Write.rows
  cases isNew <;> cases isTouched <;> simp [or_comm, or_left_comm]

/-- A save that is under way and has collected only what its usage owns. -/
structure Owned (owner : String → String) (uid : String) (supply : Supply) (s : Saving ν) :
    Prop where
  id : s.usage.id = .stored uid
  usage : s.usage.Owned owner s.supply
  le : supply ≤ s.supply
  write : s.plan.write.Owned owner uid supply s.supply

variable {owner : String → String} {uid : String} {supply : Supply} {s : Saving ν}

namespace Owned

variable {taken : Option Changes} {slot : Nat} {a : Attempt ν} {row : AttemptRow ν}

/-- The row of an attempt is about an id that the usage owns. -/
lemma of_toRow (h : s.Owned owner uid supply) (hnew : ∀ id, supply.ToCome id → owner id = uid)
    (ha : s.usage.attempts.get? slot = some a)
    (hrow : (a.numbered s.supply).toRow a.question.id = .ok row) :
    owner row.id = uid ∧ row.usageId = uid ∧ ¬ (a.numbering s.supply).2.1.ToCome row.id := by
  have htaken : (a.takeId s.supply).1 = row.id := Option.some.inj (Attempt.id_of_toRow hrow)
  have husage : row.usageId = uid := by
    rw [Attempt.usageId_of_toRow hrow]
    exact (h.usage.sound.usageId ha).trans (congrArg UsageId.text h.id)
  obtain ⟨hid, -⟩ | ⟨-, hfresh, hnext⟩ := a.takeId_cases s.supply
  · obtain ⟨-, howner, hpast⟩ := h.usage.attempts ha (htaken ▸ hid)
    exact ⟨howner.trans (congrArg UsageId.text h.id), husage,
      fun hcome => hpast (hcome.mono (a.le_numbering s.supply))⟩
  · have hle := a.takeId_le_numbering s.supply
    rw [hnext] at hle
    rw [← htaken, hfresh]
    exact ⟨hnew _ (s.supply.toCome_next.mono h.le), husage, Supply.not_toCome_of_next_le hle⟩

/-- The usage owns the numbered attempt as well. -/
lemma usage_collected (h : s.Owned owner uid supply)
    (hnew : ∀ id, supply.ToCome id → owner id = uid) (ha : s.usage.attempts.get? slot = some a)
    (hrow : (a.numbered s.supply).toRow a.question.id = .ok row) :
    (s.collected taken slot a).usage.Owned owner (a.numbering s.supply).2.1 := by
  have hmono := h.usage.mono (a.le_numbering s.supply) fun _ _ => rfl
  have hsound := Usage.Sound.collect h.usage.sound taken slot
  rw [(collect_keeps taken ha).1] at hsound
  refine ⟨hsound, hmono.named, fun {slot' b} hb id hid => ?_⟩
  obtain ⟨-, rfl⟩ | ⟨-, hb⟩ := SortedMap.get?_insert_cases hb
  · obtain rfl := Option.some.inj ((Attempt.id_of_toRow hrow).symm.trans hid)
    obtain ⟨howner, -, hpast⟩ := h.of_toRow hnew ha hrow
    exact ⟨congrArg UsageId.isStored h.id, howner.trans (congrArg UsageId.text h.id).symm, hpast⟩
  · exact hmono.attempts hb hid

/-- The write owns the row of the attempt and its new steps as well. -/
lemma write_collected (h : s.Owned owner uid supply)
    (hnew : ∀ id, supply.ToCome id → owner id = uid) (ha : s.usage.attempts.get? slot = some a)
    (hrow : (a.numbered s.supply).toRow a.question.id = .ok row) :
    (writeRow (s.writeWith taken slot a) a.id.isNone (s.touches taken slot a) row).Owned owner uid
      supply (a.numbering s.supply).2.1 where
  usage := by
    rw [usage_writeRow]
    exact h.write.usage
  rows := by
    intro r hr
    obtain hr | ⟨-, rfl⟩ := mem_rows_writeRow.1 hr
    · obtain ⟨howner, husage, hpast⟩ := h.write.rows r hr
      exact ⟨howner, husage, fun hcome => hpast (hcome.mono (a.le_numbering s.supply))⟩
    · exact h.of_toRow hnew ha hrow
  cleared := by
    intro id hid
    rw [clearedAttempts_writeRow, clearedAttempts_writeWith, List.mem_append] at hid
    rcases hid with hid | hid
    · exact h.write.cleared id hid
    · exact (h.usage.attempts ha (mem_clearedWith.1 hid).1).2.1.trans (congrArg UsageId.text h.id)
  steps := by
    intro r hr
    simp only [newSteps_writeRow, writeWith, List.mem_append, List.mem_map] at hr
    obtain hr | ⟨e, he, rfl⟩ := hr
    · obtain ⟨b, hb, hid⟩ := h.write.steps r hr
      exact ⟨b, mem_rows_writeRow.2 (.inl hb), hid⟩
    · -- an attempt with new steps is written
      have hplaces : (a.numbering s.supply).2.2 ≠ [] := by
        intro hnil
        simp [Attempt.addedSteps, hnil, Attempt.stepsAt] at he
      have htouched : s.touches taken slot a = true := by simp [touches, hplaces]
      refine ⟨row, mem_rows_writeRow.2 (.inr ⟨by simp [htouched], rfl⟩), ?_⟩
      exact (Option.some.inj (Attempt.id_of_toRow hrow)).symm
  issued := by
    intro r hr
    simp only [newSteps_writeRow, writeWith, List.mem_append, List.mem_map] at hr
    obtain hr | ⟨e, he, rfl⟩ := hr
    · exact (h.write.issued r hr).mono le_rfl (a.le_numbering s.supply)
    · exact (Attempt.issued_of_mem_addedSteps he).mono h.le le_rfl
  sameAttempt := by
    -- what was issued before is not issued again
    have hapart : ∀ r ∈ s.plan.write.newSteps, ∀ e ∈ a.addedSteps s.supply, r.id ≠ e.2.1 :=
      fun r hr e he heq => (h.write.issued r hr).2 (heq ▸ (Attempt.issued_of_mem_addedSteps he).1)
    intro r hr r' hr' hid
    simp only [newSteps_writeRow, writeWith, List.mem_append, List.mem_map] at hr hr'
    obtain hr | ⟨e, he, rfl⟩ := hr <;> obtain hr' | ⟨e', he', rfl⟩ := hr'
    · exact h.write.sameAttempt r hr r' hr' hid
    · exact absurd hid (hapart r hr e' he')
    · exact absurd hid.symm (hapart r' hr' e he)
    · rfl
  vars := by
    intro x hx
    simp only [newSteps_writeRow, newVars_writeRow, writeWith, List.mem_append] at hx ⊢
    obtain hx | hx := hx
    · obtain ⟨r, hr, hid⟩ := h.write.vars x hx
      exact ⟨r, .inl hr, hid⟩
    · obtain ⟨e, he, hid⟩ := Attempt.exists_of_mem_flatMap_varRows hx
      exact ⟨_, .inr (List.mem_map.2 ⟨e, he, rfl⟩), hid.symm⟩

lemma collect (h : s.Owned owner uid supply) (hnew : ∀ id, supply.ToCome id → owner id = uid)
    (hok : (Saving.collect taken slot s).result = .ok ()) :
    (Saving.collect taken slot s).state.Owned owner uid supply := by
  obtain ⟨-, hstate⟩ | ⟨a, row, ha, hrow, hstate⟩ := collect_cases hok
  · rwa [hstate]
  · rw [hstate]
    have husage : (s.collected taken slot a).usage.Owned owner (a.numbering s.supply).2.1 :=
      h.usage_collected hnew ha hrow
    exact ⟨h.id, husage, h.le.trans (a.le_numbering s.supply), h.write_collected hnew ha hrow⟩

end Owned

/-- A save begins with a usage that goes by an id of its own. -/
lemma owned_begin {u : Usage ν} (h : u.Owned owner supply) :
    ∃ uid, (u.id = .stored uid ∨ u.id.isStored = false ∧ supply.ToCome uid) ∧
      ∀ owner', (∀ id, ¬ supply.ToCome id → owner' id = owner id) →
        (begin u supply).Owned owner' uid supply := by
  cases hid : u.id with
  | stored uid =>
    refine ⟨uid, .inl rfl, fun owner' hsame => ?_⟩
    have hu := h.mono le_rfl hsame
    rw [begin_of_stored hid]
    refine ⟨hid, ⟨hu.sound.withPending (by simp), hu.named, hu.attempts⟩, le_rfl, ?_⟩
    constructor <;> simp [Write.empty, Write.rows, Usage.toRow, hid, UsageId.text]
  | ephemeral token =>
    refine ⟨supply.rowId supply.issued, .inr ⟨rfl, supply.toCome_next⟩,
      fun owner' _ => ?_⟩
    have hsound := h.sound.begin supply
    rw [begin_of_ephemeral hid] at hsound ⊢
    refine ⟨rfl, ⟨hsound, fun _ hcome => ?_, fun {slot a} ha id haid => ?_⟩, supply.le_next, ?_⟩
    · exact Supply.not_toCome_of_next_le le_rfl hcome
    · -- as long as a usage is not stored, its attempts have no ids
      rw [Usage.withId, SortedMap.get?_map] at ha
      obtain ⟨b, hb, rfl⟩ := Option.map_eq_some_iff.1 ha
      simpa [hid, UsageId.isStored] using (h.attempts hb haid).1
    · constructor <;> simp [Write.empty, Write.rows, Usage.toRow, Usage.withId, UsageId.text]

/-- A save that is prepared writes only what its usage owns once the ids that are to come are given
to it. -/
theorem owned_prepare {u : Usage ν} (h : u.Owned owner supply) {plan : Plan ν}
    (hok : (Usage.prepare (u, supply)).result = .ok plan) :
    ∃ uid owner', (u.id = .stored uid ∨ u.id.isStored = false ∧ supply.ToCome uid) ∧
      (∀ id, ¬ supply.ToCome id → owner' id = owner id) ∧
      Owned owner' uid supply
        ⟨(Usage.prepare (u, supply)).state.1, (Usage.prepare (u, supply)).state.2, plan⟩ := by
  obtain ⟨uid, huid, hbegin⟩ := owned_begin h
  obtain ⟨owner', hsame, hnew⟩ := exists_owner owner supply uid
  exact ⟨uid, owner', huid, hsame,
    prepare_keeps (hbegin owner' hsame) (fun slot _ s hs hok => hs.collect hnew hok) hok⟩

end Saving

/-- What preparing a save leaves of a usage, whether it succeeds or fails. -/
lemma Usage.Owned.prepare {owner : String → String} {supply : Supply} {u : Usage ν}
    (h : u.Owned owner supply) :
    ∃ owner', (∀ id, ¬ supply.ToCome id → owner' id = owner id) ∧
      (Usage.prepare (u, supply)).state.1.Owned owner' (Usage.prepare (u, supply)).state.2 := by
  cases hr : (Usage.prepare (u, supply)).result with
  | error e =>
    refine ⟨owner, fun _ _ => rfl, ?_⟩
    rw [(Usage.prepare_undone h.sound supply).1 e hr]
    exact h.mono (u.le_prepare supply) fun _ _ => rfl
  | ok plan =>
    obtain ⟨uid, owner', -, hsame, howned⟩ := Saving.owned_prepare h hr
    exact ⟨owner', hsame, howned.usage⟩

end Assessment
