import Assessment.Proofs.Store.Reread

/-!
# Renewals in any order

Putting attempts in their places one list after the other is putting them there at once
(`Store.renew_renew`), as long as no attempt is in both lists.  The order of the attempts matters
for the order of the rows, and for which step gets which of the next ids.  So two orders leave
stores that are alike (`Store.Alike`): the rows are the same but for their order and for a renaming
of the ids that are new (`Store.renew_alike`).

Which new id becomes which follows the permutation of the steps (`exists_perm_zipIdx`).
-/

namespace Assessment

variable {ν : Type}

/-! ## One list after the other -/

namespace LooseStep

lemma of_mem_rows {supply : Supply} {steps : List (LooseStep ν)} {r : StepRow ν}
    (h : r ∈ rows supply steps) :
    supply.ToCome r.id ∧ ∃ e ∈ steps, r.attemptId = e.attemptId := by
  obtain ⟨e, he, rfl⟩ := List.mem_map.1 h
  exact ⟨⟨e.2, List.le_snd_of_mem_zipIdx he, rfl⟩, e.1, List.fst_mem_of_mem_zipIdx he, rfl⟩

lemma of_mem_varRows {supply : Supply} {steps : List (LooseStep ν)} {r : VarRow}
    (h : r ∈ varRows supply steps) : supply.ToCome r.stepId := by
  obtain ⟨e, he, hr⟩ := List.mem_flatMap.1 h
  obtain ⟨_, -, rfl⟩ := List.mem_map.1 hr
  exact ⟨e.2, List.le_snd_of_mem_zipIdx he, rfl⟩

end LooseStep

attribute [ext] Tables

namespace Store

lemma renew_nil (s : Store ν) : s.renew [] = s := by
  have hwrite : Write.renewing s.supply ([] : List (Attempt ν)) = Write.empty := rfl
  have htables : s.tables.apply Write.empty = s.tables := by
    simp [Tables.apply, Write.empty, Tables.clearSteps_nil]
  rw [renew, hwrite, htables]
  rfl

/-- One list after the other is as both at once. -/
theorem renew_renew {s : Store ν} (hpast : s.supply.Past s.tables)
    {attempts more : List (Attempt ν)} (hapart : ∀ a ∈ attempts, ∀ b ∈ more, a.id ≠ b.id) :
    (s.renew attempts).renew more = s.renew (attempts ++ more) := by
  set supply := s.supply.skip (attempts.flatMap Attempt.loose).length with hsupply
  -- the new steps belong to none of the attempts that are put in their places next
  have hnew : ∀ r ∈ (Write.renewing s.supply attempts).newSteps,
      r.attemptId ∉ more.filterMap Attempt.id := by
    intro r hr hid
    obtain ⟨-, e, he, hattempt⟩ := LooseStep.of_mem_rows hr
    obtain ⟨a, ha, he⟩ := List.mem_flatMap.1 he
    obtain ⟨b, hb, hbid⟩ := List.mem_filterMap.1 hid
    refine hapart a ha b hb ?_
    rw [Attempt.mem_loose he, hbid, hattempt]
  have hkept : ∀ id, s.supply.ToCome id → (s.tables.apply (Write.renewing s.supply attempts)).clears
      (more.filterMap Attempt.id) id = false := by
    intro id hcome
    rw [← Bool.not_eq_true, Tables.clears_iff, Tables.steps_apply]
    rintro ⟨r, hr, hattempt, rfl⟩
    obtain hr | hr := List.mem_append.1 hr
    · exact (hpast.steps r (List.mem_filter.1 hr).1).1 hcome
    · exact hnew r hr hattempt
  have hcleared : (Write.renewing s.supply (attempts ++ more)).clearedAttempts =
      (Write.renewing s.supply attempts).clearedAttempts ++ more.filterMap Attempt.id :=
    List.filterMap_append
  have hrows : (Write.renewing s.supply (attempts ++ more)).newSteps =
      (Write.renewing s.supply attempts).newSteps ++
        LooseStep.rows supply (more.flatMap Attempt.loose) := by
    simp [Write.renewing, LooseStep.rows_append, hsupply]
  have hvarRows : (Write.renewing s.supply (attempts ++ more)).newVars =
      (Write.renewing s.supply attempts).newVars ++
        LooseStep.varRows supply (more.flatMap Attempt.loose) := by
    simp [Write.renewing, LooseStep.varRows_append, hsupply]
  have htables : (s.tables.apply (Write.renewing s.supply attempts)).apply
      (Write.renewing supply more) = s.tables.apply (Write.renewing s.supply (attempts ++ more)) := by
    refine Tables.ext ?_ ?_ ?_ ?_
    · simp only [Tables.usages_apply]
      rfl
    · rw [Tables.attempts_apply, Tables.attempts_apply, Tables.attempts_apply, ← List.foldl_append]
      simp [Write.renewing, Write.empty]
    · rw [Tables.steps_apply_extended hcleared hrows hnew, Tables.steps_apply]
      · rfl
      · exact fun r hr => hkept r.id (LooseStep.of_mem_rows hr).1
    · rw [Tables.vars_apply_extended hcleared hvarRows hnew, Tables.vars_apply]
      · rfl
      · exact fun r hr => hkept r.stepId (LooseStep.of_mem_varRows hr)
  have hcount : supply.skip (more.flatMap Attempt.loose).length =
      s.supply.skip ((attempts ++ more).flatMap Attempt.loose).length := by
    rw [hsupply, Supply.skip_skip, List.flatMap_append, List.length_append]
  show Store.mk _ _ _ = Store.mk _ _ _
  rw [← htables, ← hcount]
  rfl

end Store

/-! ## Other orders -/

/-- The members of a list that is permuted take their numbers along. -/
lemma exists_perm_zipIdx {α : Type} {l l' : List α} (h : l.Perm l') (n : Nat) :
    ∃ ρ : Equiv.Perm Nat, (∀ k < n, ρ k = k) ∧
      ((l.zipIdx n).map fun e => (e.1, ρ e.2)).Perm (l'.zipIdx n) := by
  induction h generalizing n with
  | nil => exact ⟨.refl _, fun _ _ => rfl, .refl _⟩
  | cons a _ ih =>
    obtain ⟨ρ, hfixed, hperm⟩ := ih (n + 1)
    refine ⟨ρ, fun k hk => hfixed k (Nat.lt_succ_of_lt hk), ?_⟩
    rw [List.zipIdx_cons, List.zipIdx_cons, List.map_cons, hfixed n (Nat.lt_succ_self n)]
    exact hperm.cons (a, n)
  | swap a b l =>
    refine ⟨Equiv.swap n (n + 1),
      fun k hk => Equiv.swap_apply_of_ne_of_ne (by omega) (by omega), ?_⟩
    have hrest : ((l.zipIdx (n + 1 + 1)).map fun e => (e.1, Equiv.swap n (n + 1) e.2)) =
        l.zipIdx (n + 1 + 1) := by
      refine (List.map_congr_left fun e he => ?_).trans (List.map_id _)
      have hle := List.le_snd_of_mem_zipIdx he
      exact Prod.ext rfl (Equiv.swap_apply_of_ne_of_ne (by omega) (by omega))
    simp only [List.zipIdx_cons, List.map_cons, Equiv.swap_apply_left, Equiv.swap_apply_right,
      hrest]
    exact .swap ..
  | trans _ _ ih ih' =>
    obtain ⟨ρ, hfixed, hperm⟩ := ih n
    obtain ⟨ρ', hfixed', hperm'⟩ := ih' n
    refine ⟨ρ.trans ρ', fun k hk => ?_, ?_⟩
    · rw [Equiv.trans_apply, hfixed k hk, hfixed' k hk]
    · have hboth := (hperm.map fun e => (e.1, ρ' e.2)).trans hperm'
      rwa [List.map_map] at hboth

/-- A renaming of ids that leaves those that were issued already. -/
structure Supply.Renames (supply : Supply) (rename : String → String) : Prop where
  injective : Function.Injective rename
  issued : ∀ {id}, ¬ supply.ToCome id → rename id = id

namespace Supply

variable (s : Supply)

/-- The renaming that goes with a permutation of the numbers of ids. -/
noncomputable def renumber (ρ : Equiv.Perm Nat) : String → String :=
  Function.extend s.rowId (fun n => s.rowId (ρ n)) id

lemma renumber_rowId (ρ : Equiv.Perm Nat) (n : Nat) : s.renumber ρ (s.rowId n) = s.rowId (ρ n) :=
  s.rowId_injective.extend_apply _ _ n

variable {s}

lemma renames_renumber {ρ : Equiv.Perm Nat} (h : ∀ k < s.issued, ρ k = k) :
    s.Renames (s.renumber ρ) where
  injective := by
    intro id id' heq
    have hother : ∀ {id}, (¬ ∃ n, s.rowId n = id) → s.renumber ρ id = id := fun hnot =>
      Function.extend_apply' _ _ _ hnot
    by_cases hid : ∃ n, s.rowId n = id <;> by_cases hid' : ∃ n, s.rowId n = id'
    · obtain ⟨n, rfl⟩ := hid
      obtain ⟨n', rfl⟩ := hid'
      rw [renumber_rowId, renumber_rowId] at heq
      rw [ρ.injective (s.rowId_injective heq)]
    · obtain ⟨n, rfl⟩ := hid
      rw [renumber_rowId, hother hid'] at heq
      exact absurd ⟨_, heq⟩ hid'
    · obtain ⟨n', rfl⟩ := hid'
      rw [renumber_rowId, hother hid] at heq
      exact absurd ⟨_, heq.symm⟩ hid
    · rwa [hother hid, hother hid'] at heq
  issued := by
    intro id hcome
    by_cases hid : ∃ n, s.rowId n = id
    · obtain ⟨n, rfl⟩ := hid
      rw [toCome_rowId, Nat.not_le] at hcome
      rw [renumber_rowId, h n hcome]
    · exact Function.extend_apply' _ _ _ hid

end Supply

/-- The rows of tables are those of others in some order, with ids of steps renamed. -/
structure Tables.Renamed (rename : String → String) (t t' : Tables ν) : Prop where
  usages : t'.usages.Perm t.usages
  attempts : t'.attempts.Perm t.attempts
  steps : t'.steps.Perm (t.steps.map fun r => { r with id := rename r.id })
  vars : t'.vars.Perm (t.vars.map fun r => { r with stepId := rename r.stepId })

/-- Two stores that came from one store are the same up to the order of rows and to new ids of
steps. -/
structure Store.Alike (s t t' : Store ν) : Prop where
  backend : t'.backend = t.backend
  supply : t'.supply = t.supply
  tables : ∃ rename, s.supply.Renames rename ∧ Tables.Renamed rename t.tables t'.tables

namespace LooseStep

/-- Steps in another order have the rows with other ids. -/
lemma rows_perm {supply : Supply} {steps steps' : List (LooseStep ν)} {ρ : Equiv.Perm Nat}
    (h : ((steps.zipIdx supply.issued).map fun e => (e.1, ρ e.2)).Perm
      (steps'.zipIdx supply.issued)) :
    (rows supply steps').Perm
      ((rows supply steps).map fun r => { r with id := supply.renumber ρ r.id }) := by
  have hrows := h.symm.map fun e : LooseStep ν × Nat =>
    Attempt.stepRow e.1.attemptId e.1.place (supply.rowId e.2) e.1.step
  rw [List.map_map] at hrows
  refine hrows.trans (.of_eq ?_)
  rw [rows, List.map_map]
  refine List.map_congr_left fun e _ => ?_
  simp only [Function.comp_apply, Attempt.stepRow, Supply.renumber_rowId]

lemma varRows_perm {supply : Supply} {steps steps' : List (LooseStep ν)} {ρ : Equiv.Perm Nat}
    (h : ((steps.zipIdx supply.issued).map fun e => (e.1, ρ e.2)).Perm
      (steps'.zipIdx supply.issued)) :
    (varRows supply steps').Perm
      ((varRows supply steps).map fun r => { r with stepId := supply.renumber ρ r.stepId }) := by
  have hrows := h.symm.flatMap_right fun e : LooseStep ν × Nat =>
    Attempt.varRows (supply.rowId e.2) e.1.step
  rw [List.flatMap_map] at hrows
  refine hrows.trans (.of_eq ?_)
  rw [varRows, List.map_flatMap]
  refine List.flatMap_congr fun e _ => ?_
  simp only [Attempt.varRows, List.map_map, Function.comp_def, Supply.renumber_rowId]

end LooseStep

namespace Tables

/-- What is cleared does not depend on the order of attempts. -/
lemma clearSteps_perm (t : Tables ν) {ids ids' : List String} (h : ids.Perm ids') :
    t.clearSteps ids' = t.clearSteps ids := by
  have hclears : ∀ stepId, t.clears ids' stepId = t.clears ids stepId := fun stepId => by
    rw [Bool.eq_iff_iff, clears_iff, clears_iff]
    simp only [h.mem_iff]
  refine Tables.ext rfl rfl ?_ ?_
  · rw [steps_clearSteps, steps_clearSteps]
    simp only [hclears]
  · rw [vars_clearSteps, vars_clearSteps]
    simp only [hclears]

/-- What is left when steps are cleared keeps its ids. -/
lemma renamed_clearSteps {t : Tables ν} {supply : Supply} (hpast : supply.Past t)
    {rename : String → String} (h : supply.Renames rename) (ids : List String) :
    (((t.clearSteps ids).steps.map fun r => { r with id := rename r.id }) =
      (t.clearSteps ids).steps) ∧
    ((t.clearSteps ids).vars.map fun r => { r with stepId := rename r.stepId }) =
      (t.clearSteps ids).vars := by
  constructor
  · refine (List.map_congr_left fun r hr => ?_).trans (List.map_id _)
    rw [h.issued (hpast.steps r (List.mem_filter.1 hr).1).1]
    rfl
  · refine (List.map_congr_left fun r hr => ?_).trans (List.map_id _)
    rw [h.issued (hpast.vars r (List.mem_filter.1 hr).1)]
    rfl

/-- Rows with different ids that replace others leave the same rows in every order. -/
lemma foldl_replaceRow_perm {ρ : Type} (id : ρ → String) (rows : List ρ) {l l' : List ρ}
    (h : l.Perm l') (hnodup : (l.map id).Nodup) :
    (l'.foldl (replaceRow id) rows).Perm (l.foldl (replaceRow id) rows) := by
  have hnodup' : (l'.map id).Nodup := (h.map id).nodup_iff.1 hnodup
  rw [foldl_replaceRow_eq id rows hnodup, foldl_replaceRow_eq id rows hnodup']
  refine (List.Perm.of_eq (List.filter_congr fun r _ => ?_)).append h.symm
  rw [Bool.eq_iff_iff]
  simp only [Bool.not_eq_true', ← Bool.not_eq_true, List.contains_iff_mem, (h.map id).mem_iff]

end Tables

/-- The attempts may be put in their places in any order. -/
theorem Store.renew_alike {s : Store ν} (hpast : s.supply.Past s.tables)
    {attempts attempts' : List (Attempt ν)} (h : attempts.Perm attempts')
    (hnodup : (attempts.map Attempt.id).Nodup) :
    s.Alike (s.renew attempts) (s.renew attempts') := by
  have hloose : (attempts.flatMap Attempt.loose).Perm (attempts'.flatMap Attempt.loose) :=
    h.flatMap_right _
  obtain ⟨ρ, hfixed, hperm⟩ := exists_perm_zipIdx hloose s.supply.issued
  have hrenames := Supply.renames_renumber hfixed
  have hcleared : (attempts.filterMap Attempt.id).Perm (attempts'.filterMap Attempt.id) :=
    h.filterMap _
  obtain ⟨hsteps, hvars⟩ := Tables.renamed_clearSteps hpast hrenames (attempts.filterMap Attempt.id)
  refine ⟨rfl, ?_, s.supply.renumber ρ, hrenames, ?_, ?_, ?_, ?_⟩
  · rw [renew, renew, hloose.length_eq]
  · rw [usages_renew, usages_renew]
  · rw [attempts_renew, attempts_renew]
    exact Tables.foldl_replaceRow_perm AttemptRow.id _ (h.filterMap _) (Attempt.nodup_rows hnodup)
  · rw [steps_renew, steps_renew, List.map_append, s.tables.clearSteps_perm hcleared]
    exact .append (.of_eq hsteps.symm) (LooseStep.rows_perm hperm)
  · rw [vars_renew, vars_renew, List.map_append, s.tables.clearSteps_perm hcleared]
    exact .append (.of_eq hvars.symm) (LooseStep.varRows_perm hperm)

end Assessment
