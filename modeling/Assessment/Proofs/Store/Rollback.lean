import Assessment.Command.Ids
import Assessment.Proofs.Usage.Reach

/-!
# A save that fails leaves the usage as it was

Preparing a save changes the usage under way: it may get another identity, its attempts and steps get
ids, and its unsaved changes are taken.  Whatever was done up to any point can be undone
(`Undoable`): undoing the preparation of the attempts so far gives back the attempts that the save
began with.  This is an invariant of the loop over the slots, and it holds of a failing round as well
as of the others (`Undoable.collect`).  It does not matter in which order the slots come or whether
one comes twice, because an attempt that has been numbered is left alone from then on.

Hence a save that cannot be prepared, or that is prepared and then aborted, leaves a reachable usage
as it was (`failed_save_changes_nothing`).  The usage has to be reachable for two reasons: undoing
looks up an attempt by the slot that the attempt itself names, and an attempt of a usage that is not
stored gets back the name of the usage and not a name of its own.
-/

namespace Assessment

variable {ν : Type}

/-! ## The unsaved changes -/

lemma Changes.restore_none (taken : Changes) : Changes.none.restore taken = taken := by
  simp [restore, none, SortedSet.empty_join]

/-! ## Numbering an attempt and undoing it -/

namespace Undo

lemma placesOf_eq_nil {undo : Undo} {slot : Nat} (h : ∀ e ∈ undo.steps, e.1 ≠ slot) :
    undo.placesOf slot = [] := by
  have hnone : (undo.steps.find? fun s => s.1 == slot) = none := by
    simpa [List.find?_eq_none] using h
  simp [placesOf, hnone]

/-- Undoing a save that numbered nothing. -/
lemma apply_nil (previousId : Option UsageId) (taken : Option Changes) (u : Usage ν) :
    apply ⟨previousId, [], [], taken⟩ u =
      { previousId.elim u u.withId with
        pending := taken.elim u.pending fun taken => u.pending.map fun c => c.restore taken } := by
  have hkept : u.attempts.map (fun a => onAttempt ⟨previousId, [], [], taken⟩ a.slot a) =
      u.attempts := by
    simp [onAttempt_eq, placesOf]
  unfold apply
  rw [hkept]
  cases previousId <;> cases taken <;> rfl

end Undo

namespace Saving

/-- The numbered attempts of a save are those that need not be numbered any more. -/
structure Numbers (s : Saving ν) : Prop where
  attempts : ∀ {slot a}, s.usage.attempts.get? slot = some a → slot ∈ s.plan.undo.attempts →
    a.id.isSome = true
  steps : ∀ {slot a}, s.usage.attempts.get? slot = some a → (∃ e ∈ s.plan.undo.steps, e.1 = slot) →
    ∀ step ∈ a.steps, step.id.isSome = true

/-- Undoing looks at one slot at a time. -/
lemma undoWith_of_ne (s : Saving ν) {slot slot' : Nat} (h : slot' ≠ slot) (a b : Attempt ν) :
    (s.undoWith slot a).onAttempt slot' b = s.plan.undo.onAttempt slot' b := by
  have hplaces : (s.undoWith slot a).placesOf slot' = s.plan.undo.placesOf slot' := by
    unfold undoWith Undo.placesOf
    simp only
    split
    · rfl
    · simp [List.find?_append, Ne.symm h]
  have hattempts : (s.undoWith slot a).attempts.contains slot' =
      s.plan.undo.attempts.contains slot' := by
    unfold undoWith
    simp only
    split
    · simp [h]
    · rfl
  rw [Undo.onAttempt_eq, Undo.onAttempt_eq, hplaces, hattempts]

/-- Undoing the numbering of an attempt as well gives what undoing gave before. -/
lemma undoWith_numbered {s : Saving ν} (hs : s.Numbers) {slot : Nat} {a : Attempt ν}
    (h : s.usage.attempts.get? slot = some a) :
    (s.undoWith slot a).onAttempt slot (a.numbered s.supply) = s.plan.undo.onAttempt slot a := by
  have hid : (if (s.undoWith slot a).attempts.contains slot then none
      else some (a.takeId s.supply).1) =
      if s.plan.undo.attempts.contains slot then none else a.id := by
    cases hid : a.id with
    | none => simp [undoWith, hid]
    | some id => simp [undoWith, hid, Attempt.takeId]
  have hsteps : Attempt.clearStepIds ((s.undoWith slot a).placesOf slot) (a.numbering s.supply).1 =
      Attempt.clearStepIds (s.plan.undo.placesOf slot) a.steps := by
    cases hplaces : (a.numbering s.supply).2.2 with
    | nil =>
      have hsame : (a.numbering s.supply).1 = a.steps := by
        rw [Attempt.numbering_of_places_eq_nil hplaces]
      have hundo : (s.undoWith slot a).placesOf slot = s.plan.undo.placesOf slot := by
        simp [undoWith, Undo.placesOf, hplaces]
      rw [hsame, hundo]
    | cons place rest =>
      -- a step without an id was still there, so the slot was not numbered before
      have hfresh : ∀ e ∈ s.plan.undo.steps, e.1 ≠ slot := by
        intro e he heq
        have hall := hs.steps h ⟨e, he, heq⟩
        rw [Attempt.numbering, Attempt.assignStepIds_of_isSome hall] at hplaces
        cases hplaces
      have hnone : (s.plan.undo.steps.find? fun e => e.1 == slot) = none := by
        simpa [List.find?_eq_none] using hfresh
      have hundo : (s.undoWith slot a).placesOf slot = (a.numbering s.supply).2.2 := by
        simp [undoWith, Undo.placesOf, hplaces, List.find?_append, hnone]
      rw [hundo, Undo.placesOf_eq_nil hfresh, Attempt.clearStepIds_nil]
      exact Attempt.clearStepIds_assignStepIds _ _
  rw [Undo.onAttempt_eq, Undo.onAttempt_eq]
  simp only [Attempt.numbered, hid, hsteps]

/-! ## The loop -/

/-- Undoing what a save has done to its attempts gives those of the usage it began with; nothing else
of that has changed. -/
structure Undoable (start s : Saving ν) : Prop where
  numbers : s.Numbers
  usage : s.usage = { start.usage with attempts := s.usage.attempts }
  attempts : ∀ slot, (s.usage.attempts.get? slot).map (s.plan.undo.onAttempt slot) =
    start.usage.attempts.get? slot
  previousId : s.plan.undo.previousId = start.plan.undo.previousId
  taken : s.plan.undo.taken = start.plan.undo.taken

lemma Undoable.refl {start : Saving ν} (hattempts : start.plan.undo.attempts = [])
    (hsteps : start.plan.undo.steps = []) : Undoable start start where
  numbers := ⟨fun _ h => by simp [hattempts] at h, fun _ h => by simp [hsteps] at h⟩
  usage := rfl
  attempts := fun slot => by
    have hsame : ∀ a : Attempt ν, start.plan.undo.onAttempt slot a = a := fun a => by
      rw [Undo.onAttempt_eq]
      simp [Undo.placesOf, hattempts, hsteps]
    cases start.usage.attempts.get? slot with
    | none => rfl
    | some a => exact congrArg some (hsame a)
  previousId := rfl
  taken := rfl

lemma Undoable.collect {start s : Saving ν} (h : Undoable start s) (taken : Option Changes)
    (slot : Nat) : Undoable start (Saving.collect taken slot s).state := by
  cases ha : s.usage.attempts.get? slot with
  | none => rwa [collect_of_none ha]
  | some a =>
    obtain ⟨husage, -, hundo⟩ := collect_keeps taken ha
    have hget : ∀ slot', (Saving.collect taken slot s).state.usage.attempts.get? slot' =
        if slot' = slot then some (a.numbered s.supply) else s.usage.attempts.get? slot' := by
      intro slot'
      rw [husage]
      exact SortedMap.get?_insert _ _ _ _
    refine ⟨⟨fun {slot' b} hb hmem => ?_, fun {slot' b} hb hmem => ?_⟩, ?_, fun slot' => ?_, ?_, ?_⟩
    · rw [hget] at hb
      split at hb
      · cases hb
        rfl
      · rename_i hne
        refine h.numbers.attempts hb ?_
        rw [hundo, undoWith] at hmem
        simp only at hmem
        split at hmem
        · simpa [hne] using hmem
        · exact hmem
    · rw [hget] at hb
      split at hb
      · cases hb
        exact Attempt.isSome_of_mem_assignStepIds
      · rename_i hne
        refine h.numbers.steps hb ?_
        obtain ⟨e, he, heq⟩ := hmem
        rw [hundo, undoWith] at he
        simp only at he
        split at he
        · exact ⟨e, he, heq⟩
        · rcases List.mem_append.1 he with he | he
          · exact ⟨e, he, heq⟩
          · obtain rfl := List.mem_singleton.1 he
            exact absurd heq.symm hne
    · rw [husage, collected, h.usage]
    · rw [hget, hundo, ← h.attempts slot']
      split
      · rename_i heq
        rw [heq, ha, Option.map_some, Option.map_some, undoWith_numbered h.numbers ha]
      · rename_i hne
        congr 1
        exact funext fun b => undoWith_of_ne s hne a b
    · rw [hundo]
      exact h.previousId
    · rw [hundo]
      exact h.taken

/-- Undoing everything undoes the beginning of the save. -/
lemma Undoable.apply {start s : Saving ν} (h : Undoable start s) (hs : s.usage.Sound) :
    s.plan.undo.apply s.usage =
      Undo.apply ⟨start.plan.undo.previousId, [], [], start.plan.undo.taken⟩ start.usage := by
  have hback : s.usage.attempts.map (fun a => s.plan.undo.onAttempt a.slot a) =
      start.usage.attempts := by
    apply SortedMap.ext_get?
    intro slot
    rw [SortedMap.get?_map, ← h.attempts slot]
    cases ha : s.usage.attempts.get? slot with
    | none => rfl
    | some a => rw [Option.map_some, Option.map_some, hs.slot ha]
  rw [Undo.apply_nil]
  unfold Undo.apply
  simp only
  rw [hback, h.previousId, h.taken, h.usage]
  cases start.plan.undo.previousId <;> cases start.plan.undo.taken <;> rfl

end Saving

namespace Usage

/-- An attempt of the usage goes by the identity of the usage, also after the usage went by another
one. -/
lemma withId_withId {u : Usage ν} (hu : u.Sound) (id : UsageId) : (u.withId id).withId u.id = u := by
  have hattempts : (u.attempts.map fun a => { a with usageId := id.text }).map
      (fun a => { a with usageId := u.id.text }) = u.attempts := by
    apply SortedMap.ext_get?
    intro slot
    rw [SortedMap.get?_map, SortedMap.get?_map]
    cases ha : u.attempts.get? slot with
    | none => rfl
    | some a => simp [← hu.usageId ha]
  unfold withId
  simp only
  rw [hattempts]

/-- Undoing the beginning of a save gives the usage back. -/
lemma undo_begin {u : Usage ν} (hu : u.Sound) (supply : Supply) :
    Undo.apply ⟨(Saving.begin u supply).plan.undo.previousId, [], [],
      (Saving.begin u supply).plan.undo.taken⟩ (Saving.begin u supply).usage = u := by
  have hpending : u.pending.elim (u.pending.map fun _ => Changes.none) (fun taken =>
      (u.pending.map fun _ => Changes.none).map fun c => c.restore taken) = u.pending := by
    cases u.pending with
    | none => rfl
    | some taken => simp [Changes.restore_none]
  rw [Undo.apply_nil]
  cases h : u.id with
  | stored id =>
    rw [Saving.begin_of_stored h]
    simp only [Option.elim_none, hpending]
  | ephemeral token =>
    rw [Saving.begin_of_ephemeral h]
    simp only [Option.elim_some, hpending]
    have hback := withId_withId hu (.stored (supply.rowId supply.issued))
    calc _ = ({ (u.withId (.stored (supply.rowId supply.issued))).withId u.id with
          pending := u.pending } : Usage ν) := rfl
      _ = u := by rw [hback]

/-! ## Saves that fail -/

/-- The loop of a save, up to where it succeeds or stops. -/
lemma undo_loop {u : Usage ν} (hu : u.Sound) (supply : Supply) (slots : List Nat) :
    let s := (Op.forEach (Saving.collect u.pending) slots (Saving.begin u supply)).state
    s.plan.undo.apply s.usage = u := by
  intro s
  have hstart : (Saving.begin u supply).plan.undo.attempts = [] ∧
      (Saving.begin u supply).plan.undo.steps = [] := ⟨rfl, rfl⟩
  have hs : s.usage.Sound ∧ Saving.Undoable (Saving.begin u supply) s :=
    Op.forEach_keeps
      (P := fun s => s.usage.Sound ∧ Saving.Undoable (Saving.begin u supply) s)
      (fun slot _ s hs => ⟨Sound.collect hs.1 u.pending slot, hs.2.collect u.pending slot⟩)
      ⟨hu.begin supply, .refl hstart.1 hstart.2⟩
  rw [hs.2.apply hs.1, undo_begin hu supply]

lemma prepare_undone {u : Usage ν} (hu : u.Sound) (supply : Supply) :
    (∀ e, (prepare (u, supply)).result = .error e → (prepare (u, supply)).state.1 = u) ∧
    ∀ plan, (prepare (u, supply)).result = .ok plan →
      (prepare (u, supply)).state.1.abort plan = u := by
  have hundo := undo_loop hu supply u.slots
  unfold prepare
  simp only at hundo ⊢
  split
  · refine ⟨fun e h => (by cases h), fun plan h => ?_⟩
    cases h
    exact hundo
  · exact ⟨fun _ _ => hundo, fun plan h => (by cases h)⟩

/-- Undoing a save changes the attempts one by one. -/
lemma get?_undo (undo : Undo) (u : Usage ν) (slot : Nat) :
    (undo.apply u).attempts.get? slot = (u.attempts.get? slot).map fun a =>
      { undo.onAttempt a.slot a with
        usageId := undo.previousId.elim (undo.onAttempt a.slot a).usageId UsageId.text } := by
  unfold Undo.apply
  cases undo.previousId <;> cases undo.taken <;>
    simp [withId, SortedMap.get?_map, Function.comp_def]

/-- Preparing a save leaves the ids that the attempts of a usage have, and adds no steps to them. -/
lemma matches_prepare {u : Usage ν} (hu : u.Sound) {supply : Supply} {plan : Plan ν}
    (hok : (prepare (u, supply)).result = .ok plan) :
    u.attempts.Matches (fun a a' : Attempt ν => (∀ id, a.id = some id → a'.id = some id) ∧
      a'.steps.length = a.steps.length) (prepare (u, supply)).state.1.attempts := by
  intro slot
  have hundone : plan.undo.apply (prepare (u, supply)).state.1 = u :=
    (prepare_undone hu supply).2 plan hok
  have hslot := get?_undo plan.undo (prepare (u, supply)).state.1 slot
  rw [hundone] at hslot
  rw [hslot]
  cases (prepare (u, supply)).state.1.attempts.get? slot with
  | none => exact .none
  | some a' =>
    refine .some ⟨fun id hid => ?_, ?_⟩
    · simp only [Undo.onAttempt_eq] at hid
      split at hid
      · cases hid
      · exact hid
    · simp [Undo.onAttempt_eq, Attempt.clearStepIds]

/-- After a save that is prepared every attempt and every step has an id. -/
lemma isNumbered_prepare {u : Usage ν} (hu : u.Sound) {supply : Supply} {plan : Plan ν}
    (hok : (prepare (u, supply)).result = .ok plan) {slot : Nat} {a : Attempt ν}
    (ha : (prepare (u, supply)).state.1.attempts.get? slot = some a) : a.IsNumbered := by
  have hreaches := Op.forEach_reaches (f := Saving.collect u.pending) (l := u.slots)
    (s := Saving.begin u supply)
    (Q := fun slot (s : Saving ν) => ∀ a, s.usage.attempts.get? slot = some a → a.IsNumbered)
    (fun slot s _ b hb => ?_) fun slot slot' s hs _ b hb => ?_
  · obtain ⟨hloop, hstate⟩ := Saving.prepare_of_ok hok
    have hslot : slot ∈ u.slots := by
      rw [slots, (matches_prepare hu hok).keys_eq]
      exact SortedMap.mem_keys_iff.2 ⟨a, ha⟩
    refine hreaches hloop slot hslot a ?_
    rwa [← hstate]
  · cases ha : s.usage.attempts.get? slot with
    | none =>
      rw [Saving.collect_of_none ha, ha] at hb
      cases hb
    | some a =>
      rw [(Saving.collect_keeps u.pending ha).1] at hb
      obtain ⟨-, rfl⟩ | ⟨hne, -⟩ := SortedMap.get?_insert_cases hb
      · exact a.isNumbered_numbered s.supply
      · exact absurd rfl hne
  · cases ha : s.usage.attempts.get? slot' with
    | none =>
      rw [Saving.collect_of_none ha] at hb
      exact hs b hb
    | some a =>
      rw [(Saving.collect_keeps u.pending ha).1] at hb
      obtain ⟨-, rfl⟩ | ⟨-, hb⟩ := SortedMap.get?_insert_cases hb
      · exact a.isNumbered_numbered s.supply
      · exact hs b hb

/-- A save that fails leaves the usage as it was: its identity, the ids of its attempts and of their
steps, every other part of them, and its unsaved changes.  This holds of a save that cannot be
prepared, of one that is prepared and then aborted, and of one to a store that cannot be reached. -/
theorem failed_save_changes_nothing [Scalar ν] {u : Usage ν} (hu : u.Reachable) :
    (∀ (supply : Supply) (e : Fault), (prepare (u, supply)).result = .error e →
      (prepare (u, supply)).state.1 = u) ∧
    (∀ (supply : Supply) (plan : Plan ν), (prepare (u, supply)).result = .ok plan →
      (prepare (u, supply)).state.1.abort plan = u) ∧
    ∀ (store : Store ν) (e : Failure), (Store.save (u, store)).result = .error e →
      (Store.save (u, store)).state.1 = u := by
  refine ⟨fun supply => (prepare_undone hu.sound supply).1,
    fun supply => (prepare_undone hu.sound supply).2, fun store e h => ?_⟩
  obtain ⟨herror, habort⟩ := prepare_undone hu.sound store.supply
  unfold Store.save at h ⊢
  cases hr : (prepare (u, store.supply)).result with
  | error e' => simpa [hr] using herror e' hr
  | ok plan =>
    cases hb : store.backend with
    | memory => simp [hr, hb] at h
    | unreachable =>
      cases hempty : plan.write.isEmpty with
      | true => simp [hr, hb, hempty] at h
      | false => simpa [hr, hb, hempty] using habort plan hr

/-- A usage with an attempt that is not started cannot be saved, and a save that is aborted has given
no ids. -/
theorem failed_save_changes_nothing_example :
    let blank : Usage Float :=
      ⟨.ephemeral "t", "quiz", "course", "deferredfeedback", SortedMap.empty, Registry.standard, none⟩
    let added := (Operation.add (.trueFalse (TrueFalse.new "q1" "The sky is blue" true)) none).after
      blank
    let started := (Operation.start 1 ⟨0⟩ none ⟨0, 0⟩).after added
    (prepare (added, ⟨0⟩)).result = .error .notStarted ∧ (prepare (added, ⟨0⟩)).state.1 = added ∧
      ∃ plan, (prepare (started, ⟨0⟩)).result = .ok plan ∧
        (prepare (started, ⟨0⟩)).state.1.abort plan = started := by
  intro blank added started
  have hnew : Usage.new "t" "quiz" "course" "deferredfeedback" Registry.standard = .ok blank := rfl
  have hadded : added.Reachable := .operation (.new hnew) _
  have hstarted : started.Reachable := .operation hadded _
  have hresult : (prepare (added, ⟨0⟩)).result = .error .notStarted := rfl
  have hok : (prepare (started, ⟨0⟩)).result.isOk = true := by decide +kernel
  obtain ⟨plan, hplan⟩ : ∃ plan, (prepare (started, ⟨0⟩)).result = .ok plan := by
    cases h : (prepare (started, ⟨0⟩)).result with
    | error e => simp [h, Except.isOk, Except.toBool] at hok
    | ok plan => exact ⟨plan, rfl⟩
  exact ⟨hresult, (failed_save_changes_nothing hadded).1 _ _ hresult, plan, hplan,
    (failed_save_changes_nothing hstarted).2.1 _ _ hplan⟩

end Usage
end Assessment
