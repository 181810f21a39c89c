import Assessment.Proofs.Store.Collect
import Mathlib.Data.List.Nodup
import Mathlib.Order.Basic

/-!
# Ids that are still to be issued

No id is issued twice (`Supply.rowId_injective`).  An id is *to come* (`Supply.ToCome`) when the supply
may still issue it; what has been issued is not to come any more, and the ids of rows that are stored
already are never to come.

The steps of an attempt that have ids come before those that have none (`Attempt.InOrder`), because
steps are numbered together and added at the end.  So numbering an attempt leaves the first part of
its steps alone and issues ids to the rest (`Attempt.numbering_of_split`).
-/

namespace Assessment

/-! ## Ids to come -/

namespace Supply

/-- Later states of a supply. -/
instance : Preorder Supply where
  le s s' := s.source = s'.source ∧ s.issued ≤ s'.issued
  le_refl _ := ⟨rfl, Nat.le_refl _⟩
  le_trans _ _ _ h h' := ⟨h.1.trans h'.1, Nat.le_trans h.2 h'.2⟩

/-- The supply after some ids. -/
def skip (s : Supply) (n : Nat) : Supply := { s with issued := s.issued + n }

lemma le_skip (s : Supply) (n : Nat) : s ≤ s.skip n := ⟨rfl, Nat.le_add_right _ _⟩

lemma le_next (s : Supply) : s ≤ s.next := s.le_skip 1

lemma skip_skip (s : Supply) (m n : Nat) : (s.skip m).skip n = s.skip (m + n) :=
  congrArg (fun k : Nat => { s with issued := k }) (Nat.add_assoc s.issued m n)

lemma skip_next (s : Supply) (n : Nat) : s.next.skip n = s.skip (n + 1) := by
  rw [Nat.add_comm n]
  exact s.skip_skip 1 n

@[simp] lemma rowId_next (s : Supply) : s.next.rowId = s.rowId := rfl

/-- Whether the supply may still issue an id. -/
def ToCome (s : Supply) (id : String) : Prop := ∃ n, s.issued ≤ n ∧ id = s.rowId n

lemma ToCome.mono {s s' : Supply} {id : String} (h : s'.ToCome id) (hle : s ≤ s') :
    s.ToCome id := by
  obtain ⟨n, hn, rfl⟩ := h
  exact ⟨n, Nat.le_trans hle.2 hn, by rw [rowId, rowId, hle.1]⟩

/-- Whether an id was issued between two states of a supply. -/
def Issued (s s' : Supply) (id : String) : Prop := s.ToCome id ∧ ¬ s'.ToCome id

lemma Issued.mono {s₀ s s' s₁ : Supply} {id : String} (h : s.Issued s' id)
    (hfrom : s₀ ≤ s) (hto : s' ≤ s₁) : s₀.Issued s₁ id :=
  ⟨h.1.mono hfrom, fun hcome => h.2 (hcome.mono hto)⟩

lemma rowId_injective (s : Supply) : Function.Injective s.rowId := fun _ _ => s.source.rowId_inj

lemma toCome_rowId {s : Supply} {n : Nat} : s.ToCome (s.rowId n) ↔ s.issued ≤ n := by
  constructor
  · rintro ⟨m, hm, heq⟩
    rwa [s.rowId_injective heq]
  · exact fun h => ⟨n, h, rfl⟩

/-- The next id is to come. -/
lemma toCome_next (s : Supply) : s.ToCome (s.rowId s.issued) := toCome_rowId.2 (Nat.le_refl _)

/-- Once it is taken, it is not to come any more. -/
lemma not_toCome_of_next_le {s s' : Supply} (h : s.next ≤ s') : ¬ s'.ToCome (s.rowId s.issued) :=
  fun hcome => Nat.not_succ_le_self _ ((toCome_rowId (s := s.next)).1 (hcome.mono h))

/-- An id that is taken is issued. -/
lemma issued_next {s s' : Supply} (h : s.next ≤ s') : s.Issued s' (s.rowId s.issued) :=
  ⟨s.toCome_next, not_toCome_of_next_le h⟩

end Supply

variable {ν : Type}

namespace Attempt

open Supply

/-! ## Numbering in order -/

/-- Steps without ids, each given the next id of the supply. -/
def issueTo (supply : Supply) : List (Step ν) → List (Step ν)
  | [] => []
  | step :: rest => { step with id := some (supply.rowId supply.issued) } :: issueTo supply.next rest

lemma assignStepIds_of_none (index : Nat) (supply : Supply) {steps : List (Step ν)}
    (h : ∀ step ∈ steps, step.id = none) :
    assignStepIds index supply steps =
      (issueTo supply steps, supply.skip steps.length, List.range' index steps.length) := by
  induction steps generalizing index supply with
  | nil => rfl
  | cons step rest ih =>
    have hrest := ih (index + 1) supply.next
      fun s hs => h s (List.mem_cons_of_mem _ hs)
    simp only [assignStepIds, h step List.mem_cons_self, takeRowId, hrest]
    simp only [issueTo, skip_next, List.length_cons, List.range'_succ]

/-- Steps that have ids are passed over. -/
lemma assignStepIds_append (index : Nat) {supply : Supply} {old rest : List (Step ν)}
    (h : ∀ step ∈ old, step.id.isSome = true) :
    assignStepIds index supply (old ++ rest) =
      (old ++ (assignStepIds (index + old.length) supply rest).1,
        (assignStepIds (index + old.length) supply rest).2) := by
  induction old generalizing index with
  | nil => rfl
  | cons step old ih =>
    obtain ⟨id, hid⟩ := Option.isSome_iff_exists.1 (h step List.mem_cons_self)
    have hold := ih (index + 1) fun s hs => h s (List.mem_cons_of_mem _ hs)
    have hindex : index + 1 + old.length = index + (step :: old).length := by
      simp only [List.length_cons]
      omega
    rw [hindex] at hold
    simp only [List.cons_append, assignStepIds, hid, hold]

@[simp] lemma length_issueTo (supply : Supply) (steps : List (Step ν)) :
    (issueTo supply steps).length = steps.length := by
  induction steps generalizing supply with
  | nil => rfl
  | cons step rest ih => simp [issueTo, ih]

/-- The ids that are issued are the next ones. -/
lemma ids_issueTo (supply : Supply) (steps : List (Step ν)) :
    (issueTo supply steps).filterMap Step.id =
      (List.range' supply.issued steps.length).map supply.rowId := by
  induction steps generalizing supply with
  | nil => rfl
  | cons step rest ih =>
    rw [issueTo, List.filterMap_cons, ih, rowId_next, List.length_cons, List.range'_succ,
      List.map_cons]
    rfl

/-! ## Steps with ids -/

/-- The steps with ids among those from a place on, with their places and ids. -/
def withIds (place : Nat) (steps : List (Step ν)) : List (Nat × String × Step ν) :=
  (steps.zipIdx place).filterMap fun e => e.1.id.map fun id => (e.2, id, e.1)

lemma withIds_cons (place : Nat) (step : Step ν) (rest : List (Step ν)) :
    withIds place (step :: rest) =
      (step.id.map fun id => (place, id, step)).toList ++ withIds (place + 1) rest := by
  unfold withIds
  rw [List.zipIdx_cons]
  cases hid : step.id <;> simp [hid]

lemma withIds_append (place : Nat) (steps rest : List (Step ν)) :
    withIds place (steps ++ rest) = withIds place steps ++ withIds (place + steps.length) rest := by
  simp [withIds, List.zipIdx_append, List.filterMap_append]

lemma withIds_of_none {place : Nat} {steps : List (Step ν)} (h : ∀ step ∈ steps, step.id = none) :
    withIds place steps = [] := by
  induction steps generalizing place with
  | nil => rfl
  | cons step rest ih =>
    rw [withIds_cons, h step List.mem_cons_self, ih fun s hs => h s (List.mem_cons_of_mem _ hs)]
    rfl

/-- The steps at the places after some others. -/
lemma stepsAt_range' (old rest : List (Step ν)) :
    stepsAt (List.range' old.length rest.length) (old ++ rest) = withIds old.length rest := by
  induction rest generalizing old with
  | nil => rfl
  | cons step rest ih =>
    have hrest := ih (old ++ [step])
    rw [List.append_assoc, List.length_append, List.length_singleton] at hrest
    rw [List.length_cons, List.range'_succ, withIds_cons, ← hrest]
    simp only [stepsAt, List.filterMap_cons]
    cases hid : step.id <;> simp [hid]

/-- A step with an id is listed with it, and nothing else is listed. -/
lemma exists_mem_withIds {place : Nat} {steps : List (Step ν)} {id : String} {step : Step ν} :
    (∃ n, (n, id, step) ∈ withIds place steps) ↔ step ∈ steps ∧ step.id = some id := by
  unfold withIds
  simp only [List.mem_filterMap, Option.map_eq_some_iff, Prod.exists, Prod.mk.injEq]
  constructor
  · rintro ⟨n, step', n', hmem, id', hid, rfl, rfl, rfl⟩
    exact ⟨List.fst_mem_of_mem_zipIdx hmem, hid⟩
  · rintro ⟨hmem, hid⟩
    obtain ⟨i, hi⟩ := List.getElem?_of_mem hmem
    exact ⟨_, step, _, List.mk_add_mem_zipIdx_iff_getElem?.2 hi, id, hid, rfl, rfl, rfl⟩

lemma of_mem_withIds {place : Nat} {steps : List (Step ν)} {e : Nat × String × Step ν}
    (h : e ∈ withIds place steps) : e.2.2 ∈ steps ∧ e.2.2.id = some e.2.1 :=
  exists_mem_withIds.1 ⟨e.1, h⟩

lemma map_id_withIds (place : Nat) (steps : List (Step ν)) :
    (withIds place steps).map (fun e => e.2.1) = steps.filterMap Step.id := by
  induction steps generalizing place with
  | nil => rfl
  | cons step rest ih =>
    rw [withIds_cons, List.map_append, ih]
    cases hid : step.id <;> simp [hid]

/-! ## The supply after a numbering -/

/-- An attempt has its id already, or gets the next one. -/
lemma takeId_cases (a : Attempt ν) (supply : Supply) :
    (a.id = some (a.takeId supply).1 ∧ (a.takeId supply).2 = supply) ∨
      a.id = none ∧ (a.takeId supply).1 = supply.rowId supply.issued ∧
        (a.takeId supply).2 = supply.next := by
  unfold takeId
  cases a.id with
  | some id => exact .inl ⟨rfl, rfl⟩
  | none => exact .inr ⟨rfl, rfl, rfl⟩

lemma le_takeId (a : Attempt ν) (supply : Supply) :
    supply ≤ (a.takeId supply).2 := by
  obtain ⟨-, h⟩ | ⟨-, -, h⟩ := a.takeId_cases supply
  · exact h.ge
  · rw [h]
    exact supply.le_next

lemma le_assignStepIds (index : Nat) (supply : Supply) (steps : List (Step ν)) :
    supply ≤ (assignStepIds index supply steps).2.1 := by
  induction steps generalizing index supply with
  | nil => exact le_rfl
  | cons step rest ih =>
    unfold assignStepIds
    cases step.id with
    | some id => exact ih (index + 1) supply
    | none => exact supply.le_next.trans (ih (index + 1) supply.next)

lemma takeId_le_numbering (a : Attempt ν) (supply : Supply) :
    (a.takeId supply).2 ≤ (a.numbering supply).2.1 :=
  le_assignStepIds 0 _ a.steps

lemma le_numbering (a : Attempt ν) (supply : Supply) :
    supply ≤ (a.numbering supply).2.1 :=
  (a.le_takeId supply).trans (a.takeId_le_numbering supply)

/-- The ids that are given to steps are issued then, whatever steps are before. -/
lemma issued_of_mem_stepsAt (before : List (Step ν)) (supply : Supply) (steps : List (Step ν))
    {e : Nat × String × Step ν}
    (he : e ∈ stepsAt (assignStepIds before.length supply steps).2.2
      (before ++ (assignStepIds before.length supply steps).1)) :
    supply.Issued (assignStepIds before.length supply steps).2.1 e.2.1 := by
  induction steps generalizing before supply with
  | nil => simp [assignStepIds, stepsAt] at he
  | cons step rest ih =>
    have hrest := ih (before ++ [step])
    rw [List.length_append, List.length_singleton] at hrest
    cases hid : step.id with
    | some id =>
      simp only [assignStepIds, hid] at he ⊢
      exact hrest supply (by rwa [List.append_assoc])
    | none =>
      have hnext := ih (before ++ [{ step with id := some (supply.rowId supply.issued) }]) supply.next
      rw [List.length_append, List.length_singleton, List.append_assoc] at hnext
      have hle := le_assignStepIds (before.length + 1) supply.next rest
      simp only [assignStepIds, hid, takeRowId, stepsAt, List.filterMap_cons,
        List.getElem?_append_right (Nat.le_refl _), Nat.sub_self, List.getElem?_cons_zero,
        Option.bind_some, Option.map_some, List.mem_cons] at he ⊢
      rcases he with rfl | he
      · exact issued_next hle
      · exact (hnext he).mono supply.le_next le_rfl

/-- The ids of the added steps are issued by the numbering. -/
lemma issued_of_mem_addedSteps {a : Attempt ν} {supply : Supply} {e : Nat × String × Step ν}
    (he : e ∈ a.addedSteps supply) : supply.Issued (a.numbering supply).2.1 e.2.1 :=
  (issued_of_mem_stepsAt [] _ a.steps he).mono (a.le_takeId supply) le_rfl

/-! ## Attempts in order -/

/-- The steps with ids come first, no two of them have the same one, and there are none as long as
the attempt has no id. -/
structure InOrder (a : Attempt ν) : Prop where
  split : ∃ old new, a.steps = old ++ new ∧ (∀ step ∈ old, step.id.isSome = true) ∧
    ∀ step ∈ new, step.id = none
  nodup : (a.steps.filterMap Step.id).Nodup
  unsaved : a.id = none → ∀ step ∈ a.steps, step.id = none

/-- Numbering an attempt leaves the first part of its steps alone and issues ids to the rest. -/
lemma numbering_of_split {a : Attempt ν} {old new : List (Step ν)} (hsteps : a.steps = old ++ new)
    (hold : ∀ step ∈ old, step.id.isSome = true) (hnew : ∀ step ∈ new, step.id = none)
    (supply : Supply) :
    a.numbering supply =
      (old ++ issueTo (a.takeId supply).2 new, (a.takeId supply).2.skip new.length,
        List.range' old.length new.length) := by
  rw [numbering, hsteps, assignStepIds_append 0 hold, assignStepIds_of_none _ _ hnew, Nat.zero_add]

lemma addedSteps_of_split {a : Attempt ν} {old new : List (Step ν)} (hsteps : a.steps = old ++ new)
    (hold : ∀ step ∈ old, step.id.isSome = true) (hnew : ∀ step ∈ new, step.id = none)
    (supply : Supply) :
    a.addedSteps supply = withIds old.length (issueTo (a.takeId supply).2 new) := by
  have hplaces := stepsAt_range' old (issueTo (a.takeId supply).2 new)
  rw [length_issueTo] at hplaces
  rw [addedSteps, numbering_of_split hsteps hold hnew, hplaces]

namespace InOrder

variable {a : Attempt ν}

/-- The steps that a numbering adds come after those that had ids. -/
lemma withIds_numbering (ha : a.InOrder) (supply : Supply) :
    withIds 0 (a.numbering supply).1 = withIds 0 a.steps ++ a.addedSteps supply := by
  obtain ⟨old, new, hsteps, hold, hnew⟩ := ha.split
  rw [addedSteps_of_split hsteps hold hnew, numbering_of_split hsteps hold hnew, hsteps,
    withIds_append, withIds_append, withIds_of_none hnew, List.append_nil, Nat.zero_add]

/-- No two added steps have the same id. -/
lemma nodup_addedSteps (ha : a.InOrder) (supply : Supply) :
    ((a.addedSteps supply).map fun e => e.2.1).Nodup := by
  obtain ⟨old, new, hsteps, hold, hnew⟩ := ha.split
  rw [addedSteps_of_split hsteps hold hnew, map_id_withIds, ids_issueTo]
  exact List.Nodup.map (rowId_injective _) List.nodup_range'

/-- A numbered attempt is in order if the ids of its steps were not to come. -/
lemma numbered (ha : a.InOrder) {supply : Supply}
    (hpast : ∀ step ∈ a.steps, ∀ id, step.id = some id → ¬ supply.ToCome id) :
    (a.numbered supply).InOrder where
  split := ⟨_, [], (List.append_nil _).symm, isSome_of_mem_assignStepIds, by simp⟩
  nodup := by
    show ((a.numbering supply).1.filterMap Step.id).Nodup
    rw [← map_id_withIds 0, ha.withIds_numbering, List.map_append, map_id_withIds]
    refine List.Nodup.append ha.nodup (ha.nodup_addedSteps supply) fun id hold hadded => ?_
    obtain ⟨step, hstep, hid⟩ := List.mem_filterMap.1 hold
    obtain ⟨e, he, rfl⟩ := List.mem_map.1 hadded
    exact hpast step hstep _ hid (issued_of_mem_addedSteps he).1
  unsaved := fun h => by cases h

end InOrder
end Attempt
end Assessment
