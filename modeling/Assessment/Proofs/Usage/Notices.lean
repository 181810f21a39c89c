import Assessment.Proofs.Usage.Step

/-!
# What notices tell of a slot

Unsaved changes are sets of slots and of places of steps.  Here they are read slot by slot: what they say
of one slot (`SlotChanges`), and how a notice about it changes that (`SlotChanges.note`).  A notice about
another slot changes nothing, so a run of notices about one slot is followed there alone
(`Changes.ofSlot_foldl`), and two changes are the same if they say the same of the usage and of every
slot.
-/

namespace Assessment

/-- The slot that a notice is about. -/
def Notice.slot? : Notice → Option Nat
  | usageModified => none
  | attemptAdded slot | attemptModified slot | stepsDeleted slot => some slot
  | stepAdded slot _ => some slot

/-- A notice tells of no other slot's attempt. -/
lemma Notice.ne_attemptAdded {n : Notice} {slot : Nat} (h : n.slot? = some slot)
    (hne : n ≠ .attemptAdded slot) (slot' : Nat) : n ≠ .attemptAdded slot' := by
  rintro rfl
  exact hne (congrArg Notice.attemptAdded (Option.some.inj h))

/-- The notices of a replay are about the slot, and tell of no new attempt. -/
lemma Usage.slot?_of_mem_replacementNotices {slot steps : Nat} {n : Notice}
    (h : n ∈ replacementNotices slot steps) : n.slot? = some slot ∧ n ≠ .attemptAdded slot := by
  simp only [replacementNotices, List.cons_append, List.mem_cons, List.mem_append, List.mem_map,
    List.mem_range, List.not_mem_nil, or_false] at h
  rcases h with rfl | ⟨index, -, rfl⟩ | rfl <;> simp [Notice.slot?]

/-! ## One slot -/

/-- What unsaved changes say of a slot. -/
@[ext]
structure SlotChanges where
  added : Bool
  modified : Bool
  /-- Whether the stored steps go. -/
  deleted : Bool
  /-- The indices of the steps that were added. -/
  steps : Nat → Bool

namespace SlotChanges

/-- Nothing. -/
def none : SlotChanges := ⟨false, false, false, fun _ => false⟩

/-- What is said together with a notice about the slot. -/
def note (v : SlotChanges) : Notice → SlotChanges
  | .usageModified => v
  | .attemptAdded _ => { v with added := true, modified := false }
  | .attemptModified _ => if v.added then v else { v with modified := true }
  | .stepsDeleted _ => if v.added then v else { v with deleted := true, steps := fun _ => false }
  | .stepAdded _ index =>
    if v.added then v else { v with steps := fun i => i == index || v.steps i }

/-- An added attempt will be written in full, so nothing else is noted of it. -/
lemma note_of_added {v : SlotChanges} (h : v.added = true) {n : Notice}
    (hn : ∀ slot, n ≠ .attemptAdded slot) : v.note n = v := by
  cases n with
  | attemptAdded slot => exact absurd rfl (hn slot)
  | usageModified => rfl
  | attemptModified slot | stepsDeleted slot | stepAdded slot index => exact if_pos h

lemma foldl_of_added {v : SlotChanges} (h : v.added = true) {notices : List Notice}
    (hnotices : ∀ n ∈ notices, ∀ slot, n ≠ .attemptAdded slot) : notices.foldl note v = v := by
  induction notices with
  | nil => rfl
  | cons n rest ih =>
    rw [List.foldl_cons, note_of_added h (hnotices n List.mem_cons_self)]
    exact ih fun m hm => hnotices m (List.mem_cons_of_mem _ hm)

end SlotChanges

/-! ## All slots -/

namespace Changes

/-- What the changes say of a slot. -/
def ofSlot (c : Changes) (slot : Nat) : SlotChanges where
  added := c.attemptsAdded.has slot
  modified := c.attemptsModified.has slot
  deleted := c.stepsDeleted.has slot
  steps index := c.stepsAdded.has ⟨slot, index⟩

lemma has_slotsToUpdate (c : Changes) (slot : Nat) :
    c.slotsToUpdate.has slot = true ↔
      (c.attemptsModified.has slot = true ∨ c.stepsDeleted.has slot = true ∨
        ∃ index, c.stepsAdded.has ⟨slot, index⟩ = true) ∧ c.attemptsAdded.has slot = false := by
  have hplaces :
      SortedSet.has (SortedSet.ofList (c.stepsAdded.toList.map StepPlace.slot)) slot = true ↔
        ∃ index, c.stepsAdded.has ⟨slot, index⟩ = true := by
    rw [SortedSet.has_ofList, List.mem_map]
    constructor
    · rintro ⟨place, hplace, rfl⟩
      exact ⟨place.index, SortedSet.has_iff_mem_toList.2 hplace⟩
    · rintro ⟨index, hindex⟩
      exact ⟨⟨slot, index⟩, SortedSet.has_iff_mem_toList.1 hindex, rfl⟩
  simp only [slotsToUpdate, SortedSet.has_keep, SortedSet.has_join, Bool.and_eq_true,
    Bool.or_eq_true, hplaces, Bool.not_eq_true', or_assoc]

/-- The changes are empty when nothing is said of the usage and of any slot. -/
lemma isEmpty_iff {c : Changes} :
    c.isEmpty = true ↔ c.usageModified = false ∧ ∀ slot, c.ofSlot slot = .none := by
  simp only [isEmpty, Bool.and_eq_true, Bool.not_eq_true', SortedSet.isEmpty_iff, ofSlot,
    SlotChanges.none, SlotChanges.mk.injEq, funext_iff]
  constructor
  · rintro ⟨⟨⟨⟨husage, hadded⟩, hmodified⟩, hdeleted⟩, hsteps⟩
    exact ⟨husage, fun slot => ⟨hadded slot, hmodified slot, hdeleted slot, fun i => hsteps _⟩⟩
  · rintro ⟨husage, hslots⟩
    exact ⟨⟨⟨⟨husage, fun slot => (hslots slot).1⟩, fun slot => (hslots slot).2.1⟩,
      fun slot => (hslots slot).2.2.1⟩, fun place => (hslots place.slot).2.2.2 place.index⟩

/-- A notice changes what is said of the slot that it is about. -/
lemma ofSlot_note (c : Changes) (n : Notice) (slot : Nat) :
    (c.note n).ofSlot slot =
      if n.slot? = some slot then (c.ofSlot slot).note n else c.ofSlot slot := by
  cases n with
  | usageModified => rfl
  | attemptAdded s =>
    by_cases hs : s = slot
    · subst hs
      simp [note, ofSlot, SlotChanges.note, Notice.slot?]
    · simp [note, ofSlot, Notice.slot?, hs, Ne.symm hs]
  | attemptModified s =>
    by_cases hs : s = slot
    · subst hs
      cases hadded : c.attemptsAdded.has s <;>
        simp [note, ofSlot, SlotChanges.note, Notice.slot?, hadded]
    · simp only [note, Notice.slot?]
      split <;> simp [ofSlot, hs, Ne.symm hs]
  | stepsDeleted s =>
    by_cases hs : s = slot
    · subst hs
      cases hadded : c.attemptsAdded.has s <;>
        simp [note, ofSlot, SlotChanges.note, Notice.slot?, hadded]
    · have hother : (slot != s) = true := bne_iff_ne.2 (Ne.symm hs)
      simp only [note, Notice.slot?]
      split <;> simp [ofSlot, hs, Ne.symm hs, hother]
  | stepAdded s index =>
    by_cases hs : s = slot
    · subst hs
      cases hadded : c.attemptsAdded.has s <;>
        simp [note, ofSlot, SlotChanges.note, Notice.slot?, hadded, Bool.beq_eq_decide_eq]
    · have hother : ∀ i, ((⟨slot, i⟩ : StepPlace) == ⟨s, index⟩) = false := fun i =>
        beq_eq_false_iff_ne.2 fun heq => hs (congrArg StepPlace.slot heq).symm
      simp only [note, Notice.slot?]
      split <;> simp [ofSlot, hs, hother]

/-- Notices about other slots change nothing of what is said of a slot. -/
lemma ofSlot_foldl_of_ne (c : Changes) {notices : List Notice} {slot : Nat}
    (h : ∀ n ∈ notices, n.slot? ≠ some slot) :
    (notices.foldl note c).ofSlot slot = c.ofSlot slot := by
  induction notices generalizing c with
  | nil => rfl
  | cons n rest ih =>
    rw [List.foldl_cons, ih (c.note n) fun m hm => h m (List.mem_cons_of_mem _ hm), ofSlot_note,
      if_neg (h n List.mem_cons_self)]

/-- Notices about a slot are followed in what is said of it. -/
lemma ofSlot_foldl (c : Changes) {notices : List Notice} {slot : Nat}
    (h : ∀ n ∈ notices, n.slot? = some slot) :
    (notices.foldl note c).ofSlot slot = notices.foldl SlotChanges.note (c.ofSlot slot) := by
  induction notices generalizing c with
  | nil => rfl
  | cons n rest ih =>
    rw [List.foldl_cons, List.foldl_cons, ih (c.note n) fun m hm => h m (List.mem_cons_of_mem _ hm),
      ofSlot_note, if_pos (h n List.mem_cons_self)]

end Changes
end Assessment
