import Assessment.Command.Ids
import Assessment.Proofs.Store.OwnedWrite

/-!
# Unsaved changes describe what is unsaved

A stored usage keeps track of its changes in sets of slots and of places of steps.  They are updated
notice by notice, while the ids that tell what is stored are given by saves and taken back when a save
is aborted.  The two stay in step: attempts without an id are the added ones, steps without an id are
the added steps of the others, and steps are deleted only from attempts that have no step with an id
left (`Usage.DescribedBy`).

The invariant is kept slot by slot.  What is said of one slot describes the attempt in it
(`Attempt.DescribedBy`); an attempt that has no id is left alone by notices, so only those about
attempts with an id are followed (`SlotChanges.Describes`).  It holds of a usage at every point between
its saves (`Usage.InHand`), whatever the store holds.

A save of a usage that is described writes nothing exactly when there are no changes
(`Usage.DescribedBy.isEmpty_prepare`): an attempt of which nothing is said has all its ids, and only of
such an attempt nothing is written (`Attempt.Untouched`).
-/

namespace Assessment

variable {ν : Type}

/-! ## Steps -/

namespace SlotChanges

/-- What is said of a slot whose attempt was added. -/
def new : SlotChanges := ⟨true, false, false, fun _ => false⟩

/-- What is said of an attempt that has an id describes its steps: the added ones are those that have
none, and all of them are if stored ones go. -/
structure Describes (v : SlotChanges) (steps : List (Step ν)) : Prop where
  stored : v.added = false
  deleted : v.deleted = true → ∀ step ∈ steps, step.id = .none
  added : ∀ index, v.steps index = true ↔ ∃ step, steps[index]? = some step ∧ step.id = .none

variable {v : SlotChanges} {steps : List (Step ν)}

lemma none_describes (h : ∀ step ∈ steps, step.id.isSome = true) : none.Describes steps where
  stored := rfl
  deleted := fun hdeleted => by cases hdeleted
  added := fun index => by
    constructor
    · intro hadded
      cases hadded
    · rintro ⟨step, hstep, hnone⟩
      exact absurd hnone (Option.isSome_iff_ne_none.1 (h step (List.mem_of_getElem? hstep)))

lemma Describes.note_attemptModified (h : v.Describes steps) (slot : Nat) :
    (v.note (.attemptModified slot)).Describes steps := by
  have hnote : v.note (.attemptModified slot) = { v with modified := true } := by
    simp [note, h.stored]
  rw [hnote]
  exact ⟨h.stored, h.deleted, h.added⟩

/-- A step without an id goes after the others. -/
lemma Describes.note_stepAdded (h : v.Describes steps) (slot : Nat) (step : Step ν)
    (hstep : step.id = .none) :
    (v.note (.stepAdded slot steps.length)).Describes (steps ++ [step]) := by
  have hnote : v.note (.stepAdded slot steps.length) =
      { v with steps := fun i => i == steps.length || v.steps i } := by
    simp [note, h.stored]
  rw [hnote]
  refine ⟨h.stored, fun hdeleted s hs => ?_, fun index => ?_⟩
  · rcases List.mem_append.1 hs with hs | hs
    · exact h.deleted hdeleted s hs
    · rwa [List.mem_singleton.1 hs]
  · simp only [Bool.or_eq_true, beq_iff_eq, h.added]
    rcases Nat.lt_trichotomy index steps.length with hlt | rfl | hgt
    · simp [List.getElem?_append_left hlt, Nat.ne_of_lt hlt]
    · simp [hstep]
    · have hbeyond : (steps ++ [step])[index]? = .none := List.getElem?_eq_none (by simp; omega)
      simp [hbeyond, Nat.ne_of_gt hgt, Nat.le_of_lt hgt]

lemma note_stepsDeleted_describes (h : v.added = false) (slot : Nat) :
    (v.note (.stepsDeleted slot)).Describes ([] : List (Step ν)) := by
  have hnote : v.note (.stepsDeleted slot) =
      { v with deleted := true, steps := fun _ => false } := by
    simp [note, h]
  rw [hnote]
  exact ⟨h, by simp, by simp⟩

/-- The notices of a replay lead to a description of the steps that it made, whatever was said
before. -/
lemma replacement_describes (h : v.added = false) (slot : Nat)
    (hsteps : ∀ step ∈ steps, step.id = .none) :
    ((Usage.replacementNotices slot steps.length).foldl note v).Describes steps := by
  have hadded : (((List.range steps.length).map (Notice.stepAdded slot)).foldl note
      (v.note (.stepsDeleted slot))).Describes steps := by
    induction steps using List.reverseRecOn with
    | nil => exact note_stepsDeleted_describes h slot
    | append_singleton earlier step ih =>
      rw [List.length_append, List.length_singleton, List.range_succ, List.map_append,
        List.foldl_append]
      exact (ih fun s hs => hsteps s (List.mem_append_left _ hs)).note_stepAdded slot step
        (hsteps step (by simp))
  rw [Usage.replacementNotices, List.cons_append, List.foldl_cons, List.foldl_append]
  exact hadded.note_attemptModified slot

end SlotChanges

/-! ## Attempts -/

namespace Attempt

/-- What is said of a slot describes the attempt in it. -/
structure DescribedBy (a : Attempt ν) (v : SlotChanges) : Prop where
  unsaved : a.id = none → v = .new
  saved : a.id.isSome = true → v.Describes a.steps

variable {a a' : Attempt ν} {v : SlotChanges}

lemma IsNumbered.describedBy (h : a.IsNumbered) : a.DescribedBy .none where
  unsaved := fun hnone => absurd hnone (Option.isSome_iff_ne_none.1 h.id)
  saved := fun _ => SlotChanges.none_describes h.steps

lemma describedBy_new (h : a.id = none) : a.DescribedBy .new where
  unsaved := fun _ => rfl
  saved := fun hsome => absurd h (Option.isSome_iff_ne_none.1 hsome)

/-- An attempt with the same id takes its place.  If it has none, it is not looked at further. -/
lemma DescribedBy.follow (h : a.DescribedBy v) (hid : a'.id = a.id) (notices : List Notice)
    (hnotices : ∀ n ∈ notices, ∀ slot, n ≠ .attemptAdded slot)
    (hsaved : v.Describes a.steps → (notices.foldl SlotChanges.note v).Describes a'.steps) :
    a'.DescribedBy (notices.foldl SlotChanges.note v) where
  unsaved := fun hnone => by
    obtain rfl := h.unsaved (hid.symm.trans hnone)
    exact SlotChanges.foldl_of_added rfl hnotices
  saved := fun hsome => hsaved (h.saved (hid ▸ hsome))

lemma DescribedBy.advance [Scalar ν] {notices : List Notice} (h : a.DescribedBy v)
    (hadvance : a.Advance a' notices) : a'.DescribedBy (notices.foldl SlotChanges.note v) := by
  refine h.follow hadvance.samePlace.id notices ?_ fun hsteps => ?_
  · cases hadvance <;> simp
  · cases hadvance with
    | start b d hnil =>
      have hlength : 0 = a.steps.length := (congrArg List.length hnil).symm
      rw [hlength]
      exact hsteps.note_stepAdded a.slot d.record rfl
    | keep b d d' hb hd =>
      exact (hsteps.note_stepAdded a.slot d'.record rfl).note_attemptModified a.slot

/-- Nothing is said of an attempt that has all its ids and was not modified, and of no other. -/
lemma DescribedBy.eq_none_iff (h : a.DescribedBy v) :
    v = .none ↔ a.IsNumbered ∧ v.modified = false ∧ v.deleted = false := by
  cases hid : a.id with
  | none =>
    obtain rfl := h.unsaved hid
    constructor
    · intro heq
      cases congrArg SlotChanges.added heq
    · rintro ⟨hnumbered, -⟩
      exact absurd hid (Option.isSome_iff_ne_none.1 hnumbered.id)
  | some id =>
    have hdescribes := h.saved (by simp [hid])
    constructor
    · rintro rfl
      refine ⟨⟨by simp [hid], fun step hstep => ?_⟩, rfl, rfl⟩
      by_contra hnone
      obtain ⟨index, hindex⟩ := List.mem_iff_getElem?.1 hstep
      have hadded := (hdescribes.added index).2 ⟨step, hindex, by simpa using hnone⟩
      cases hadded
    · rintro ⟨hnumbered, hmodified, hdeleted⟩
      refine SlotChanges.ext hdescribes.stored hmodified hdeleted (funext fun index => ?_)
      refine Bool.eq_false_iff.2 fun hadded => ?_
      obtain ⟨step, hstep, hnone⟩ := (hdescribes.added index).1 hadded
      exact Option.isSome_iff_ne_none.1 (hnumbered.steps step (List.mem_of_getElem? hstep)) hnone

end Attempt

/-! ## Usages -/

namespace Usage

/-- The changes describe what is unsaved of a usage. -/
structure DescribedBy (u : Usage ν) (c : Changes) : Prop where
  attempts : ∀ {slot a}, u.attempts.get? slot = some a → a.DescribedBy (c.ofSlot slot)
  vacant : ∀ {slot}, u.attempts.get? slot = none → c.ofSlot slot = .none

variable {u u' : Usage ν} {c : Changes}

lemma describedBy_none (h : ∀ {slot a}, u.attempts.get? slot = some a → a.IsNumbered) :
    u.DescribedBy Changes.none where
  attempts := fun ha => (h ha).describedBy
  vacant := fun _ => rfl

/-- An attempt is put in a slot, with notices about this slot. -/
lemma DescribedBy.put (h : u.DescribedBy c) {slot : Nat} {a : Attempt ν} {notices : List Notice}
    (hslot : ∀ n ∈ notices, n.slot? = some slot)
    (ha : a.DescribedBy (notices.foldl SlotChanges.note (c.ofSlot slot))) :
    (u.put slot a notices).DescribedBy (notices.foldl Changes.note c) := by
  have hother : ∀ {slot'}, slot' ≠ slot →
      (notices.foldl Changes.note c).ofSlot slot' = c.ofSlot slot' := fun hne =>
    c.ofSlot_foldl_of_ne fun n hn heq => hne (Option.some.inj (heq.symm.trans (hslot n hn)))
  refine ⟨fun {slot' b} hb => ?_, fun {slot'} hvacant => ?_⟩
  · obtain ⟨rfl, rfl⟩ | ⟨hne, hb⟩ := SortedMap.get?_insert_cases hb
    · rwa [c.ofSlot_foldl hslot]
    · rw [hother hne]
      exact h.attempts hb
  · have hne : slot' ≠ slot := by
      rintro rfl
      simp [Usage.put, noted] at hvacant
    rw [hother hne]
    exact h.vacant ((SortedMap.get?_insert_of_ne _ hne _).symm.trans hvacant)

/-! ### What the sets have -/

/-- A slot of which something is said has an attempt. -/
lemma DescribedBy.exists_attempt (h : u.DescribedBy c) {slot : Nat} (hne : c.ofSlot slot ≠ .none) :
    ∃ a, u.attempts.get? slot = some a ∧ a.DescribedBy (c.ofSlot slot) := by
  cases ha : u.attempts.get? slot with
  | none => exact absurd (h.vacant ha) hne
  | some a => exact ⟨a, rfl, h.attempts ha⟩

lemma DescribedBy.attemptsAdded_iff (h : u.DescribedBy c) (slot : Nat) :
    c.attemptsAdded.has slot = true ↔ ∃ a, u.attempts.get? slot = some a ∧ a.id = none := by
  constructor
  · intro hadded
    have hne : c.ofSlot slot ≠ .none := fun heq => by
      cases hadded.symm.trans (congrArg SlotChanges.added heq)
    obtain ⟨a, ha, hdescribed⟩ := h.exists_attempt hne
    refine ⟨a, ha, Option.not_isSome_iff_eq_none.1 fun hsome => ?_⟩
    cases hadded.symm.trans (hdescribed.saved hsome).stored
  · rintro ⟨a, ha, hnone⟩
    exact congrArg SlotChanges.added ((h.attempts ha).unsaved hnone)

/-- If anything is said of the steps of an attempt, it has an id and its steps are described. -/
lemma DescribedBy.exists_describes (h : u.DescribedBy c) {slot : Nat}
    (hsteps : (c.ofSlot slot).deleted = true ∨ ∃ index, (c.ofSlot slot).steps index = true) :
    ∃ a, u.attempts.get? slot = some a ∧ a.id.isSome = true ∧
      (c.ofSlot slot).Describes a.steps := by
  have hne : ∀ added, c.ofSlot slot ≠ ⟨added, false, false, fun _ => false⟩ := fun added heq => by
    simp [heq] at hsteps
  obtain ⟨a, ha, hdescribed⟩ := h.exists_attempt (hne false)
  have hsome : a.id.isSome = true := Option.isSome_iff_ne_none.2 fun hnone =>
    hne true (hdescribed.unsaved hnone)
  exact ⟨a, ha, hsome, hdescribed.saved hsome⟩

lemma DescribedBy.stepsAdded_iff (h : u.DescribedBy c) (slot index : Nat) :
    c.stepsAdded.has ⟨slot, index⟩ = true ↔
      ∃ a step, u.attempts.get? slot = some a ∧ a.id.isSome = true ∧
        a.steps[index]? = some step ∧ step.id = none := by
  constructor
  · intro hplace
    obtain ⟨a, ha, hsome, hdescribes⟩ := h.exists_describes (.inr ⟨index, hplace⟩)
    obtain ⟨step, hstep, hnone⟩ := (hdescribes.added index).1 hplace
    exact ⟨a, step, ha, hsome, hstep, hnone⟩
  · rintro ⟨a, step, ha, hsome, hstep, hnone⟩
    exact (((h.attempts ha).saved hsome).added index).2 ⟨step, hstep, hnone⟩

/-! ### What operations do -/

/-- A usage that keeps track of its changes is stored, and they describe it. -/
structure Accounted (u : Usage ν) : Prop where
  sound : u.Sound
  stored : ∀ c, u.pending = some c → u.id.isStored = true
  described : ∀ c, u.pending = some c → u.DescribedBy c

/-- Notices are followed by the changes, if there are any. -/
lemma Accounted.follow (h : u.Accounted) (hsound : u'.Sound) (hid : u'.id = u.id)
    {notices : List Notice}
    (hpending : u'.pending = u.pending.map fun c => notices.foldl Changes.note c)
    (hdescribed : ∀ c, u.DescribedBy c → u'.DescribedBy (notices.foldl Changes.note c)) :
    u'.Accounted where
  sound := hsound
  stored := fun c' hc' => by
    obtain ⟨c, hc, -⟩ := Option.map_eq_some_iff.1 (hpending.symm.trans hc')
    rw [hid]
    exact h.stored c hc
  described := fun c' hc' => by
    obtain ⟨c, hc, rfl⟩ := Option.map_eq_some_iff.1 (hpending.symm.trans hc')
    exact hdescribed c (h.described c hc)

section Operations

variable [Scalar ν]

lemma Accounted.step (h : u.Accounted) (hstep : u.Step u') : u'.Accounted := by
  have hsound := hstep.sound h.sound
  cases hstep with
  | advance slot a a' notices ha hadvance =>
    have hslot : ∀ n ∈ notices, n.slot? = some slot := by
      cases hadvance <;> simp [Notice.slot?, h.sound.slot ha]
    have hobserver := hadvance.observer.trans (h.sound.observer ha)
    have hpending := pending_put_of_observer hobserver slot notices
    exact h.follow hsound rfl hpending fun c hc => hc.put hslot ((hc.attempts ha).advance hadvance)
  | flag slot a flagged ha =>
    have hslot : ∀ n ∈ [Notice.attemptModified a.slot], n.slot? = some slot := by
      simp [Notice.slot?, h.sound.slot ha]
    have hobserver := h.sound.observer ha
    have hpending := pending_put_of_observer (a := { a with flagged := flagged }) hobserver slot
      [.attemptModified a.slot]
    refine h.follow hsound rfl hpending fun c hc => hc.put hslot ?_
    have hid : ({ a with flagged := flagged } : Attempt ν).id = a.id := rfl
    exact (hc.attempts ha).follow hid [.attemptModified a.slot] (by simp) fun hsteps =>
      hsteps.note_attemptModified a.slot
  | replay slot a a' maxMark draw ha hok ha' =>
    obtain ⟨hnew, -⟩ := successor_replay hok
    rw [ha'] at hnew
    have hpending := pending_put_of_observer (a := a') (by rw [← ha']; rfl) slot
      (replacementNotices slot a'.steps.length)
    have hnone : ∀ step ∈ a'.steps, step.id = none := hnew.id_eq_none rfl
    have hslot : ∀ n ∈ replacementNotices slot a'.steps.length,
        n.slot? = some slot ∧ ∀ slot', n ≠ .attemptAdded slot' := by
      intro n hn
      obtain ⟨hslot, hne⟩ := slot?_of_mem_replacementNotices hn
      exact ⟨hslot, Notice.ne_attemptAdded hslot hne⟩
    refine h.follow hsound rfl hpending fun c hc => hc.put (fun n hn => (hslot n hn).1) ?_
    exact (hc.attempts ha).follow hnew.place.id _ (fun n hn => (hslot n hn).2) fun hdescribes =>
      SlotChanges.replacement_describes hdescribes.stored slot hnone
  | add question maxMark =>
    have hpending := pending_put_of_observer (u := u)
      (a := (Attempt.new question u.id.text u.nextSlot maxMark).observedBy u.observer) rfl u.nextSlot
      [.attemptAdded u.nextSlot]
    refine h.follow hsound rfl hpending fun c hc => hc.put (by simp [Notice.slot?]) ?_
    rw [hc.vacant u.get?_nextSlot]
    exact Attempt.describedBy_new rfl
  | prefer name b hb => exact h.follow hsound rfl rfl fun c hc => ⟨hc.attempts, hc.vacant⟩

lemma Accounted.operation (h : u.Accounted) (o : Operation ν) : (o.after u).Accounted := by
  have hsteps := o.after_steps u
  generalize o.after u = u' at hsteps
  induction hsteps with
  | refl => exact h
  | tail _ hstep ih => exact ih.step hstep

end Operations

end Usage

/-! ## What a save writes -/

/-- An attempt of which a save writes nothing: it has all its ids and is not noted as changed. -/
structure Attempt.Untouched (a : Attempt ν) (c : Changes) (slot : Nat) : Prop where
  numbered : a.IsNumbered
  row : c.slotsToUpdate.has slot = false
  steps : c.stepsDeleted.has slot = false

/-- An attempt is untouched exactly when its changes say nothing of it. -/
lemma Attempt.DescribedBy.untouched_iff {a : Attempt ν} {c : Changes} {slot : Nat}
    (h : a.DescribedBy (c.ofSlot slot)) : a.Untouched c slot ↔ c.ofSlot slot = .none := by
  have hrow := c.has_slotsToUpdate slot
  constructor
  · rintro ⟨hnumbered, hclean, hdeleted⟩
    have hadded : c.attemptsAdded.has slot = false := (h.saved hnumbered.id).stored
    refine h.eq_none_iff.2 ⟨hnumbered, Bool.eq_false_iff.2 fun hmodified => ?_, hdeleted⟩
    rw [hrow.2 ⟨.inl hmodified, hadded⟩] at hclean
    cases hclean
  · intro hnone
    refine ⟨(h.eq_none_iff.1 hnone).1, Bool.eq_false_iff.2 fun hdirty => ?_,
      congrArg SlotChanges.deleted hnone⟩
    obtain ⟨hmodified | hdeleted | ⟨index, hindex⟩, -⟩ := hrow.1 hdirty
    · exact absurd (hmodified.symm.trans (congrArg SlotChanges.modified hnone)) Bool.noConfusion
    · exact absurd (hdeleted.symm.trans (congrArg SlotChanges.deleted hnone)) Bool.noConfusion
    · have hsteps := congrFun (congrArg SlotChanges.steps hnone) index
      exact absurd (hindex.symm.trans hsteps) Bool.noConfusion

namespace Saving

variable {c : Changes} {slot : Nat} {s : Saving ν}

lemma isEmpty_writeRow {w : Write ν} {isNew isTouched : Bool} {row : AttemptRow ν} :
    (writeRow w isNew isTouched row).isEmpty = true ↔
      w.isEmpty = true ∧ isNew = false ∧ isTouched = false := by
  cases isNew <;> cases isTouched <;> simp [writeRow, Write.isEmpty]

/-- If no step is given an id, no more than the ids of deleted steps goes into the write. -/
lemma isEmpty_writeWith {taken : Option Changes} {a : Attempt ν}
    (h : (a.numbering s.supply).2.2 = []) :
    (s.writeWith taken slot a).isEmpty = true ↔
      s.plan.write.isEmpty = true ∧ clearedWith taken slot s a = [] := by
  have hsteps : (s.writeWith taken slot a).newSteps = s.plan.write.newSteps := by
    simp [writeWith, Attempt.addedSteps, h, Attempt.stepsAt]
  unfold Write.isEmpty
  rw [clearedAttempts_writeWith, hsteps]
  simp only [Bool.and_eq_true, List.isEmpty_iff, List.append_eq_nil_iff]
  tauto

/-- Collecting the attempt in a slot leaves a write empty exactly when the attempt is untouched. -/
lemma isEmpty_collect_iff (hok : (collect (some c) slot s).result = .ok ()) :
    (collect (some c) slot s).state.plan.write.isEmpty = true ↔
      s.plan.write.isEmpty = true ∧
        ∀ a, s.usage.attempts.get? slot = some a → a.Untouched c slot := by
  obtain ⟨hnone, hstate⟩ | ⟨a, row, ha, -, hstate⟩ := collect_cases hok
  · rw [hstate]
    simp [hnone]
  · rw [hstate, ha]
    simp only [isEmpty_writeRow, Option.some.injEq, forall_eq']
    constructor
    · rintro ⟨hempty, hid, htouched⟩
      simp only [touches, Bool.or_eq_false_iff, Bool.not_eq_false', List.isEmpty_iff] at htouched
      obtain ⟨⟨-, hrow⟩, hplaces⟩ := htouched
      obtain ⟨hempty, hcleared⟩ := (isEmpty_writeWith hplaces).1 hempty
      have hnumbered : a.IsNumbered :=
        ⟨by simpa using hid, Attempt.assignStepIds_places_eq_nil hplaces⟩
      obtain ⟨id, hid⟩ := Option.isSome_iff_exists.1 hnumbered.id
      refine ⟨hempty, hnumbered, hrow, Bool.eq_false_iff.2 fun hdeleted => ?_⟩
      have hmem : id ∈ clearedWith (some c) slot s a := mem_clearedWith.2 ⟨hid, hdeleted⟩
      exact List.ne_nil_of_mem hmem hcleared
    · rintro ⟨hempty, hnumbered, hrow, hdeleted⟩
      have hplaces : (a.numbering s.supply).2.2 = [] :=
        congrArg (fun n => n.2.2) (hnumbered.numbering_eq s.supply)
      refine ⟨(isEmpty_writeWith hplaces).2 ⟨hempty, ?_⟩, ?_, ?_⟩
      · simp [clearedWith, hdeleted]
      · simpa using hnumbered.id
      · simp [touches, hrow, hplaces]

/-- An untouched attempt stays as it is. -/
lemma usage_collect (h : ∀ a, s.usage.attempts.get? slot = some a → a.Untouched c slot) :
    (collect (some c) slot s).state.usage = s.usage := by
  cases ha : s.usage.attempts.get? slot with
  | none => rw [collect_of_none ha]
  | some a =>
    rw [(collect_keeps (some c) ha).1, collected, (h a ha).numbered.numbered_eq,
      SortedMap.insert_of_get? ha]

lemma isEmpty_collectAll_iff {slots : List Nat}
    (hok : (Op.forEach (collect (some c)) slots s).result = .ok ()) :
    (Op.forEach (collect (some c)) slots s).state.plan.write.isEmpty = true ↔
      s.plan.write.isEmpty = true ∧
        ∀ slot ∈ slots, ∀ a, s.usage.attempts.get? slot = some a → a.Untouched c slot := by
  induction slots generalizing s with
  | nil => simp
  | cons slot rest ih =>
    cases hslot : (collect (some c) slot s).result with
    | error e =>
      rw [Op.forEach_cons_of_error hslot] at hok
      cases hok
    | ok _ =>
      rw [Op.forEach_cons_of_ok hslot] at hok ⊢
      rw [ih hok, isEmpty_collect_iff hslot, List.forall_mem_cons, and_assoc]
      -- the rest is looked at in the same usage, if the write is empty so far
      refine and_congr_right fun _ => and_congr_right fun huntouched => ?_
      rw [usage_collect huntouched]

end Saving

namespace Usage

variable {u : Usage ν} {c : Changes} {supply : Supply} {plan : Plan ν}

/-- A save of a usage that is described writes nothing exactly when there are no changes. -/
lemma DescribedBy.isEmpty_prepare (h : u.DescribedBy c) (hstored : u.id.isStored = true)
    (hpending : u.pending = some c) (hok : (prepare (u, supply)).result = .ok plan) :
    plan.write.isEmpty = true ↔ c.isEmpty = true := by
  obtain ⟨hloop, hstate⟩ := Saving.prepare_of_ok hok
  have hplan := congrArg (fun s : Saving ν => s.plan.write.isEmpty) hstate
  rw [hpending] at hloop hplan
  obtain ⟨id, hid⟩ := UsageId.exists_eq_stored hstored
  have hbegin : (Saving.begin u supply).plan.write.isEmpty = true ↔ c.usageModified = false := by
    rw [Saving.begin_of_stored hid, hpending]
    cases hmodified : c.usageModified <;> simp [Write.isEmpty, Write.empty, hmodified]
  have husage : (Saving.begin u supply).usage.attempts = u.attempts := by
    rw [Saving.begin_of_stored hid]
  rw [hplan, Saving.isEmpty_collectAll_iff hloop, Changes.isEmpty_iff, hbegin, husage]
  refine and_congr_right fun _ => ⟨fun h' slot => ?_, fun h' slot _ a ha => ?_⟩
  · cases ha : u.attempts.get? slot with
    | none => exact h.vacant ha
    | some a =>
      have hslot : slot ∈ u.slots := SortedMap.mem_keys_iff.2 ⟨a, ha⟩
      exact (h.attempts ha).untouched_iff.1 (h' slot hslot a ha)
  · exact (h.attempts ha).untouched_iff.2 (h' slot)

/-! ## Usages in hand -/

/-- A save that is prepared leaves the usage stored, and takes its changes. -/
lemma pending_prepare (hok : (prepare (u, supply)).result = .ok plan) :
    (prepare (u, supply)).state.1.id.isStored = true ∧
      (prepare (u, supply)).state.1.pending = u.pending.map fun _ => Changes.none := by
  refine Saving.prepare_keeps (P := fun s => s.usage.id.isStored = true ∧
    s.usage.pending = u.pending.map fun _ => Changes.none) ?_ (fun slot _ s hs _ => ?_) hok
  · cases hid : u.id with
    | stored id =>
      rw [Saving.begin_of_stored hid]
      exact ⟨congrArg UsageId.isStored hid, rfl⟩
    | ephemeral token =>
      rw [Saving.begin_of_ephemeral hid]
      exact ⟨rfl, rfl⟩
  · cases ha : s.usage.attempts.get? slot with
    | none => rwa [Saving.collect_of_none ha]
    | some a =>
      rw [(Saving.collect_keeps u.pending ha).1]
      exact hs

/-- After a save nothing is unsaved. -/
lemma Accounted.settle (h : u.Accounted) (hok : (prepare (u, supply)).result = .ok plan) :
    (prepare (u, supply)).state.1.settle.Accounted where
  sound := (h.sound.prepare supply).settle
  stored := fun _ _ => by
    rw [id_settle]
    exact (pending_prepare hok).1
  described := fun c hc => by
    have hsound := h.sound.prepare supply
    rw [hsound.settle_eq] at hc
    have hpending := Option.some.inj hc
    rw [(pending_prepare hok).2] at hpending
    obtain rfl : Changes.none = c := by
      rw [← hpending]
      cases u.pending <;> rfl
    refine describedBy_none fun ha => ?_
    obtain ⟨b, hb, _, rfl⟩ := exists_of_get?_settle ha
    obtain ⟨hid, hsteps⟩ := isNumbered_prepare h.sound hok hb
    exact ⟨hid, hsteps⟩

/-- A usage in memory at any point between its saves.  It was made or loaded, whatever the store held,
and then there were operations, whether they succeeded or failed, and saves that were settled, could
not be prepared, or were aborted. -/
inductive InHand [Scalar ν] : Usage ν → Prop
  | new {token plugin context preferred : String} {registry : Registry} {u : Usage ν}
    (h : Usage.new token plugin context preferred registry = .ok u) : InHand u
  | load {usageId : String} {bank : Bank ν} {registry : Registry} {s : Store ν} {u : Usage ν}
    (h : (Store.load usageId bank registry s).result = .ok u) : InHand u
  | operation {u : Usage ν} (h : InHand u) (o : Operation ν) : InHand (o.after u)
  | settle {u : Usage ν} {supply : Supply} {plan : Plan ν} (h : InHand u)
    (hok : (prepare (u, supply)).result = .ok plan) :
    InHand (prepare (u, supply)).state.1.settle
  | fail {u : Usage ν} {supply : Supply} {e : Fault} (h : InHand u)
    (hfail : (prepare (u, supply)).result = .error e) : InHand (prepare (u, supply)).state.1
  | abort {u : Usage ν} {supply : Supply} {plan : Plan ν} (h : InHand u)
    (hok : (prepare (u, supply)).result = .ok plan) :
    InHand ((prepare (u, supply)).state.1.abort plan)

variable [Scalar ν]

/-- Saving to a store is one of these. -/
lemma InHand.save (h : u.InHand) (s : Store ν) : (Store.save (u, s)).state.1.InHand := by
  unfold Store.save
  cases hr : (prepare (u, s.supply)).result with
  | error e => simpa [hr] using h.fail hr
  | ok plan =>
    cases hb : s.backend with
    | memory => simpa [hr, hb] using h.settle hr
    | unreachable =>
      cases hempty : plan.write.isEmpty with
      | true => simpa [hr, hb, hempty] using h.settle hr
      | false => simpa [hr, hb, hempty] using h.abort hr

/-- The invariant of usages in hand. -/
theorem InHand.accounted (h : u.InHand) : u.Accounted := by
  induction h with
  | new h =>
    have hpending := (unsaved_of_new h).pending
    refine ⟨sound_of_new h, fun c hc => ?_, fun c hc => ?_⟩
    · rw [hpending] at hc
      cases hc
    · rw [hpending] at hc
      cases hc
  | load h =>
    obtain ⟨row, -, -, hid, -, hpending, hattempts⟩ := of_load h
    refine ⟨sound_of_load h, fun _ _ => congrArg UsageId.isStored hid, fun c hc => ?_⟩
    obtain rfl := Option.some.inj (hpending.symm.trans hc)
    refine describedBy_none fun ha => ?_
    obtain ⟨r, -, -, haid, -, hsteps⟩ := hattempts ha
    exact ⟨by simp [haid], hsteps⟩
  | operation _ o ih => exact ih.operation o
  | settle _ hok ih => exact ih.settle hok
  | fail _ hfail ih =>
    rw [(prepare_undone ih.sound _).1 _ hfail]
    exact ih
  | abort _ hok ih =>
    rw [(prepare_undone ih.sound _).2 _ hok]
    exact ih

/-- The unsaved changes of a usage describe exactly what is unsaved of it.  The added attempts are
those without an id, and the added steps are those without an id in the other attempts; of an added
attempt nothing else is noted; an attempt whose stored steps go has an id, and none of its steps has
one; and a save that is prepared writes nothing if and only if there were no changes. -/
theorem pending_describes_unsaved (h : u.InHand) (hc : u.pending = some c) :
    (∀ slot, c.attemptsAdded.has slot = true ↔
      ∃ a, u.attempts.get? slot = some a ∧ a.id = none) ∧
    (∀ slot index, c.stepsAdded.has ⟨slot, index⟩ = true ↔
      ∃ a step, u.attempts.get? slot = some a ∧ a.id.isSome = true ∧
        a.steps[index]? = some step ∧ step.id = none) ∧
    (∀ slot, c.attemptsAdded.has slot = true →
      c.attemptsModified.has slot = false ∧ c.slotsToUpdate.has slot = false) ∧
    (∀ slot, c.stepsDeleted.has slot = true →
      ∃ a, u.attempts.get? slot = some a ∧ a.id.isSome = true ∧ ∀ step ∈ a.steps, step.id = none) ∧
    ∀ (supply : Supply) (plan : Plan ν), (prepare (u, supply)).result = .ok plan →
      (plan.write.isEmpty = true ↔ c.isEmpty = true) := by
  have hstored := h.accounted.stored c hc
  have hdescribed := h.accounted.described c hc
  refine ⟨hdescribed.attemptsAdded_iff, hdescribed.stepsAdded_iff, fun slot hadded => ?_,
    fun slot hdeleted => ?_, fun supply plan hok => hdescribed.isEmpty_prepare hstored hc hok⟩
  · obtain ⟨a, ha, hnone⟩ := (hdescribed.attemptsAdded_iff slot).1 hadded
    have hnew := (hdescribed.attempts ha).unsaved hnone
    refine ⟨congrArg SlotChanges.modified hnew, Bool.eq_false_iff.2 fun hrow => ?_⟩
    cases hadded.symm.trans ((c.has_slotsToUpdate slot).1 hrow).2
  · obtain ⟨a, ha, hsome, hdescribes⟩ := hdescribed.exists_describes (.inl hdeleted)
    exact ⟨a, ha, hsome, hdescribes.deleted hdeleted⟩

/-- After a save the attempt is replayed and another question is added: the changes tell of both, the
replayed attempt has kept its id and none of its steps has one, and a save would write something. -/
theorem pending_describes_unsaved_example :
    let question : Question Float := .trueFalse (TrueFalse.new "q1" "The sky is blue" true)
    let blank : Usage Float :=
      ⟨.ephemeral "t", "quiz", "course", "deferredfeedback", SortedMap.empty, Registry.standard, none⟩
    let started := (Operation.start 1 ⟨0⟩ none ⟨0, 0⟩).after
      ((Operation.add question none).after blank)
    let saved := (Store.save (started, Store.empty .memory)).state.1
    let replayed := (Operation.regrade 1 none ⟨0, 0⟩).after saved
    let added := (Operation.start 2 ⟨0⟩ none ⟨0, 0⟩).after
      ((Operation.add question none).after replayed)
    ∃ c, added.pending = some c ∧ c.isEmpty = false ∧
      (∃ a, added.attempts.get? 2 = some a ∧ a.id = none) ∧
      (∃ a, added.attempts.get? 1 = some a ∧ a.id.isSome = true ∧ ∀ step ∈ a.steps, step.id = none) ∧
      ∃ plan, (prepare (added, ⟨0⟩)).result = .ok plan ∧ plan.write.isEmpty = false := by
  intro question blank started saved replayed added
  have hnew : Usage.new "t" "quiz" "course" "deferredfeedback" Registry.standard = .ok blank := rfl
  have hsaved : saved.InHand := .save (.operation (.operation (.new hnew) _) _) _
  have hadded : added.InHand := .operation (.operation (.operation hsaved _) _) _
  have hchanges : added.pending.map (fun c =>
      (c.isEmpty, c.attemptsAdded.has 2, c.stepsDeleted.has 1)) = some (false, true, true) := by
    decide +kernel
  obtain ⟨c, hc, hsets⟩ := Option.map_eq_some_iff.1 hchanges
  obtain ⟨hempty, hattempt, hdeleted⟩ : c.isEmpty = false ∧ c.attemptsAdded.has 2 = true ∧
      c.stepsDeleted.has 1 = true := by simpa using hsets
  have hisOk : (prepare (added, ⟨0⟩)).result.isOk = true := by decide +kernel
  obtain ⟨plan, hplan⟩ : ∃ plan, (prepare (added, ⟨0⟩)).result = .ok plan := by
    cases h : (prepare (added, ⟨0⟩)).result with
    | error e => simp [h, Except.isOk, Except.toBool] at hisOk
    | ok plan => exact ⟨plan, rfl⟩
  obtain ⟨hattempts, -, -, hsteps, hwrite⟩ := pending_describes_unsaved hadded hc
  refine ⟨c, hc, hempty, (hattempts 2).1 hattempt, hsteps 1 hdeleted, plan, hplan, ?_⟩
  exact Bool.eq_false_iff.2 fun h => Bool.eq_false_iff.1 hempty ((hwrite _ plan hplan).1 h)

end Usage
end Assessment
