import Assessment.Proofs.Store.Saved
import Assessment.Proofs.Usage.Reproducible

/-!
# What a save leaves of a usage

A save gives ids to what has none.  Nothing else of an attempt changes, so its history is as
reproducible as it was (`Usage.Reproducible.prepare`), and so it is after a load and out of other
marks.

A usage that is stored except for the steps in one slot, as a regrade leaves it, is saved without
fail, and but for the ids of these steps it stays as it is (`Usage.StoredBut.prepare`).  The
invariant of the loop over the slots is `Saving.Renumbers`: what has all its ids is left alone.
-/

namespace Assessment

variable {ν : Type}

/-! ## Numbered attempts -/

namespace Attempt

/-- The numbering of steps changes nothing but ids. -/
lemma unnumbered_assignStepIds (index : Nat) (supply : Supply) (steps : List (Step ν)) :
    (assignStepIds index supply steps).1.map Step.unnumbered = steps.map Step.unnumbered := by
  induction steps generalizing index supply with
  | nil => rfl
  | cons step rest ih =>
    unfold assignStepIds
    cases step.id <;> simp [ih, Step.unnumbered]

lemma unnumbered_numbered {a : Attempt ν} (hid : a.id.isSome = true) (supply : Supply) :
    (a.numbered supply).unnumbered = a.unnumbered := by
  obtain ⟨id, hid⟩ := Option.isSome_iff_exists.1 hid
  simp [unnumbered, numbered, numbering, takeId, unnumbered_assignStepIds, hid]

/-- A started attempt can be stored once it is numbered. -/
lemma exists_toRow_numbered {a : Attempt ν} (ha : a.Sound) (hb : a.behaviour.isSome = true)
    (supply : Supply) (questionId : String) :
    ∃ row, (a.numbered supply).toRow questionId = .ok row := by
  obtain ⟨b, hbehaviour⟩ := Option.isSome_iff_exists.1 hb
  obtain ⟨minFraction, hminFraction⟩ := Option.isSome_iff_exists.1 (ha.minFraction.trans hb)
  obtain ⟨modified, hmodified⟩ := Option.isSome_iff_exists.1 (ha.modified.trans hb)
  simp [toRow, numbered, hbehaviour, hminFraction, hmodified]

namespace Reproducible

variable [Scalar ν] {questions : SortedMap String (Question ν)} {a : Attempt ν}

lemma numbered (h : a.Reproducible questions) (supply : Supply) :
    (a.numbered supply).Reproducible questions :=
  h.congr fun p => by
    simp [recast, unnumbered, inPlaceOf, Attempt.numbered, numbering, unnumbered_assignStepIds]

/-- The behaviour that a load makes replays as the one that was stored. -/
lemma reloaded (h : a.Reproducible questions) (preferred : String) :
    (a.reloaded preferred).Reproducible questions := by
  refine h.congr fun p => ?_
  have hbehaviour : (a.reloaded preferred).behaviour.map (Behaviour.under p) =
      a.behaviour.map (Behaviour.under p) := by
    cases hb : a.behaviour with
    | none => simp [Attempt.reloaded, hb]
    | some b => simp [Attempt.reloaded, hb, Behaviour.makeOrMissing_name (h.behaviour b hb)]
  rw [recast, hbehaviour]
  rfl

lemma withMaxMark (h : a.Reproducible questions) (m : ν) :
    (a.withMaxMark m).Reproducible questions := h.congr fun _ => rfl

end Reproducible
end Attempt

/-! ## Usages that stay reproducible -/

namespace Usage

variable [Scalar ν] {questions : SortedMap String (Question ν)} {u : Usage ν}

/-- A usage is reproducible if its attempts are and their behaviours are on offer. -/
lemma Reproducible.map (h : u.Reproducible questions) {f : Attempt ν → Attempt ν}
    (hf : ∀ a : Attempt ν, a.Reproducible questions → (f a).Reproducible questions) {v : Usage ν}
    (hattempts : v.attempts = u.attempts.map f) (hregistry : v.registry = Registry.standard) :
    v.Reproducible questions where
  registry := hregistry
  attempts := fun hb => by
    rw [hattempts, SortedMap.get?_map] at hb
    obtain ⟨a, ha, rfl⟩ := Option.map_eq_some_iff.1 hb
    exact hf a (h.attempts ha)

lemma Reproducible.settle (h : u.Reproducible questions) : u.settle.Reproducible questions := by
  unfold Usage.settle
  split
  · exact h
  · exact h.map (fun _ ha => ha.observedBy _) rfl h.registry

lemma Reproducible.reloaded (h : u.Reproducible questions) : u.reloaded.Reproducible questions :=
  h.map (fun _ ha => ha.reloaded u.preferred) rfl rfl

lemma Reproducible.withMaxMark (h : u.Reproducible questions) (slot : Nat) (m : ν) :
    (u.withMaxMark slot m).Reproducible questions := by
  refine h.map (f := fun a => if a.slot == slot then a.withMaxMark m else a) (fun a ha => ?_) rfl
    h.registry
  split
  · exact ha.withMaxMark m
  · exact ha

lemma Reproducible.begin (h : u.Reproducible questions) (supply : Supply) :
    (Saving.begin u supply).usage.Reproducible questions := by
  cases hid : u.id with
  | stored id =>
    rw [Saving.begin_of_stored hid]
    exact ⟨h.registry, h.attempts⟩
  | ephemeral token =>
    rw [Saving.begin_of_ephemeral hid]
    exact h.map (f := fun a => { a with usageId := supply.rowId supply.issued })
      (fun _ ha => ha.congr fun _ => rfl) rfl h.registry

lemma Reproducible.collect {s : Saving ν} (h : s.usage.Reproducible questions)
    (taken : Option Changes) (slot : Nat) :
    (Saving.collect taken slot s).state.usage.Reproducible questions := by
  cases ha : s.usage.attempts.get? slot with
  | none => rwa [Saving.collect_of_none ha]
  | some a =>
    rw [(Saving.collect_keeps taken ha).1]
    refine ⟨h.registry, fun hb => ?_⟩
    obtain ⟨-, rfl⟩ | ⟨-, hb⟩ := SortedMap.get?_insert_cases hb
    · exact (h.attempts ha).numbered s.supply
    · exact h.attempts hb

/-- A save that is prepared leaves a reproducible usage reproducible. -/
theorem Reproducible.prepare (h : u.Reproducible questions) {supply : Supply} {plan : Plan ν}
    (hok : (Usage.prepare (u, supply)).result = .ok plan) :
    (Usage.prepare (u, supply)).state.1.Reproducible questions :=
  Saving.prepare_keeps (P := fun s => s.usage.Reproducible questions) (h.begin supply)
    (fun slot _ _ hs _ => hs.collect u.pending slot) hok

end Usage

/-! ## Saving what is stored but for one slot -/

namespace Usage

/-- The usage without the ids of the steps in a slot. -/
def unnumbered (slot : Nat) (u : Usage ν) : Usage ν := u.mapSlot slot Attempt.unnumbered

/-- Two changes of an attempt that stays in its slot are one change. -/
lemma mapSlot_mapSlot (slot : Nat) {f : Attempt ν → Attempt ν} (g : Attempt ν → Attempt ν)
    (hf : ∀ a : Attempt ν, (f a).slot = a.slot) (u : Usage ν) :
    (u.mapSlot slot f).mapSlot slot g = u.mapSlot slot (g ∘ f) := by
  simp only [mapSlot, SortedMap.map_map]
  congr 2
  funext a
  by_cases hslot : a.slot = slot <;> simp [hslot, hf]

/-- In a sound usage the attempt in a slot is changed by putting in another. -/
lemma Sound.insert_eq_map {u : Usage ν} (hu : u.Sound) {slot : Nat} {a : Attempt ν}
    (ha : u.attempts.get? slot = some a) (f : Attempt ν → Attempt ν) :
    { u with attempts := u.attempts.insert slot (f a) } = u.mapSlot slot f := by
  have hattempts : u.attempts.insert slot (f a) =
      u.attempts.map fun a => if a.slot == slot then f a else a := by
    apply SortedMap.ext_get?
    intro slot'
    rw [SortedMap.get?_map, SortedMap.get?_insert]
    split
    · rename_i heq
      simp [heq, ha, hu.slot ha]
    · rename_i hne
      cases hb : u.attempts.get? slot' with
      | none => rfl
      | some b => simp [hu.slot hb, hne]
  rw [hattempts, mapSlot]

/-- In a slot that is not in use nothing is changed. -/
lemma Sound.mapSlot_of_none {u : Usage ν} (hu : u.Sound) {slot : Nat}
    (hnone : u.attempts.get? slot = none) (f : Attempt ν → Attempt ν) : u.mapSlot slot f = u := by
  have hattempts : (u.attempts.map fun a => if a.slot == slot then f a else a) = u.attempts := by
    apply SortedMap.ext_get?
    intro slot'
    rw [SortedMap.get?_map]
    cases hb : u.attempts.get? slot' with
    | none => rfl
    | some b =>
      have hne : b.slot ≠ slot := fun heq => by
        rw [← heq, hu.slot hb, hb] at hnone
        cases hnone
      simp [hne]
  rw [mapSlot, hattempts]

/-- A load does not look at the ids of steps. -/
lemma reloaded_unnumbered (slot : Nat) (u : Usage ν) :
    u.reloaded.unnumbered slot = (u.unnumbered slot).reloaded := by
  simp only [unnumbered, mapSlot, reloaded, SortedMap.map_map]
  congr 2
  funext a
  by_cases hslot : a.slot = slot <;> simp [Attempt.reloaded, Attempt.unnumbered, hslot]

end Usage

/-- A usage whose attempts are started and stored, but for the steps in one slot, which may have no
ids. -/
structure Usage.StoredBut (slot : Nat) (u : Usage ν) : Prop where
  sound : u.Sound
  started : ∀ {slot' a}, u.attempts.get? slot' = some a → a.behaviour.isSome = true
  attempt : ∀ {slot' a}, u.attempts.get? slot' = some a → a.id.isSome = true
  steps : ∀ {slot' a}, u.attempts.get? slot' = some a → slot' ≠ slot →
    ∀ step ∈ a.steps, step.id.isSome = true

/-- An attempt is numbered in a usage that is stored but for the steps in one slot: this changes nothing
but the ids of these steps. -/
lemma Usage.StoredBut.numbered {u : Usage ν} {slot : Nat} (h : u.StoredBut slot) {slot' : Nat}
    {a : Attempt ν} (ha : u.attempts.get? slot' = some a) (supply : Supply)
    (hsound : Sound { u with attempts := u.attempts.insert slot' (a.numbered supply) }) :
    StoredBut slot { u with attempts := u.attempts.insert slot' (a.numbered supply) } ∧
      unnumbered slot { u with attempts := u.attempts.insert slot' (a.numbered supply) } =
        u.unnumbered slot := by
  have hstarted := h.started ha
  have hid := h.attempt ha
  refine ⟨⟨hsound, fun {k b} hb => ?_, fun {k b} hb => ?_, fun {k b} hb hne => ?_⟩, ?_⟩
  · obtain ⟨-, rfl⟩ | ⟨-, hb⟩ := SortedMap.get?_insert_cases hb
    · exact hstarted
    · exact h.started hb
  · obtain ⟨-, rfl⟩ | ⟨-, hb⟩ := SortedMap.get?_insert_cases hb
    · rfl
    · exact h.attempt hb
  · obtain ⟨-, rfl⟩ | ⟨-, hb⟩ := SortedMap.get?_insert_cases hb
    · exact Attempt.isSome_of_mem_assignStepIds
    · exact h.steps hb hne
  · have hattempts : (u.attempts.insert slot' (a.numbered supply)).map
        (fun a => if a.slot == slot then a.unnumbered else a) =
        u.attempts.map fun a => if a.slot == slot then a.unnumbered else a := by
      apply SortedMap.ext_get?
      intro k
      rw [SortedMap.get?_map, SortedMap.get?_map, SortedMap.get?_insert]
      split
      · -- in the slot ids are left out, and elsewhere there are none to give
        rename_i hk
        have hslot := h.sound.slot ha
        rw [hk, ha, Option.map_some, Option.map_some]
        by_cases heq : slot' = slot
        · rw [if_pos (by simpa [Attempt.numbered, hslot] using heq),
            if_pos (by simpa [hslot] using heq), Attempt.unnumbered_numbered hid]
        · rw [Attempt.IsNumbered.numbered_eq ⟨hid, h.steps ha heq⟩]
      · rfl
    exact congrArg (fun attempts => { u with attempts := attempts }) hattempts

namespace Saving

/-- A save under way has changed nothing but the ids of the steps in one slot. -/
structure Renumbers (u : Usage ν) (slot : Nat) (s : Saving ν) : Prop where
  stored : s.usage.StoredBut slot
  same : s.usage.unnumbered slot = u.unnumbered slot

lemma Renumbers.collect {u : Usage ν} {slot : Nat} {s : Saving ν} (h : s.Renumbers u slot)
    (taken : Option Changes) (slot' : Nat) :
    (Saving.collect taken slot' s).result = .ok () ∧
      (Saving.collect taken slot' s).state.Renumbers u slot := by
  cases ha : s.usage.attempts.get? slot' with
  | none =>
    rw [collect_of_none ha]
    exact ⟨rfl, h⟩
  | some a =>
    obtain ⟨row, hrow⟩ := Attempt.exists_toRow_numbered (h.stored.sound.attempt ha)
      (h.stored.started ha) s.supply a.question.id
    have hsound := h.stored.sound.collect taken slot'
    rw [collect_of_some ha, hrow] at hsound ⊢
    obtain ⟨hstored, hsame⟩ := h.stored.numbered ha s.supply hsound
    exact ⟨rfl, hstored, hsame.trans h.same⟩

end Saving

namespace Usage

/-- A usage that is stored but for the steps in one slot is saved without fail, and stays as it is but
for the ids of these steps. -/
theorem StoredBut.prepare {u : Usage ν} {slot : Nat} (h : u.StoredBut slot) {usageId : String}
    (hid : u.id = .stored usageId) (supply : Supply) :
    ∃ plan, (Usage.prepare (u, supply)).result = .ok plan ∧
      (Usage.prepare (u, supply)).state.1.unnumbered slot =
        { u.unnumbered slot with pending := u.pending.map fun _ => Changes.none } := by
  have hbegin : (Saving.begin u supply).Renumbers
      { u with pending := u.pending.map fun _ => Changes.none } slot := by
    rw [Saving.begin_of_stored hid]
    exact ⟨⟨h.sound.withPending (by simp), h.started, h.attempt, h.steps⟩, rfl⟩
  obtain ⟨hok, hstate⟩ := Op.forEach_succeeds
    (P := fun s : Saving ν =>
      s.Renumbers { u with pending := u.pending.map fun _ => Changes.none } slot)
    (f := Saving.collect u.pending) (l := u.slots)
    (fun slot' _ s hs => hs.collect u.pending slot') hbegin
  unfold Usage.prepare
  simp only [hok]
  exact ⟨_, rfl, hstate.same⟩

/-- Only started attempts are stored. -/
lemma Saved.started {u : Usage ν} {t : Tables ν} (h : u.Saved t) {slot : Nat} {a : Attempt ν}
    (ha : u.attempts.get? slot = some a) : a.behaviour.isSome = true := by
  obtain ⟨row, htoRow, -⟩ := h.exists_row ha
  obtain ⟨_, _, _, hbehaviour, -⟩ := Attempt.of_toRow htoRow
  simp [hbehaviour]

/-- A saved usage with the attempt in a slot changed is stored but for the steps in this slot. -/
lemma Saved.storedBut {u : Usage ν} {t : Tables ν} (h : u.Saved t) (slot : Nat)
    {f : Attempt ν → Attempt ν} (hid : ∀ a : Attempt ν, (f a).id = a.id)
    (hb : ∀ a : Attempt ν, (f a).behaviour = a.behaviour) {pending : Option Changes}
    (hsound : Sound { u.mapSlot slot f with pending := pending }) :
    StoredBut slot { u.mapSlot slot f with pending := pending } := by
  have key : ∀ {slot' b}, (u.mapSlot slot f).attempts.get? slot' = some b →
      ∃ a, u.attempts.get? slot' = some a ∧ (if a.slot == slot then f a else a) = b := by
    intro slot' b hb
    rw [mapSlot, SortedMap.get?_map] at hb
    exact Option.map_eq_some_iff.1 hb
  refine ⟨hsound, fun hb' => ?_, fun hb' => ?_, fun hb' hne => ?_⟩
  · obtain ⟨a, ha, rfl⟩ := key hb'
    have hstarted := h.started ha
    split
    · exact (congrArg Option.isSome (hb a)).trans hstarted
    · exact hstarted
  · obtain ⟨a, ha, rfl⟩ := key hb'
    have hsome := (h.numbered ha).1
    split
    · exact (congrArg Option.isSome (hid a)).trans hsome
    · exact hsome
  · obtain ⟨a, ha, rfl⟩ := key hb'
    have hslot : (a.slot == slot) = false := by simpa [h.sound.slot ha] using hne
    rw [hslot]
    exact (h.numbered ha).2

end Usage
end Assessment
