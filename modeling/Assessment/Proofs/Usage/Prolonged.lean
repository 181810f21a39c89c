import Assessment.Proofs.Usage.Batch

/-!
# What a batch adds

Processing a batch adds steps and takes none away.  An attempt is *prolonged* (`Attempt.Prolonged`) when
it goes by the same id and steps without ids have come after those that it had; a batch that succeeds
prolongs the attempts of the usage, and it adds steps only in the slots that it processes
(`Usage.prolonged_submit`).

Where a page says how many steps it was rendered for, this is what the attempt had
(`Usage.length_of_sequenceCheck`).
-/

namespace Assessment

variable {ν : Type}

namespace Attempt

/-- An attempt later on: steps without ids have come after those that it had. -/
structure Prolonged (a a' : Attempt ν) : Prop where
  id : a'.id = a.id
  steps : ∃ later : List (Step ν), a'.steps = a.steps ++ later ∧ ∀ step ∈ later, step.id = none

namespace Prolonged

variable {a a' : Attempt ν}

lemma refl (a : Attempt ν) : a.Prolonged a := ⟨rfl, [], by simp, by simp⟩

lemma length_le (h : a.Prolonged a') : a.steps.length ≤ a'.steps.length := by
  obtain ⟨later, hlater, -⟩ := h.steps
  simp [hlater]

lemma setFlag (h : a.Prolonged a') (flagged : Bool) :
    a.Prolonged (Attempt.setFlag flagged a').state := by
  unfold Attempt.setFlag
  split
  · exact h
  · exact ⟨h.id, h.steps⟩

lemma act [Scalar ν] (h : a.Prolonged a') (vars : Vars) (time : Instant) (actor : Option String) :
    a.Prolonged (Attempt.act vars time actor a').state := by
  obtain ⟨hsame, -⟩ | ⟨b, d, -, -, hstate, -⟩ := act_cases a' vars time actor
  · rwa [hsame]
  · obtain ⟨later, hlater, hids⟩ := h.steps
    rw [hstate]
    refine ⟨h.id, later ++ [d.record], by simp [keep, record, hlater], fun step hstep => ?_⟩
    rcases List.mem_append.1 hstep with hstep | hstep
    · exact hids step hstep
    · obtain rfl := List.mem_singleton.1 hstep
      rfl

end Prolonged
end Attempt

namespace Usage

/-- A usage later on: its attempts are prolonged, and those that steps were added to are in some
slots. -/
structure Prolonged (slots : List Nat) (u u' : Usage ν) : Prop where
  id : u'.id = u.id
  attempts : u.attempts.Matches Attempt.Prolonged u'.attempts
  others : ∀ slot, slot ∉ slots →
    (u'.attempts.get? slot).map Attempt.steps = (u.attempts.get? slot).map Attempt.steps

/-- Steps were added to the attempt in a slot. -/
def GrowsIn (slot : Nat) (u u' : Usage ν) : Prop :=
  ∃ a a', u.attempts.get? slot = some a ∧ u'.attempts.get? slot = some a' ∧
    a.steps.length < a'.steps.length

lemma growsIn_of_lengths {slot m n : Nat} {u u' : Usage ν} (hlt : m < n)
    (h : (u.attempts.get? slot).map (fun a => a.steps.length) = some m)
    (h' : (u'.attempts.get? slot).map (fun a => a.steps.length) = some n) : u.GrowsIn slot u' := by
  obtain ⟨a, ha, rfl⟩ := Option.map_eq_some_iff.1 h
  obtain ⟨a', ha', rfl⟩ := Option.map_eq_some_iff.1 h'
  exact ⟨a, a', ha, ha', hlt⟩

namespace Prolonged

variable {slots : List Nat} {u u' : Usage ν}

lemma refl (slots : List Nat) (u : Usage ν) : u.Prolonged slots u where
  id := rfl
  attempts := .refl Attempt.Prolonged.refl _
  others := fun _ _ => rfl

/-- Steps are added only in the slots. -/
lemma mem_of_growsIn (h : u.Prolonged slots u') {slot : Nat} (hgrows : u.GrowsIn slot u') :
    slot ∈ slots := by
  obtain ⟨a, a', ha, ha', hlt⟩ := hgrows
  by_contra hslot
  have hsame := h.others slot hslot
  rw [ha, ha', Option.map_some, Option.map_some, Option.some.injEq] at hsame
  exact absurd hsame fun heq => by simp [heq] at hlt

/-- An operation on a slot prolongs the attempt there, and adds steps if the slot is one of those. -/
lemma onSlot {α : Type} (h : u.Prolonged slots u') {slot : Nat} {op : Op Fault (Attempt ν) α}
    (hop : ∀ a a' : Attempt ν, a.Prolonged a' → a.Prolonged (op a').state)
    (hothers : slot ∉ slots → ∀ a : Attempt ν, (op a).state.steps = a.steps) :
    u.Prolonged slots (onSlot slot op u').state := by
  unfold Usage.onSlot
  cases ha' : u'.attempts.get? slot with
  | none => exact h
  | some a' =>
    obtain ⟨a, ha, hprolonged⟩ := h.attempts.of_get?_eq_some ha'
    refine ⟨h.id, h.attempts.insert ha (hop a a' hprolonged), fun slot' hslot' => ?_⟩
    simp only [noting, SortedMap.get?_insert]
    split
    · rename_i heq
      subst heq
      rw [← h.others slot' hslot', ha', Option.map_some, Option.map_some, hothers hslot' a']
    · exact h.others slot' hslot'

lemma setFlag (h : u.Prolonged slots u') (slot : Nat) (flagged : Bool) :
    u.Prolonged slots (Usage.setFlag slot flagged u').state := by
  refine h.onSlot (fun _ _ hprolonged => hprolonged.setFlag flagged) fun _ a => ?_
  unfold Attempt.setFlag
  split <;> rfl

variable [Scalar ν]

lemma act (h : u.Prolonged slots u') {slot : Nat} (hslot : slot ∈ slots) (vars : Vars)
    (time : Instant) (actor : Option String) :
    u.Prolonged slots (Usage.act slot vars time actor u').state :=
  h.onSlot (fun _ _ hprolonged => hprolonged.act vars time actor) fun hnot => absurd hslot hnot

end Prolonged

variable [Scalar ν]

/-- A batch that succeeds was accepted, and it prolongs the attempts in the slots that it processes. -/
theorem prolonged_submit {u : Usage ν} {batch : Batch} {time : Instant} {actor : Option String}
    (h : (submit batch time actor u).result = .ok ()) :
    u.Accepts batch ∧ u.Prolonged (u.slotsOf batch) (submit batch time actor u).state := by
  obtain ⟨hstate, haccepts⟩ := checkBatch_spec batch u
  have hsubmit : submit batch time actor u =
      Op.bind (checkBatch batch) (fun _ => process batch time actor (u.slotsOf batch)) u := rfl
  rw [hsubmit] at h ⊢
  cases hc : (checkBatch batch u).result with
  | error e =>
    rw [Op.bind_of_error hc] at h
    cases h
  | ok _ =>
    rw [Op.bind_of_ok hc, hstate]
    refine ⟨haccepts.1 hc, Op.bind_keeps (P := u.Prolonged (u.slotsOf batch)) ?_ fun _ hslots => ?_⟩
    · refine Op.forEach_keeps (fun slot hslot s hs => ?_) (.refl _ u)
      rw [submitSlot_state]
      exact hs.act hslot _ time actor
    · exact Op.forEach_keeps (fun flag _ s hs => hs.setFlag flag.1 flag.2) hslots

/-- Where steps were added, the attempt had as many before as the page says that it was rendered for. -/
lemma length_of_sequenceCheck {u : Usage ν} {batch : Batch} {time : Instant}
    {actor : Option String} (h : (submit batch time actor u).result = .ok ()) {slot n : Nat}
    (hcheck : (batch.submission slot).sequenceCheck = some n)
    (hgrows : u.GrowsIn slot (submit batch time actor u).state) {a : Attempt ν}
    (ha : u.attempts.get? slot = some a) : a.steps.length = n := by
  obtain ⟨haccepts, hprolonged⟩ := prolonged_submit h
  obtain ⟨a', ha', -, hlength⟩ := haccepts.slots slot (hprolonged.mem_of_growsIn hgrows)
  obtain rfl := Option.some.inj (ha.symm.trans ha')
  exact hlength n hcheck

end Usage
end Assessment
