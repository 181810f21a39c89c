import Assessment.Proofs.Store.Issue
import Assessment.Proofs.Usage.Notices

/-!
# Stored rows mirror a usage

`Mirrors u stale t` says what the tables hold of a stored usage between two saves.  An attempt that
has an id has one row, the steps that have ids are its stored steps in order, and each of them has
its variables stored; no other attempt's rows are under the usage's name.  What has changed since the
last save may be out of date, and `stale` says where: the rows of some attempts, the steps of attempts
that are replayed, and the row of the usage.

A stored usage keeps track of its changes, and what its changes do not tell of is mirrored
(`Tracks`).  What a step of an operation does to rows is said once (`Usage.Change`), and a change keeps
the mirror with the notices that it sends (`Tracks.change`).  Nothing else has to be known about the
operations.
-/

namespace Assessment

variable {ν : Type}

/-! ## Looking at the tables -/

namespace Tables

/-- The rows of the attempts with an id. -/
def attemptsWith (t : Tables ν) (id : String) : List (AttemptRow ν) :=
  t.attempts.filter fun r => r.id == id

/-- The stored steps of an attempt. -/
def stepsOf (t : Tables ν) (attemptId : String) : List (StepRow ν) :=
  t.steps.filter fun r => r.attemptId == attemptId

/-- The stored variables of a step. -/
def varsOf (t : Tables ν) (stepId : String) : List VarRow :=
  t.vars.filter fun r => r.stepId == stepId

lemma mem_attemptsWith {t : Tables ν} {id : String} {r : AttemptRow ν} :
    r ∈ t.attemptsWith id ↔ r ∈ t.attempts ∧ r.id = id := by
  simp [attemptsWith]

lemma mem_stepsOf {t : Tables ν} {attemptId : String} {r : StepRow ν} :
    r ∈ t.stepsOf attemptId ↔ r ∈ t.steps ∧ r.attemptId = attemptId := by
  simp [stepsOf]
end Tables

/-! ## What is out of date -/

/-- Where stored rows may differ from a usage. -/
structure Stale where
  /-- The row of the usage itself. -/
  usage : Prop
  /-- The row of the attempt in a slot. -/
  row : Nat → Prop
  /-- The stored steps of the attempt in a slot, all of them. -/
  steps : Nat → Prop

/-- What is out of date when some changes are not saved. -/
def Changes.stale (c : Changes) : Stale where
  usage := c.usageModified = true
  row slot := c.slotsToUpdate.has slot = true
  steps slot := c.stepsDeleted.has slot = true

/-! ## The mirror -/

namespace Attempt

/-- The rows of the steps that have ids. -/
def stepRows (a : Attempt ν) (id : String) : List (StepRow ν) :=
  (withIds 0 a.steps).map fun e => stepRow id e.1 e.2.1 e.2.2

/-- What the tables hold of the attempt in a slot. -/
structure Mirrored (a : Attempt ν) (slot : Nat) (stale : Stale) (t : Tables ν) : Prop where
  inOrder : a.InOrder
  replayed : stale.steps slot → ∀ step ∈ a.steps, step.id = none
  row : ∀ id, a.id = some id → ∃ r, t.attemptsWith id = [r] ∧
    (¬ stale.row slot → a.toRow a.question.id = .ok r)
  steps : ∀ id, a.id = some id → ¬ stale.steps slot → t.stepsOf id = a.stepRows id
  -- no other attempt has a step of the same id
  owner : ∀ id, a.id = some id → ∀ r ∈ t.steps, r.attemptId = id → ∀ r' ∈ t.steps, r'.id = r.id →
    r'.attemptId = id
  vars : ∀ step ∈ a.steps, ∀ id, step.id = some id → t.varsOf id = varRows id step

end Attempt

/-- What the tables hold of a stored usage. -/
structure Mirrors (u : Usage ν) (stale : Stale) (t : Tables ν) : Prop where
  usage : ¬ stale.usage → t.usages.find? (fun r => r.id == u.id.text) = some u.toRow
  owned : ∀ r ∈ t.attempts, r.usageId = u.id.text →
    ∃ slot a, u.attempts.get? slot = some a ∧ a.id = some r.id
  distinct : ∀ {slot slot' a a' id}, u.attempts.get? slot = some a → u.attempts.get? slot' = some a' →
    a.id = some id → a'.id = some id → slot = slot'
  attempts : ∀ {slot a}, u.attempts.get? slot = some a → a.Mirrored slot stale t

namespace Attempt

/-! ## Attempts in order -/

lemma inOrder_of_none {a : Attempt ν} (h : ∀ step ∈ a.steps, step.id = none) : a.InOrder where
  split := ⟨[], a.steps, rfl, by simp, h⟩
  nodup := by
    have hnil : a.steps.filterMap Step.id = [] := List.filterMap_eq_nil_iff.2 h
    rw [hnil]
    exact List.nodup_nil
  unsaved := fun _ => h

/-- A step without an id goes after the others. -/
lemma InOrder.append {a a' : Attempt ν} (h : a.InOrder) (hid : a'.id = a.id) {step : Step ν}
    (hsteps : a'.steps = a.steps ++ [step]) (hstep : step.id = none) : a'.InOrder := by
  obtain ⟨old, new, hsplit, hold, hnew⟩ := h.split
  refine ⟨⟨old, new ++ [step], by rw [hsteps, hsplit, List.append_assoc], hold, ?_⟩, ?_, ?_⟩
  · intro s hs
    rcases List.mem_append.1 hs with hs | hs
    · exact hnew s hs
    · rwa [List.mem_singleton.1 hs]
  · simpa [hsteps, hstep] using h.nodup
  · intro hnone s hs
    rw [hsteps] at hs
    rcases List.mem_append.1 hs with hs | hs
    · exact h.unsaved (hid ▸ hnone) s hs
    · rwa [List.mem_singleton.1 hs]

lemma stepRows_append {a a' : Attempt ν} {step : Step ν} (hsteps : a'.steps = a.steps ++ [step])
    (hstep : step.id = none) (id : String) : a'.stepRows id = a.stepRows id := by
  have hnew : ∀ s ∈ [step], s.id = none := by simpa using hstep
  rw [stepRows, hsteps, withIds_append, withIds_of_none hnew, List.append_nil, stepRows]

/-- An attempt without an id has nothing in the tables. -/
lemma Mirrored.of_unsaved {a : Attempt ν} (ha : a.InOrder) (hid : a.id = none) (slot : Nat)
    (stale : Stale) (t : Tables ν) : a.Mirrored slot stale t where
  inOrder := ha
  replayed := fun _ => ha.unsaved hid
  row := fun id h => by rw [hid] at h; cases h
  steps := fun id h => by rw [hid] at h; cases h
  owner := fun id h => by rw [hid] at h; cases h
  vars := fun step hstep id h => by rw [ha.unsaved hid step hstep] at h; cases h

end Attempt

/-! ## Notices -/

namespace Changes

/-- Two states of the changes that say the same of a slot. -/
structure SameAt (c c' : Changes) (slot : Nat) : Prop where
  added : c'.attemptsAdded.has slot = c.attemptsAdded.has slot
  row : c'.stale.row slot ↔ c.stale.row slot
  steps : c'.stale.steps slot ↔ c.stale.steps slot

lemma SameAt.of_ofSlot {c c' : Changes} {slot : Nat} (h : c'.ofSlot slot = c.ofSlot slot) :
    c.SameAt c' slot where
  added := congrArg SlotChanges.added h
  row := by
    have hrow : ∀ c : Changes, c.stale.row slot ↔
        ((c.ofSlot slot).modified = true ∨ (c.ofSlot slot).deleted = true ∨
          ∃ index, (c.ofSlot slot).steps index = true) ∧ (c.ofSlot slot).added = false :=
      fun c => c.has_slotsToUpdate slot
    rw [hrow, hrow, h]
  steps := Bool.eq_iff_iff.1 (congrArg SlotChanges.deleted h)

/-- A notice says nothing of other slots. -/
lemma note_sameAt (c : Changes) {n : Notice} {slot : Nat} (h : n.slot? ≠ some slot) :
    c.SameAt (c.note n) slot :=
  .of_ofSlot (by rw [ofSlot_note, if_neg h])

/-- A notice about an attempt that is stored makes its row stale, and its steps if it says so. -/
lemma note_marks {c : Changes} {n : Notice} {slot : Nat} (hslot : n.slot? = some slot)
    (hn : n ≠ .attemptAdded slot) (hadded : c.attemptsAdded.has slot = false) :
    (c.note n).attemptsAdded.has slot = false ∧ (c.note n).stale.row slot ∧
      ((c.note n).stale.steps slot ↔ n = .stepsDeleted slot ∨ c.stale.steps slot) := by
  cases n with
  | usageModified => cases hslot
  | attemptAdded s =>
    obtain rfl := Option.some.inj hslot
    exact absurd rfl hn
  | attemptModified s =>
    obtain rfl := Option.some.inj hslot
    simp [note, stale, has_slotsToUpdate, hadded]
  | stepsDeleted s =>
    obtain rfl := Option.some.inj hslot
    simp [note, stale, has_slotsToUpdate, hadded]
  | stepAdded s index =>
    obtain rfl := Option.some.inj hslot
    have hplace : ∃ i, (c.stepsAdded.add ⟨s, index⟩).has ⟨s, i⟩ = true := ⟨index, by simp⟩
    simp [note, stale, has_slotsToUpdate, hadded, -SortedSet.has_add, hplace]

lemma noteAll_sameAt (c : Changes) {notices : List Notice} {slot : Nat}
    (h : ∀ n ∈ notices, n.slot? ≠ some slot) : c.SameAt (notices.foldl note c) slot :=
  .of_ofSlot (c.ofSlot_foldl_of_ne h)

/-- Notices about an attempt that is stored. -/
lemma noteAll_marks {c : Changes} {notices : List Notice} {slot : Nat}
    (hslot : ∀ n ∈ notices, n.slot? = some slot ∧ n ≠ .attemptAdded slot)
    (hadded : c.attemptsAdded.has slot = false) (hne : notices ≠ []) :
    (notices.foldl note c).attemptsAdded.has slot = false ∧ (notices.foldl note c).stale.row slot ∧
      ((notices.foldl note c).stale.steps slot ↔
        .stepsDeleted slot ∈ notices ∨ c.stale.steps slot) := by
  induction notices generalizing c with
  | nil => exact absurd rfl hne
  | cons n rest ih =>
    obtain ⟨hn, hnotAdded⟩ := hslot n List.mem_cons_self
    obtain ⟨hadded', hrow, hsteps⟩ := note_marks hn hnotAdded hadded
    rw [List.foldl_cons, List.mem_cons, eq_comm (a := Notice.stepsDeleted slot)]
    by_cases hrest : rest = []
    · subst hrest
      exact ⟨hadded', hrow, by simpa using hsteps⟩
    · obtain ⟨hadded'', hrow', hsteps'⟩ :=
        ih (fun m hm => hslot m (List.mem_cons_of_mem _ hm)) hadded' hrest
      refine ⟨hadded'', hrow', ?_⟩
      rw [hsteps', hsteps, or_left_comm, or_assoc]

/-- Notices about attempts say nothing of the usage itself. -/
lemma noteAll_usageModified {c : Changes} {notices : List Notice}
    (h : ∀ n ∈ notices, n ≠ .usageModified) :
    (notices.foldl note c).usageModified = c.usageModified := by
  induction notices generalizing c with
  | nil => rfl
  | cons n rest ih =>
    have hn : (c.note n).usageModified = c.usageModified := by
      cases n with
      | usageModified => exact absurd rfl (h _ List.mem_cons_self)
      | attemptAdded s => rfl
      | attemptModified s => simp only [note]; split <;> rfl
      | stepsDeleted s => simp only [note]; split <;> rfl
      | stepAdded s index => simp only [note]; split <;> rfl
    rw [List.foldl_cons, ih fun m hm => h m (List.mem_cons_of_mem _ hm), hn]

end Changes

/-! ## Steps keep the mirror -/

/-- What is known of an attempt does not depend on what is stale elsewhere. -/
lemma Attempt.Mirrored.congr {a : Attempt ν} {slot : Nat} {stale stale' : Stale} {t : Tables ν}
    (h : a.Mirrored slot stale t) (hrow : stale'.row slot ↔ stale.row slot)
    (hsteps : stale'.steps slot ↔ stale.steps slot) : a.Mirrored slot stale' t where
  inOrder := h.inOrder
  replayed := fun hs => h.replayed (hsteps.1 hs)
  row := fun id hid =>
    let ⟨r, hr, hrow'⟩ := h.row id hid
    ⟨r, hr, fun hs => hrow' fun hs' => hs (hrow.2 hs')⟩
  steps := fun id hid hs => h.steps id hid fun hs' => hs (hsteps.2 hs')
  owner := h.owner
  vars := h.vars

/-- An attempt with the same id is known of as much: it is replayed and has no step with an id, or it
has the steps with ids that the other had. -/
lemma Attempt.Mirrored.inPlaceOf {a a' : Attempt ν} {slot : Nat} {stale stale' : Stale}
    {t : Tables ν} {replayed : Prop} (h : a.Mirrored slot stale t) (hid : a'.id = a.id)
    (horder : a'.InOrder) (hrow : stale'.row slot)
    (hstale : stale'.steps slot ↔ replayed ∨ stale.steps slot)
    (hsteps : (replayed ∧ ∀ step ∈ a'.steps, step.id = none) ∨
      ¬ replayed ∧ (∀ id, a'.stepRows id = a.stepRows id) ∧
        ∀ step ∈ a'.steps, step.id ≠ none → step ∈ a.steps) : a'.Mirrored slot stale' t where
  inOrder := horder
  replayed := by
    intro hs step hstep
    obtain ⟨-, hnone⟩ | ⟨hnot, -, hsame⟩ := hsteps
    · exact hnone step hstep
    · by_contra hstepId
      exact hstepId (h.replayed ((hstale.1 hs).resolve_left hnot) step (hsame step hstep hstepId))
  row := by
    intro id hid'
    obtain ⟨r, hr, -⟩ := h.row id (hid ▸ hid')
    exact ⟨r, hr, fun hs => absurd hrow hs⟩
  steps := by
    intro id hid' hs
    obtain ⟨hreplayed, -⟩ | ⟨-, hrows, -⟩ := hsteps
    · exact absurd (hstale.2 (.inl hreplayed)) hs
    · rw [hrows id, h.steps id (hid ▸ hid') fun hs' => hs (hstale.2 (.inr hs'))]
  owner := fun id hid' => h.owner id (hid ▸ hid')
  vars := by
    intro step hstep id hid'
    obtain ⟨-, hnone⟩ | ⟨-, -, hsame⟩ := hsteps
    · rw [hnone step hstep] at hid'
      cases hid'
    · exact h.vars step (hsame step hstep (by simp [hid'])) id hid'

namespace Mirrors

variable {u : Usage ν} {t : Tables ν}

/-- An attempt takes the place of one with the same id. -/
lemma put {stale stale' : Stale} (h : Mirrors u stale t) {slot : Nat} {a a' : Attempt ν}
    (ha : u.attempts.get? slot = some a) (hid : a'.id = a.id) (hu : stale'.usage ↔ stale.usage)
    (hrow : ∀ slot', slot' ≠ slot → (stale'.row slot' ↔ stale.row slot'))
    (hsteps : ∀ slot', slot' ≠ slot → (stale'.steps slot' ↔ stale.steps slot'))
    (ha' : a'.Mirrored slot stale' t) (pending : Option Changes) :
    Mirrors { u with attempts := u.attempts.insert slot a', pending := pending } stale' t := by
  have hback : ∀ {slot' b}, (u.attempts.insert slot a').get? slot' = some b →
      ∃ b', u.attempts.get? slot' = some b' ∧ b.id = b'.id := by
    intro slot' b hb
    obtain ⟨rfl, rfl⟩ | ⟨-, hb⟩ := SortedMap.get?_insert_cases hb
    · exact ⟨a, ha, hid⟩
    · exact ⟨b, hb, rfl⟩
  refine ⟨fun hs => h.usage fun hs' => hs (hu.2 hs'), fun r hr hrid => ?_, ?_, ?_⟩
  · obtain ⟨slot', b, hb, hbid⟩ := h.owned r hr hrid
    by_cases heq : slot' = slot
    · subst heq
      rw [ha] at hb
      cases hb
      exact ⟨slot', a', SortedMap.get?_insert_self _ _ _, hid.trans hbid⟩
    · exact ⟨slot', b, (SortedMap.get?_insert_of_ne _ heq _).trans hb, hbid⟩
  · intro s s' b b' id hb hb' hbid hbid'
    obtain ⟨c, hc, hcid⟩ := hback hb
    obtain ⟨c', hc', hcid'⟩ := hback hb'
    exact h.distinct hc hc' (hcid ▸ hbid) (hcid' ▸ hbid')
  · intro slot' b hb
    obtain ⟨rfl, rfl⟩ | ⟨hne, hb⟩ := SortedMap.get?_insert_cases hb
    · exact ha'
    · exact (h.attempts hb).congr (hrow slot' hne) (hsteps slot' hne)

/-- The tables do not say who is told of changes. -/
lemma tracking {stale : Stale} (h : Mirrors u stale t) (pending : Option Changes) :
    Mirrors (u.tracking pending) stale t := by
  have hback : ∀ {slot a}, (u.tracking pending).attempts.get? slot = some a →
      ∃ b, u.attempts.get? slot = some b ∧ b.observedBy (u.tracking pending).observer = a :=
    fun ha => Option.map_eq_some_iff.1 ((u.get?_tracking pending _).symm.trans ha)
  refine ⟨h.usage, fun r hr hrid => ?_, fun ha ha' hid hid' => ?_, fun ha => ?_⟩
  · obtain ⟨slot, a, ha, hid⟩ := h.owned r hr hrid
    exact ⟨slot, _, (u.get?_tracking pending slot).trans (congrArg _ ha), hid⟩
  · obtain ⟨b, hb, rfl⟩ := hback ha
    obtain ⟨b', hb', rfl⟩ := hback ha'
    exact h.distinct hb hb' hid hid'
  · obtain ⟨b, hb, rfl⟩ := hback ha
    obtain ⟨horder, hreplayed, hrow, hsteps, howner, hvars⟩ := h.attempts hb
    exact ⟨⟨horder.split, horder.nodup, horder.unsaved⟩, hreplayed, hrow, hsteps, howner, hvars⟩

end Mirrors

/-- A stored usage keeps track of its changes, and the tables mirror it up to these.  A change of an
attempt that has an id is never lost as that of an added one. -/
structure Tracks (u : Usage ν) (c : Changes) (t : Tables ν) : Prop where
  pending : u.pending = some c
  stored : ∀ {slot a}, u.attempts.get? slot = some a → a.id.isSome = true →
    c.attemptsAdded.has slot = false
  mirrors : Mirrors u c.stale t

namespace Tracks

variable {u : Usage ν} {c : Changes} {t : Tables ν}

/-- An attempt takes the place of one with the same id, with notices that say whether it is
replayed. -/
lemma put (h : Tracks u c t) {slot : Nat} {a a' : Attempt ν} (ha : u.attempts.get? slot = some a)
    (ho : a'.observer = u.observer) (hid : a'.id = a.id) (horder : a'.InOrder) {notices : List Notice}
    (hslot : ∀ n ∈ notices, n.slot? = some slot ∧ n ≠ .attemptAdded slot) (hne : notices ≠ [])
    (hsteps : (.stepsDeleted slot ∈ notices ∧ ∀ step ∈ a'.steps, step.id = none) ∨
      .stepsDeleted slot ∉ notices ∧ (∀ id, a'.stepRows id = a.stepRows id) ∧
        ∀ step ∈ a'.steps, step.id ≠ none → step ∈ a.steps) :
    Tracks (u.put slot a' notices) (notices.foldl Changes.note c) t := by
  have hother : ∀ slot', slot' ≠ slot → c.SameAt (notices.foldl Changes.note c) slot' :=
    fun slot' hslot' => c.noteAll_sameAt fun n hn => by
      rw [(hslot n hn).1]
      exact fun heq => hslot' (Option.some.inj heq).symm
  have husage : (notices.foldl Changes.note c).usageModified = c.usageModified :=
    Changes.noteAll_usageModified fun n hn heq => by
      have := (hslot n hn).1
      rw [heq] at this
      cases this
  have ha' : a'.Mirrored slot (notices.foldl Changes.note c).stale t := by
    cases hsome : a.id with
    | none => exact .of_unsaved horder (hid.trans hsome) _ _ _
    | some id =>
      obtain ⟨-, hrow, hdeleted⟩ :=
        Changes.noteAll_marks hslot (h.stored ha (by simp [hsome])) hne
      exact (h.mirrors.attempts ha).inPlaceOf hid horder hrow hdeleted hsteps
  rw [Usage.put_of_observer ho]
  refine ⟨by simp [Usage.noted, h.pending], fun {slot' b} hb hbid => ?_, ?_⟩
  · by_cases heq : slot' = slot
    · subst heq
      have hb' : a' = b := by simpa [Usage.noted] using hb
      have hsome : a.id.isSome = true := by rwa [← hid, hb']
      exact (Changes.noteAll_marks hslot (h.stored ha hsome) hne).1
    · rw [(hother slot' heq).added]
      exact h.stored ((SortedMap.get?_insert_of_ne _ heq _).symm.trans hb) hbid
  · exact h.mirrors.put ha hid (by simp [Changes.stale, husage]) (fun s hs => (hother s hs).row)
      (fun s hs => (hother s hs).steps) ha' _

end Tracks

/-! ## The slots of a usage -/

/-- No slot after the last one is in use. -/
lemma Usage.get?_nextSlot [Scalar ν] (u : Usage ν) : u.attempts.get? u.nextSlot = none := by
  by_contra hsome
  obtain ⟨a, ha⟩ := Option.ne_none_iff_exists'.1 hsome
  have hmem : u.nextSlot ∈ u.attempts.keys := SortedMap.mem_keys_iff.2 ⟨a, ha⟩
  have hsorted : u.attempts.keys.Pairwise fun s s' => s < s' :=
    List.pairwise_map.2 (u.attempts.sorted.imp fun h => Nat.compare_eq_lt.1 h)
  unfold nextSlot SortedMap.lastKey? at hmem
  cases hlast : u.attempts.keys.getLast? with
  | none => simp [List.getLast?_eq_none_iff.1 hlast] at hmem
  | some last =>
    obtain ⟨init, hinit⟩ := List.getLast?_eq_some_iff.1 hlast
    rw [hlast, hinit] at hmem
    rw [hinit, List.pairwise_append] at hsorted
    simp only at hmem
    rcases List.mem_append.1 hmem with hmem | hmem
    · have := hsorted.2.2 _ hmem last List.mem_cons_self
      omega
    · have := List.mem_singleton.1 hmem
      omega

/-! ## What changes -/

/-- How an attempt may be replaced as far as its rows are concerned.  There are notices about the
attempt and about nothing else; its steps with ids stay, or all its steps are new and a notice says so.
A started attempt has steps. -/
structure Attempt.Change (slot : Nat) (a a' : Attempt ν) (notices : List Notice) : Prop where
  id : a'.id = a.id
  inOrder : a.InOrder → a'.InOrder
  about : ∀ n ∈ notices, n.slot? = some slot ∧ n ≠ .attemptAdded slot
  noticed : notices ≠ []
  steps : (.stepsDeleted slot ∈ notices ∧ ∀ step ∈ a'.steps, step.id = none) ∨
    .stepsDeleted slot ∉ notices ∧ (∀ id, a'.stepRows id = a.stepRows id) ∧
      ∀ step ∈ a'.steps, step.id ≠ none → step ∈ a.steps
  started : (a.behaviour.isSome = true → a.steps ≠ []) → a'.behaviour.isSome = true → a'.steps ≠ []

/-- The changes of a usage as far as its rows are concerned. -/
inductive Usage.Change [Scalar ν] (u : Usage ν) : Usage ν → Prop
  | put {slot : Nat} {a a' : Attempt ν} {notices : List Notice} (ha : u.attempts.get? slot = some a)
    (h : a.Change slot a' notices) (ho : a'.observer = u.observer) : Change u (u.put slot a' notices)
  | add {a : Attempt ν} (hid : a.id = none) (hsteps : a.steps = []) (hbehaviour : a.behaviour = none)
    (ho : a.observer = u.observer) : Change u (u.put u.nextSlot a [.attemptAdded u.nextSlot])
  | prefer (name : String) : Change u (({ u with preferred := name } : Usage ν).noted [.usageModified])

/-- A step of an operation is such a change. -/
theorem Usage.Step.change [Scalar ν] {u u' : Usage ν} (hs : u.Step u') (hu : u.Sound) :
    u.Change u' := by
  cases hs with
  | advance slot a a' notices ha hadvance =>
    have hslot := hu.slot ha
    obtain ⟨d, hd⟩ := hadvance.steps
    have hnotices : (∀ n ∈ notices, n.slot? = some slot ∧ n ≠ .attemptAdded slot) ∧ notices ≠ [] ∧
        .stepsDeleted slot ∉ notices := by
      cases hadvance <;> simp [Notice.slot?, hslot]
    refine .put ha ⟨hadvance.samePlace.id, fun horder => horder.append hadvance.samePlace.id hd rfl,
      hnotices.1, hnotices.2.1,
      .inr ⟨hnotices.2.2, Attempt.stepRows_append hd rfl, fun step hstep hid => ?_⟩, fun _ _ => ?_⟩
      (hadvance.observer.trans (hu.observer ha))
    · rw [hd] at hstep
      rcases List.mem_append.1 hstep with hstep | hstep
      · exact hstep
      · obtain rfl := List.mem_singleton.1 hstep
        exact absurd rfl hid
    · simp [hd]
  | flag slot a flagged ha =>
    have hslot := hu.slot ha
    have hobserver := hu.observer ha
    exact .put ha ⟨rfl, fun horder => ⟨horder.split, horder.nodup, horder.unsaved⟩,
      by simp [Notice.slot?, hslot], by simp,
      .inr ⟨by simp, fun _ => rfl, fun step hstep _ => hstep⟩, fun hstarted => hstarted⟩ hobserver
  | replay slot a a' maxMark draw ha hok ha' =>
    obtain ⟨hnew, hsteps⟩ := Usage.successor_replay hok
    rw [ha'] at hnew hsteps
    have hnone : ∀ step ∈ a'.steps, step.id = none := hnew.id_eq_none rfl
    exact .put ha ⟨hnew.place.id, fun _ => Attempt.inOrder_of_none hnone,
      fun n hn => Usage.slot?_of_mem_replacementNotices hn, by simp [Usage.replacementNotices],
      .inl ⟨by simp [Usage.replacementNotices], hnone⟩, fun _ _ => hsteps⟩ (by rw [← ha']; rfl)
  | add question maxMark => exact .add rfl rfl rfl rfl
  | prefer name b hb => exact .prefer name

namespace Tracks

variable [Scalar ν] {u u' : Usage ν} {t : Tables ν}

/-- A new attempt has no rows yet. -/
lemma add {c : Changes} (h : Tracks u c t) {a : Attempt ν} (haid : a.id = none)
    (hsteps : a.steps = []) (ho : a.observer = u.observer) :
    Tracks (u.put u.nextSlot a [.attemptAdded u.nextSlot]) (c.note (.attemptAdded u.nextSlot)) t := by
  have hother : ∀ slot, slot ≠ u.nextSlot → c.SameAt (c.note (.attemptAdded u.nextSlot)) slot :=
    fun slot hslot => c.note_sameAt fun heq => hslot (Option.some.inj heq).symm
  have hcases : ∀ {slot b}, (u.attempts.insert u.nextSlot a).get? slot = some b →
      (b.id = none ∧ b.steps = []) ∨ slot ≠ u.nextSlot ∧ u.attempts.get? slot = some b := by
    intro slot b hb
    obtain ⟨-, rfl⟩ | ⟨hne, hb⟩ := SortedMap.get?_insert_cases hb
    · exact .inl ⟨haid, hsteps⟩
    · exact .inr ⟨hne, hb⟩
  rw [Usage.put_of_observer ho]
  refine ⟨by simp [Usage.noted, h.pending], fun hb hid => ?_, ?_, ?_, ?_, ?_⟩
  · obtain ⟨hnone, -⟩ | ⟨hne, hb⟩ := hcases hb
    · simp [hnone] at hid
    · rw [(hother _ hne).added]
      exact h.stored hb hid
  · exact h.mirrors.usage
  · intro r hr hid
    obtain ⟨slot, b, hb, hbid⟩ := h.mirrors.owned r hr hid
    have hne : slot ≠ u.nextSlot := fun heq => by
      rw [heq, u.get?_nextSlot] at hb
      cases hb
    exact ⟨slot, b, (SortedMap.get?_insert_of_ne _ hne _).trans hb, hbid⟩
  · intro s s' b b' id hb hb' hid hid'
    obtain ⟨hnone, -⟩ | ⟨-, hb⟩ := hcases hb
    · rw [hnone] at hid
      cases hid
    · obtain ⟨hnone, -⟩ | ⟨-, hb'⟩ := hcases hb'
      · rw [hnone] at hid'
        cases hid'
      · exact h.mirrors.distinct hb hb' hid hid'
  · intro slot b hb
    obtain ⟨hnone, hnil⟩ | ⟨hne, hb⟩ := hcases hb
    · exact .of_unsaved (Attempt.inOrder_of_none (by simp [hnil])) hnone _ _ _
    · exact (h.mirrors.attempts hb).congr (hother slot hne).row (hother slot hne).steps

/-- A change keeps the mirror. -/
theorem change {c : Changes} (h : Tracks u c t) (hs : u.Change u') : ∃ c', Tracks u' c' t := by
  cases hs with
  | put ha hchange ho =>
    exact ⟨_, h.put ha ho hchange.id (hchange.inOrder (h.mirrors.attempts ha).inOrder) hchange.about
      hchange.noticed hchange.steps⟩
  | add hid hsteps _ ho => exact ⟨_, h.add hid hsteps ho⟩
  | prefer name =>
    refine ⟨c.note .usageModified, by simp [Usage.noted, h.pending], h.stored, ?_⟩
    have hmarked : (c.note .usageModified).stale.usage := rfl
    exact ⟨fun hs => absurd hmarked hs, h.mirrors.owned, h.mirrors.distinct,
      fun ha => (h.mirrors.attempts ha).congr Iff.rfl Iff.rfl⟩

end Tracks
end Assessment
