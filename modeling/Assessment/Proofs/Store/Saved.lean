import Assessment.Proofs.Attempt.Reproducible
import Assessment.Proofs.Store.OwnedWrite

/-!
# What happens to saved usages

A usage that is in the tables as it is (`Usage.Saved`) is a way to say what the tables hold of it.
This module says what becomes of the saved usage when something happens to the tables or to it.

A load gives back the usage with its behaviours made anew from their names (`Usage.reloaded`).  That
is an equation (`Usage.Saved.load_eq`), and the reloaded usage is saved as well.  Setting marks in the
tables sets them in the saved usage (`Usage.withMaxMark`), and what happens to another usage changes
nothing (`Mirrors.sameRows`).

In the first two cases the attempts keep their ids and steps and only what their rows say changes, so
one lemma carries the mirror over (`Attempt.Mirrored.withRow`).
-/

namespace Assessment

variable {ν : Type}

/-! ## Attempts as they are loaded and with other marks -/

namespace Attempt

/-- The attempt under the behaviour that is made for it when it is loaded, told of by the usage that it
is loaded into. -/
def reloaded (preferred : String) (a : Attempt ν) : Attempt ν :=
  { a with
    behaviour := a.behaviour.map fun b => Registry.standard.makeOrMissing b.name preferred
    observer := .changes }

/-- The attempt out of other marks. -/
def withMaxMark (m : ν) (a : Attempt ν) : Attempt ν := { a with maxMark := m }

/-- The row of an attempt knows its behaviour by the name. -/
lemma toRow_reloaded (a : Attempt ν) (preferred questionId : String) :
    (a.reloaded preferred).toRow questionId = a.toRow questionId := by
  unfold toRow reloaded
  cases a.id with
  | none => rfl
  | some id =>
    cases a.behaviour with
    | none => rfl
    | some b =>
      have hname := Registry.name_makeOrMissing b.name preferred
      cases a.minFraction <;> cases a.modified <;> simp [hname]

lemma toRow_withMaxMark {a : Attempt ν} {questionId : String} {row : AttemptRow ν}
    (h : a.toRow questionId = .ok row) (m : ν) :
    (a.withMaxMark m).toRow questionId = .ok { row with maxMark := m } := by
  obtain ⟨_, _, _, hbehaviour, hminFraction, hmodified, hid, hfields⟩ := of_toRow h
  rw [hfields]
  simp [toRow, withMaxMark, hbehaviour, hminFraction, hmodified, hid]

/-- An attempt that goes by the same ids as another and has its steps. -/
structure SameSteps (a a' : Attempt ν) : Prop where
  id : a'.id = a.id
  usageId : a'.usageId = a.usageId
  slot : a'.slot = a.slot
  steps : a'.steps = a.steps
  sound : a.Sound → a'.Sound

lemma SameSteps.refl (a : Attempt ν) : a.SameSteps a := ⟨rfl, rfl, rfl, rfl, fun ha => ha⟩

lemma sameSteps_reloaded (a : Attempt ν) (preferred : String) :
    a.SameSteps (a.reloaded preferred) where
  id := rfl
  usageId := rfl
  slot := rfl
  steps := rfl
  sound := fun ha => ⟨by simpa [reloaded] using ha.minFraction, by simpa [reloaded] using ha.modified,
    by simpa [reloaded] using ha.steps, ha.readOnly⟩

lemma sameSteps_withMaxMark (a : Attempt ν) (m : ν) : a.SameSteps (a.withMaxMark m) :=
  ⟨rfl, rfl, rfl, rfl, fun ha => ⟨ha.minFraction, ha.modified, ha.steps, ha.readOnly⟩⟩

/-- An attempt with the ids and steps of another is mirrored where its row takes the place of the
other's. -/
lemma Mirrored.withRow {a a' : Attempt ν} {slot : Nat} {stale : Stale} {t t' : Tables ν}
    (h : a.Mirrored slot stale t) (hsame : a.SameSteps a') (hsteps : t'.steps = t.steps)
    (hvars : t'.vars = t.vars) (hrow : ∀ id, a.id = some id → ∃ r, t'.attemptsWith id = [r] ∧
      (¬ stale.row slot → a'.toRow a'.question.id = .ok r)) : a'.Mirrored slot stale t' where
  inOrder := ⟨hsame.steps ▸ h.inOrder.split, hsame.steps ▸ h.inOrder.nodup,
    fun hnone => hsame.steps ▸ h.inOrder.unsaved (hsame.id ▸ hnone)⟩
  replayed := hsame.steps ▸ h.replayed
  row := fun id hid => hrow id (hsame.id ▸ hid)
  steps := by
    intro id hid hfresh
    rw [Tables.stepsOf, hsteps, stepRows, hsame.steps]
    exact h.steps id (hsame.id ▸ hid) hfresh
  owner := by
    rw [hsteps]
    exact fun id hid => h.owner id (hsame.id ▸ hid)
  vars := by
    rw [hsame.steps]
    unfold Tables.varsOf
    rw [hvars]
    exact h.vars

/-- Attempts that agree are equal but for their behaviours and their observers. -/
lemma Agrees.eq {a b : Attempt ν} (h : a.Agrees b) :
    b = { a with behaviour := b.behaviour, observer := b.observer } := by
  cases a
  cases b
  obtain ⟨rfl, rfl, rfl, rfl, -, rfl, rfl, rfl, rfl, rfl, rfl, rfl, rfl⟩ := h
  rfl

end Attempt

/-! ## Usages as they are loaded and with other marks -/

namespace Usage

/-- The usage as a load gives it back. -/
def reloaded (u : Usage ν) : Usage ν :=
  { u with
    attempts := u.attempts.map (Attempt.reloaded u.preferred)
    registry := Registry.standard
    pending := some Changes.none }

/-- A load settles who is told of changes. -/
lemma reloaded_settle (u : Usage ν) : u.settle.reloaded = u.reloaded := by
  unfold settle
  split
  · rfl
  · simp only [reloaded, tracking, SortedMap.map_map]
    rfl

/-- The usage with the attempt in a slot changed, if there is one. -/
def mapSlot (slot : Nat) (f : Attempt ν → Attempt ν) (u : Usage ν) : Usage ν :=
  { u with attempts := u.attempts.map fun a => if a.slot == slot then f a else a }

/-- The usage with other marks for the attempt in a slot. -/
def withMaxMark (slot : Nat) (m : ν) (u : Usage ν) : Usage ν := u.mapSlot slot (Attempt.withMaxMark m)

namespace Saved

variable {u : Usage ν} {t : Tables ν}

/-- A saved usage stays saved when its attempts keep their ids and steps and tell the usage of their
changes, and the tables have the rows that go with it. -/
lemma map (h : u.Saved t) (t' : Tables ν) {f : Attempt ν → Attempt ν}
    (hf : ∀ a : Attempt ν, a.SameSteps (f a)) (husages : t'.usages = t.usages) (hsteps : t'.steps = t.steps)
    (hvars : t'.vars = t.vars)
    (hrows : ∀ r' ∈ t'.attempts, ∃ r ∈ t.attempts, r.id = r'.id ∧ r.usageId = r'.usageId)
    (hrow : ∀ {slot a r}, u.attempts.get? slot = some a → t.attemptsWith r.id = [r] →
      a.toRow a.question.id = .ok r →
      ∃ r', t'.attemptsWith r.id = [r'] ∧ (f a).toRow (f a).question.id = .ok r')
    (registry : Registry) (pending : Option Changes)
    (hobserver : ∀ a, a.observer = u.observer →
      (f a).observer = Usage.observer { u with attempts := u.attempts.map f, pending := pending }) :
    Saved { u with attempts := u.attempts.map f, registry := registry, pending := pending } t' := by
  have key : ∀ {slot b}, (u.attempts.map f).get? slot = some b →
      ∃ a, u.attempts.get? slot = some a ∧ f a = b := by
    intro slot b hb
    rw [SortedMap.get?_map] at hb
    exact Option.map_eq_some_iff.1 hb
  refine ⟨⟨fun hb => ?_, fun hb => ?_, fun hb => ?_, fun hb => ?_⟩, h.stored,
    ⟨husages ▸ h.mirrors.usage, ?_, ?_, ?_⟩, fun {slot b} hb => ?_⟩
  · obtain ⟨a, ha, rfl⟩ := key hb
    exact (hf a).slot.trans (h.sound.slot ha)
  · obtain ⟨a, ha, rfl⟩ := key hb
    exact (hf a).usageId.trans (h.sound.usageId ha)
  · obtain ⟨a, ha, rfl⟩ := key hb
    exact hobserver a (h.sound.observer ha)
  · obtain ⟨a, ha, rfl⟩ := key hb
    exact (hf a).sound (h.sound.attempt ha)
  · intro r' hr' husage
    obtain ⟨r, hr, hrid, hrusage⟩ := hrows r' hr'
    obtain ⟨slot, a, ha, haid⟩ := h.mirrors.owned r hr (hrusage.trans husage)
    exact ⟨slot, f a, by simp [ha], by rw [(hf a).id, haid, hrid]⟩
  · intro slot slot' b b' id hb hb' hbid hbid'
    obtain ⟨a, ha, rfl⟩ := key hb
    obtain ⟨a', ha', rfl⟩ := key hb'
    exact h.mirrors.distinct ha ha' ((hf a).id ▸ hbid) ((hf a').id ▸ hbid')
  · intro slot b hb
    obtain ⟨a, ha, rfl⟩ := key hb
    refine (h.mirrors.attempts ha).withRow (hf a) hsteps hvars fun id hid => ?_
    obtain ⟨r, htoRow, hview, -⟩ := h.exists_row ha
    obtain rfl := Option.some.inj ((Attempt.id_of_toRow htoRow).symm.trans hid)
    obtain ⟨r', hview', htoRow'⟩ := hrow ha hview htoRow
    exact ⟨r', hview', fun _ => htoRow'⟩
  · obtain ⟨a, ha, rfl⟩ := key hb
    rw [(hf a).id, (hf a).steps]
    exact h.numbered ha

/-- What is saved is saved as well under the behaviours that a load makes. -/
lemma reloaded (h : u.Saved t) : u.reloaded.Saved t :=
  h.map t (fun a => a.sameSteps_reloaded u.preferred) rfl rfl rfl (fun r hr => ⟨r, hr, rfl, rfl⟩)
    (fun {_ a r} _ hview htoRow => ⟨r, hview, (a.toRow_reloaded _ _).trans htoRow⟩) _ _
    fun _ _ => rfl

/-- Marks that are set in the tables are set in the saved usage. -/
lemma setMaxMark (h : u.Saved t) {ids : List String} (hids : u.id.text ∈ ids) (slot : Nat) (m : ν) :
    (u.withMaxMark slot m).Saved (t.setMaxMark ids slot m) := by
  refine h.map (t.setMaxMark ids slot m)
    (f := fun a => if a.slot == slot then a.withMaxMark m else a) (fun a => ?_) rfl rfl rfl
    (fun r' hr' => ?_) (fun {slot' a r} ha hview htoRow => ?_) _ _ fun a ha => ?_
  · split
    · exact a.sameSteps_withMaxMark m
    · exact .refl a
  · obtain ⟨r, hr, rfl⟩ := (Tables.mem_attempts_setMaxMark ids slot m).1 hr'
    exact ⟨r, hr, by split <;> rfl, by split <;> rfl⟩
  · -- the row is in the slot if the attempt is
    obtain ⟨_, _, _, -, -, -, -, hfields⟩ := Attempt.of_toRow htoRow
    have hslot : Tables.inSlot ids slot r = (a.slot == slot) := by
      rw [hfields]
      simp [Tables.inSlot, h.sound.usageId ha, hids]
    refine ⟨if a.slot == slot then { r with maxMark := m } else r, ?_, ?_⟩
    · have hmap : (t.setMaxMark ids slot m).attemptsWith r.id = (t.attemptsWith r.id).map fun r =>
          if Tables.inSlot ids slot r then { r with maxMark := m } else r := by
        unfold Tables.attemptsWith Tables.setMaxMark
        rw [List.filter_map]
        congr 1
        refine List.filter_congr fun r _ => ?_
        simp only [Function.comp_apply]
        split <;> rfl
      rw [hmap, hview, List.map_singleton, hslot]
    · split
      · exact Attempt.toRow_withMaxMark htoRow m
      · exact htoRow
  · split
    · exact ha
    · exact ha

/-- A load gives the saved usage back with its behaviours made anew. -/
theorem load_eq {s : Store ν} {questions : SortedMap String (Question ν)} (h : u.Saved s.tables)
    (hbackend : s.backend = .memory) (hbank : ∀ {slot a}, u.attempts.get? slot = some a →
      questions.get? a.question.id = some a.question) :
    (Store.load u.id.text (.memory questions) Registry.standard s).result = .ok u.reloaded := by
  obtain ⟨v, hload, hagrees⟩ := h.load_agrees hbackend hbank
  obtain ⟨-, -, -, -, hregistry, hpending, hmade⟩ := of_load hload
  have hbehaviour : ∀ {slot a b}, u.attempts.get? slot = some a → v.attempts.get? slot = some b →
      a.Agrees b → b = a.reloaded u.preferred := by
    intro slot a b ha hb hab
    obtain ⟨r, -, -, -, hbehaviour, -⟩ := hmade hb
    have hname : a.behaviour.map Behaviour.name = some r.behaviour := by
      rw [← hab.behaviour, hbehaviour, Option.map_some, Registry.name_makeOrMissing]
    obtain ⟨b', hb', hname⟩ := Option.map_eq_some_iff.1 hname
    have hobserver : b.observer = .changes := by
      rw [(sound_of_load hload).observer hb, observer_of_load hload]
    rw [hab.eq, hbehaviour, hobserver, Attempt.reloaded, hb', Option.map_some, hname,
      hagrees.preferred]
  have hattempts : v.attempts = u.reloaded.attempts := by
    apply SortedMap.ext_get?
    intro slot
    rw [Usage.reloaded, SortedMap.get?_map]
    cases ha : u.attempts.get? slot with
    | some a =>
      obtain ⟨b, hb, hab⟩ := hagrees.attempts slot a ha
      rw [hb, Option.map_some, hbehaviour ha hb hab]
    | none =>
      by_contra hsome
      obtain ⟨b, hb⟩ := Option.ne_none_iff_exists'.1 hsome
      have hslot : slot ∈ v.slots := SortedMap.mem_keys_iff.2 ⟨b, hb⟩
      rw [hagrees.slots] at hslot
      obtain ⟨a, ha'⟩ := SortedMap.mem_keys_iff.1 hslot
      rw [ha] at ha'
      cases ha'
  rw [hload]
  cases v
  obtain ⟨rfl, rfl, rfl, rfl, -, -⟩ := hagrees
  simp only at hregistry hpending hattempts
  rw [hregistry, hpending, hattempts]
  rfl

end Saved
end Usage

/-! ## What happens to other usages -/

namespace Tables

variable {owner : String → String} {t : Tables ν} {row : UsageRow} {id : String}

/-- The rows of an attempt are among those of the usage that owns it. -/
lemma Owned.attemptsWith_rowsOf (h : t.Owned owner) (hid : owner id = row.id) :
    (t.rowsOf row).attemptsWith id = t.attemptsWith id := by
  unfold rowsOf attemptsWith
  simp only
  rw [List.filter_filter]
  refine List.filter_congr fun r hr => ?_
  by_cases hr' : r.id = id
  · have husage : r.usageId = row.id := (h.attempts r hr).symm.trans (hr' ▸ hid)
    simp [hr', husage]
  · simp [hr']

/-- So are the rows of its steps. -/
lemma Owned.stepsOf_rowsOf (h : t.Owned owner) (hid : owner id = row.id) :
    (t.rowsOf row).stepsOf id = t.stepsOf id := by
  unfold rowsOf stepsOf
  simp only
  rw [List.filter_filter]
  refine List.filter_congr fun r hr => ?_
  by_cases hr' : r.attemptId = id
  · obtain ⟨a, ha, haid⟩ := h.steps r hr
    have husage : a.usageId = row.id := by rw [← h.attempts a ha, haid, hr', hid]
    have hmem : id ∈ (t.attempts.filter fun a => a.usageId == row.id).map AttemptRow.id :=
      List.mem_map.2 ⟨a, List.mem_filter.2 ⟨ha, by simpa using husage⟩, haid.trans hr'⟩
    simpa [hr'] using hmem
  · simp [hr']

end Tables

section OtherUsages

variable {owner owner' : String → String} {supply supply' : Supply} {u : Usage ν} {stale : Stale}
  {t t' : Tables ν}

/-- What is mirrored stays so while the usage's own rows stay. -/
theorem Mirrors.sameRows (h : Mirrors u stale t) (hsame : t.SameRows u.id.text t')
    (ht : t.Owned owner) (ht' : t'.Owned owner') (hu : u.Owned owner supply)
    (hu' : u.Owned owner' supply') : Mirrors u stale t' where
  usage := fun hfresh => hsame.usage.trans (h.usage hfresh)
  owned := by
    intro r hr hid
    have hmem : r ∈ (t'.rowsOf u.toRow).attempts :=
      List.mem_filter.2 ⟨hr, by simpa [Usage.toRow] using hid⟩
    rw [hsame.rows u.toRow rfl] at hmem
    exact h.owned r (List.mem_filter.1 hmem).1 hid
  distinct := h.distinct
  attempts := by
    intro slot a ha
    have hmirrored := h.attempts ha
    have howner : ∀ {id}, a.id = some id → owner id = u.toRow.id := fun hid => (hu.attempts ha hid).2.1
    have howner' : ∀ {id}, a.id = some id → owner' id = u.toRow.id :=
      fun hid => (hu'.attempts ha hid).2.1
    have hrows := hsame.rows u.toRow rfl
    have hsteps : ∀ {id}, a.id = some id → t'.stepsOf id = t.stepsOf id := fun hid => by
      rw [← ht'.stepsOf_rowsOf (howner' hid), hrows, ht.stepsOf_rowsOf (howner hid)]
    refine ⟨hmirrored.inOrder, hmirrored.replayed, fun id hid => ?_, fun id hid hfresh => ?_,
      fun id hid r hr hrid r' hr' heq => ?_, fun step hstep stepId hstepId => ?_⟩
    · rw [← ht'.attemptsWith_rowsOf (howner' hid), hrows, ht.attemptsWith_rowsOf (howner hid)]
      exact hmirrored.row id hid
    · rw [hsteps hid]
      exact hmirrored.steps id hid hfresh
    · exact (ht'.sameAttempt r' hr' r hr heq).trans hrid
    · -- a step that has an id is in the rows of the usage, and so are its variables
      have hfresh : ¬ stale.steps slot := fun hs => by
        simp [hmirrored.replayed hs step hstep] at hstepId
      obtain ⟨id, hid⟩ : ∃ id, a.id = some id := by
        rw [← Option.ne_none_iff_exists']
        exact fun hnone => by simp [hmirrored.inOrder.unsaved hnone step hstep] at hstepId
      obtain ⟨place, hplace⟩ : ∃ place, (place, stepId, step) ∈ Attempt.withIds 0 a.steps :=
        Attempt.exists_mem_withIds.2 ⟨hstep, hstepId⟩
      have hmem : Attempt.stepRow id place stepId step ∈ (t.rowsOf u.toRow).stepsOf id := by
        rw [ht.stepsOf_rowsOf (howner hid), hmirrored.steps id hid hfresh]
        exact List.mem_map.2 ⟨_, hplace, rfl⟩
      have hrow := (Tables.mem_stepsOf.1 hmem).1
      have hvars : t'.varsOf stepId = t.varsOf stepId :=
        (Tables.varsOf_rowsOf (hrows ▸ hrow)).symm.trans (hrows ▸ Tables.varsOf_rowsOf hrow)
      rw [hvars]
      exact hmirrored.vars step hstep stepId hstepId

end OtherUsages
end Assessment
