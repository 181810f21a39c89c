import Assessment.Proofs.Store.Reread
import Assessment.Proofs.Usage.Missing

/-!
# Saving what is carried on

Where the behaviour of an attempt is missing, a save of the usage takes nothing out of the tables.  The
rows of the attempt's steps stay as they are and with their variables, and what is put in after them
are comments (`Tables.Retains`).

The usage is compared with what was loaded, which has an id for every attempt and for every step
(`Usage.Identified`).  So numbering leaves the loaded steps alone, and only the later ones are added
(`Attempt.Carried.of_mem_addedSteps`).  A save that is under way collects rows that name the loaded
attempts, clears none whose behaviour is missing, and adds only comments to those (`Saving.Carries`).
-/

namespace Assessment

variable {ν : Type}

/-! ## Loaded usages -/

/-- A usage whose attempts and steps have ids, those of different attempts different ones. -/
structure Usage.Identified (u : Usage ν) : Prop where
  attempts : ∀ {slot a}, u.attempts.get? slot = some a → a.id.isSome = true
  distinct : ∀ {slot slot' a a'}, u.attempts.get? slot = some a → u.attempts.get? slot' = some a' →
    a'.id = a.id → slot' = slot
  steps : ∀ {slot a}, u.attempts.get? slot = some a → ∀ step ∈ a.steps, step.id.isSome = true

lemma Usage.identified_of_load {s : Store ν} {usageId : String} {bank : Bank ν} {registry : Registry}
    {u : Usage ν} (hnodup : (s.tables.attempts.map AttemptRow.id).Nodup)
    (h : (Store.load usageId bank registry s).result = .ok u) : u.Identified where
  attempts := by
    intro slot a ha
    obtain ⟨-, -, -, -, -, -, hattempts⟩ := Usage.of_load h
    obtain ⟨r, -, -, hid, -⟩ := hattempts ha
    rw [hid]
    rfl
  distinct := Store.slot_eq_of_load hnodup h
  steps := by
    intro slot a ha
    obtain ⟨-, -, -, -, -, -, hattempts⟩ := Usage.of_load h
    obtain ⟨-, -, -, -, -, hsteps⟩ := hattempts ha
    exact hsteps

/-- Whether an attempt is the one with an id, and its behaviour is missing. -/
def Usage.HasMissing (u : Usage ν) (id : String) (a : Attempt ν) : Prop :=
  ∃ slot name, u.attempts.get? slot = some a ∧ a.id = some id ∧ a.behaviour = some (.missing name)

/-! ## Numbering -/

namespace Attempt.Carried

variable {a a' : Attempt ν}

/-- Numbering leaves the steps that have ids, and gives ids to later ones only. -/
lemma numbered (h : a.Carried a') (hid : a.id.isSome = true)
    (hsteps : ∀ step ∈ a.steps, step.id.isSome = true) (supply : Supply) :
    a.Carried (a'.numbered supply) := by
  obtain ⟨id, hid⟩ := Option.isSome_iff_exists.1 hid
  refine ⟨?_, h.question, h.behaviour, fun name hname => ?_⟩
  · simp [Attempt.numbered, takeId, h.id, hid]
  · obtain ⟨later, hlater, hcomments⟩ := h.comments name hname
    refine ⟨(assignStepIds a.steps.length (a'.takeId supply).2 later).1, ?_, fun step hstep => ?_⟩
    · simp only [Attempt.numbered, numbering, hlater, assignStepIds_append 0 hsteps, Nat.zero_add]
    · obtain ⟨step', hstep', id', rfl⟩ := mem_assignStepIds step hstep
      exact hcomments step' hstep'

/-- What a save adds to an attempt whose behaviour is missing comes after the steps that had ids, and has
a comment. -/
lemma of_mem_addedSteps (h : a.Carried a') (hsteps : ∀ step ∈ a.steps, step.id.isSome = true)
    {name : String} (hname : a.behaviour = some (.missing name)) {supply : Supply}
    {e : Nat × String × Step ν} (he : e ∈ a'.addedSteps supply) :
    a.steps.length ≤ e.1 ∧ e.2.2.vars.hasBehaviour "comment" = true := by
  obtain ⟨later, hlater, hcomments⟩ := h.comments name hname
  rw [addedSteps, numbering, hlater, assignStepIds_append 0 hsteps, Nat.zero_add] at he
  obtain ⟨place, hplace, he⟩ := List.mem_filterMap.1 he
  obtain ⟨step, hstep, he⟩ := Option.bind_eq_some_iff.1 he
  obtain ⟨id, -, rfl⟩ := Option.map_eq_some_iff.1 he
  have hle : a.steps.length ≤ place := le_of_mem_assignStepIds_places place hplace
  rw [List.getElem?_append_right hle] at hstep
  obtain ⟨step', hstep', id', rfl⟩ := mem_assignStepIds step (List.mem_of_getElem? hstep)
  exact ⟨hle, hcomments step' hstep'⟩

end Attempt.Carried

/-! ## Saves -/

/-- A row that is written of an attempt: it has its id, its question and the name of its behaviour. -/
structure AttemptRow.Names (r : AttemptRow ν) (a : Attempt ν) : Prop where
  id : a.id = some r.id
  behaviour : a.behaviour.map Behaviour.name = some r.behaviour
  question : r.questionId = a.question.id

lemma Attempt.Carried.names_of_toRow {a a' : Attempt ν} (h : a.Carried a') {row : AttemptRow ν}
    (hrow : a'.toRow a'.question.id = .ok row) : row.Names a := by
  obtain ⟨b, _, _, hb, -, -, -, hfields⟩ := of_toRow hrow
  refine ⟨h.id.symm.trans (id_of_toRow hrow), ?_, ?_⟩
  · rw [← h.behaviour, hb, hfields]
    rfl
  · rw [hfields, h.question]

/-- A row of a variable with a comment for a step. -/
def VarRow.IsComment (x : VarRow) (stepId : String) : Prop :=
  x.stepId = stepId ∧ x.name = Owner.behaviour.key "comment"

/-- A step that has a comment has a row for it. -/
lemma Attempt.exists_isComment {step : Step ν} (h : step.vars.hasBehaviour "comment" = true)
    (stepId : String) : ∃ x ∈ varRows stepId step, x.IsComment stepId := by
  obtain ⟨value, hvalue⟩ := Option.isSome_iff_exists.1 h
  exact ⟨⟨stepId, _, value⟩, List.mem_map.2 ⟨_, SortedMap.get?_eq_some_iff.1 hvalue, rfl⟩, rfl, rfl⟩

namespace Saving

/-- A save that is under way of a usage that is carried on.  It has collected rows that name the attempts
from before, and where the behaviour is missing, it clears no steps and adds only comments after those
from before. -/
structure Carries (u : Usage ν) (s : Saving ν) : Prop where
  usage : u.Carried s.usage
  rows : ∀ r ∈ s.plan.write.rows, ∃ a, u.attempts.get? r.slot = some a ∧ r.Names a
  cleared : ∀ id ∈ s.plan.write.clearedAttempts, ∀ a, ¬ u.HasMissing id a
  steps : ∀ r ∈ s.plan.write.newSteps, ∀ a, u.HasMissing r.attemptId a →
    a.steps.length ≤ r.index ∧ ∃ x ∈ s.plan.write.newVars, x.IsComment r.id

variable {u : Usage ν} {s : Saving ν} {taken : Option Changes} {slot : Nat}

/-- A save begins with a usage that is carried on. -/
lemma carries_begin {u' : Usage ν} {id : String} (h : u.Carried u') (hid : u'.id = .stored id)
    (supply : Supply) : (begin u' supply).Carries u := by
  rw [begin_of_stored hid]
  refine ⟨⟨h.id, h.attempts, fun slot name _ => ?_⟩, ?_, ?_, ?_⟩
  · cases u'.pending <;> rfl
  all_goals simp [Write.empty, Write.rows]

/-- Collecting an attempt carries it on. -/
lemma Carries.collect (h : s.Carries u) (hu : u.Identified) (hsound : s.usage.Sound)
    (huncleared : ∀ slot name, u.IsMissing slot name →
      (taken.getD Changes.none).stepsDeleted.has slot = false)
    (hok : (Saving.collect taken slot s).result = .ok ()) :
    (Saving.collect taken slot s).state.Carries u := by
  obtain ⟨-, hstate⟩ | ⟨a', row, ha', hrow, hstate⟩ := collect_cases hok
  · rwa [hstate]
  · obtain ⟨a, ha, hcarried⟩ := h.usage.attempts.of_get?_eq_some ha'
    have hnumbered : a.Carried (a'.numbered s.supply) :=
      hcarried.numbered (hu.attempts ha) (hu.steps ha) s.supply
    have hnames : row.Names a := hnumbered.names_of_toRow hrow
    -- the attempt of the row is the one in the slot
    have hslot : ∀ {slot' b}, u.attempts.get? slot' = some b → b.id = some row.id → slot' = slot :=
      fun hb hbid => hu.distinct ha hb (hbid.trans hnames.id.symm)
    rw [hstate]
    refine ⟨⟨h.usage.id, h.usage.attempts.insert ha hnumbered, h.usage.uncleared⟩, fun r hr => ?_,
      fun id hcleared b hmissing => ?_, fun r hr b hmissing => ?_⟩
    · obtain hr | ⟨-, rfl⟩ := mem_rows_writeRow.1 hr
      · exact h.rows r hr
      · refine ⟨a, ?_, hnames⟩
        rw [Attempt.slot_of_toRow hrow]
        exact (hsound.slot ha').symm ▸ ha
    · rw [clearedAttempts_writeRow, clearedAttempts_writeWith, List.mem_append] at hcleared
      obtain hcleared | hcleared := hcleared
      · exact h.cleared id hcleared b hmissing
      · obtain ⟨hid', hdeleted⟩ := mem_clearedWith.1 hcleared
        obtain ⟨slot', name, hb, hbid, hname⟩ := hmissing
        obtain rfl := hslot hb (hbid.trans (hid'.symm.trans (hcarried.id.trans hnames.id)))
        rw [huncleared slot' name ⟨b, hb, hname⟩] at hdeleted
        cases hdeleted
    · simp only [newSteps_writeRow, newVars_writeRow, writeWith, List.mem_append, List.mem_map]
        at hr ⊢
      obtain hr | ⟨e, he, rfl⟩ := hr
      · obtain ⟨hle, x, hx, hcomment⟩ := h.steps r hr b hmissing
        exact ⟨hle, x, .inl hx, hcomment⟩
      · obtain ⟨slot', name, hb, hbid, hname⟩ := hmissing
        obtain rfl := hslot hb (hbid.trans (Attempt.id_of_toRow hrow))
        obtain rfl := Option.some.inj (ha.symm.trans hb)
        obtain ⟨hle, hcomment⟩ := hcarried.of_mem_addedSteps (hu.steps ha) hname he
        obtain ⟨x, hx, hx'⟩ := Attempt.exists_isComment hcomment e.2.1
        exact ⟨hle, x, .inr (List.mem_flatMap.2 ⟨e, he, hx⟩), hx'⟩

/-- A save that is prepared carries its usage on, and has collected only what the usage owns. -/
lemma carries_prepare {owner : String → String} {supply : Supply} {u' : Usage ν} {id : String}
    (hu : u.Identified) (h : u.Carried u') (hid : u'.id = .stored id) (howned : u'.Owned owner supply)
    {plan : Plan ν} (hok : (Usage.prepare (u', supply)).result = .ok plan) :
    let s : Saving ν :=
      ⟨(Usage.prepare (u', supply)).state.1, (Usage.prepare (u', supply)).state.2, plan⟩
    (∃ owner', s.Owned owner' id supply) ∧ s.Carries u := by
  obtain ⟨uid, huid, hbegin⟩ := owned_begin howned
  obtain rfl : id = uid := by
    obtain huid | ⟨huid, -⟩ := huid
    · exact UsageId.stored.inj (hid.symm.trans huid)
    · simp [hid, UsageId.isStored] at huid
  obtain ⟨owner', hsame, hnew⟩ := exists_owner owner supply id
  obtain ⟨hsaving, hcarries⟩ := prepare_keeps
    (P := fun s => s.Owned owner' id supply ∧ s.Carries u)
    ⟨hbegin owner' hsame, carries_begin h hid supply⟩
    (fun slot _ s hs hok =>
      ⟨hs.1.collect hnew hok, hs.2.collect hu hs.1.usage.sound h.uncleared hok⟩) hok
  exact ⟨⟨owner', hsaving⟩, hcarries⟩

end Saving

/-! ## Tables -/

/-- What is stored of an attempt's steps is still there, and only comments have come after it, numbered
from `n` on. -/
structure Tables.Retains (attemptId : String) (n : Nat) (t t' : Tables ν) : Prop where
  steps : ∃ later, t'.stepsOf attemptId = t.stepsOf attemptId ++ later ∧
    ∀ r ∈ later, n ≤ r.index ∧ ∃ x ∈ t'.varsOf r.id, x.IsComment r.id
  vars : ∀ r ∈ t.stepsOf attemptId, t'.varsOf r.id = t.varsOf r.id

namespace Tables.Retains

variable {attemptId : String} {n : Nat} {t t' t'' : Tables ν}

lemma refl (attemptId : String) (n : Nat) (t : Tables ν) : t.Retains attemptId n t :=
  ⟨⟨[], by simp, by simp⟩, fun _ _ => rfl⟩

lemma trans (h : t.Retains attemptId n t') (h' : t'.Retains attemptId n t'') :
    t.Retains attemptId n t'' := by
  obtain ⟨later, hlater, hcomments⟩ := h.steps
  obtain ⟨later', hlater', hcomments'⟩ := h'.steps
  refine ⟨⟨later ++ later', by rw [hlater', hlater, List.append_assoc], fun r hr => ?_⟩,
    fun r hr => ?_⟩
  · obtain hr | hr := List.mem_append.1 hr
    · rw [h'.vars r (hlater ▸ List.mem_append_right _ hr)]
      exact hcomments r hr
    · exact hcomments' r hr
  · rw [h'.vars r (hlater ▸ List.mem_append_left _ hr), h.vars r hr]

/-- A write retains the attempts that it does not clear and adds only comments to. -/
lemma apply {owner owner' : String → String} {uid : String} {s s' : Supply} {w : Write ν}
    (ht : t.Owned owner) (hpast : s.Past t) (hw : w.Owned owner' uid s s')
    (hcleared : attemptId ∉ w.clearedAttempts)
    (hcomments : ∀ r ∈ w.newSteps, r.attemptId = attemptId →
      n ≤ r.index ∧ ∃ x ∈ w.newVars, x.IsComment r.id) : t.Retains attemptId n (t.apply w) := by
  have hkept : ∀ r ∈ t.steps, r.attemptId = attemptId → t.clears w.clearedAttempts r.id = false := by
    intro r hr hattempt
    rw [Bool.eq_false_iff]
    intro hclears
    obtain ⟨r', hr', hmem, hid⟩ := clears_iff.1 hclears
    exact hcleared (hattempt ▸ ht.sameAttempt r' hr' r hr hid ▸ hmem)
  refine ⟨⟨_, stepsOf_apply_of_kept hkept, fun r hr => ?_⟩, fun r hr => ?_⟩
  · obtain ⟨hr, hattempt⟩ := List.mem_filter.1 hr
    obtain ⟨hle, x, hx, hcomment⟩ := hcomments r hr (beq_iff_eq.1 hattempt)
    refine ⟨hle, x, List.mem_filter.2 ⟨?_, beq_iff_eq.2 hcomment.1⟩, hcomment⟩
    rw [vars_apply]
    exact List.mem_append_right _ hx
  · obtain ⟨hr, hattempt⟩ := mem_stepsOf.1 hr
    -- the new variables are of steps whose ids were not issued yet
    have hnone : (w.newVars.filter fun x => x.stepId == r.id) = [] := by
      rw [List.filter_eq_nil_iff]
      intro x hx hid
      obtain ⟨r', hr', hid'⟩ := hw.vars x hx
      exact (hpast.steps r hr).1 (hid'.trans (beq_iff_eq.1 hid) ▸ (hw.issued r' hr').1)
    rw [varsOf, vars_apply, List.filter_append, hnone, List.append_nil, ← varsOf,
      varsOf_clearSteps_of_kept (hkept r hr hattempt)]

end Tables.Retains
end Assessment
