import Assessment.Proofs.Store.Holding

/-!
# The outline of a usage

What keeps the four tables together is ids, slots, places and the steps themselves.  The question of an
attempt, its behaviour, its marks and what is told of it do not matter to this, and they need not be the
same in memory and in the tables: a bank may have another question by now, history may be stored under
a behaviour that is not on offer any more, and marks may be set in the tables while a usage is in
memory.  The *outline* of a usage is the usage with all of this blanked out.  Nothing is lost that a
row is found by.

Saving, loading and deleting go along with the outline (`Store.save_outline`, `Store.load_outline`,
`Store.delete_outline`), and setting marks is not seen in it (`Tables.setMaxMark_outline`).  An operation
does not go along with it, since the ruling of a behaviour depends on the marks; but what it does to the
outline is still a change (`Usage.Change.outline`).
-/

namespace Assessment

variable {ν : Type}

/-! ## Outlines -/

/-- A question that says nothing. -/
def Question.blank : Question ν := .description ⟨"", "", ""⟩

/-- A bank that has this question. -/
def Bank.blank : Bank ν := .memory (SortedMap.ofList [("", Question.blank)])

variable [Scalar ν]

/-- The attempt with everything blanked out but its ids, its place and its steps.  Whether it is started
can still be told. -/
def Attempt.outline (a : Attempt ν) : Attempt ν :=
  { a with
    question := Question.blank
    behaviour := a.behaviour.map fun _ => .missing ""
    maxMark := 0.0
    minFraction := a.minFraction.map fun _ => 0.0
    flagged := false
    questionSummary := none
    rightAnswerSummary := none
    responseSummary := none
    modified := a.modified.map fun _ => ⟨0⟩ }

/-- The row with everything blanked out but its ids and its slot. -/
def AttemptRow.outline (r : AttemptRow ν) : AttemptRow ν where
  id := r.id
  usageId := r.usageId
  slot := r.slot
  questionId := ""
  behaviour := ""
  maxMark := 0.0
  minFraction := 0.0
  flagged := false
  questionSummary := none
  rightAnswerSummary := none
  responseSummary := none
  modified := ⟨0⟩

/-- The usage with its attempts in outline. -/
def Usage.outline (u : Usage ν) : Usage ν :=
  { u with
    attempts := u.attempts.map Attempt.outline
    registry := Registry.standard }

/-- The tables with their attempts in outline. -/
def Tables.outline (t : Tables ν) : Tables ν :=
  { t with attempts := t.attempts.map AttemptRow.outline }

/-- The store with its tables in outline. -/
def Store.outline (s : Store ν) : Store ν := { s with tables := s.tables.outline }

/-- The write with its attempts in outline. -/
def Write.outline (w : Write ν) : Write ν :=
  { w with
    newAttempts := w.newAttempts.map AttemptRow.outline
    updatedAttempts := w.updatedAttempts.map AttemptRow.outline }

/-- The plan of the outline. -/
def Plan.outline (p : Plan ν) : Plan ν := ⟨p.write.outline, p.undo⟩

/-- The save of the outline. -/
def Saving.outline (s : Saving ν) : Saving ν := ⟨s.usage.outline, s.supply, s.plan.outline⟩

/-! ## Attempts -/

namespace Attempt

@[simp] lemma outline_outline (a : Attempt ν) : a.outline.outline = a.outline := by
  simp [outline, Function.comp_def]

/-- The row of the outline is the outline of the row. -/
lemma toRow_outline (a : Attempt ν) :
    a.outline.toRow a.outline.question.id =
      (a.toRow a.question.id).map AttemptRow.outline := by
  unfold toRow
  simp only [outline]
  cases a.id with
  | none => rfl
  | some id => cases a.behaviour <;> cases a.minFraction <;> cases a.modified <;> rfl

lemma sound_outline {a : Attempt ν} : a.outline.Sound ↔ a.Sound := by
  constructor
  · exact fun h => ⟨by simpa [outline] using h.minFraction, by simpa [outline] using h.modified,
      by simpa [outline] using h.steps, h.readOnly⟩
  · exact fun h => ⟨by simpa [outline] using h.minFraction, by simpa [outline] using h.modified,
      by simpa [outline] using h.steps, h.readOnly⟩

/-- The outline changes as the attempt does. -/
lemma Change.outline {slot : Nat} {a a' : Attempt ν} {notices : List Notice}
    (h : a.Change slot a' notices) : a.outline.Change slot a'.outline notices where
  id := h.id
  inOrder := fun ha =>
    have ha' := h.inOrder ⟨ha.split, ha.nodup, ha.unsaved⟩
    ⟨ha'.split, ha'.nodup, ha'.unsaved⟩
  about := h.about
  noticed := h.noticed
  steps := h.steps
  started := by simpa [Attempt.outline] using h.started

end Attempt

/-! ## Usages -/

namespace Usage

/-- An attempt of the outline is the outline of an attempt. -/
lemma get?_outline {u : Usage ν} {slot : Nat} {b : Attempt ν} :
    u.outline.attempts.get? slot = some b ↔ ∃ a, u.attempts.get? slot = some a ∧ a.outline = b := by
  rw [outline, SortedMap.get?_map, Option.map_eq_some_iff]

@[simp] lemma outline_outline (u : Usage ν) : u.outline.outline = u.outline := by
  simp [outline, SortedMap.map_map, Function.comp_def]

@[simp] lemma slots_outline (u : Usage ν) : u.outline.slots = u.slots := SortedMap.keys_map _ _

lemma nextSlot_outline (u : Usage ν) : u.outline.nextSlot = u.nextSlot := by
  simp [nextSlot, outline, SortedMap.lastKey?]

lemma outline_put (u : Usage ν) (slot : Nat) (a : Attempt ν) (notices : List Notice) :
    (u.put slot a notices).outline = u.outline.put slot a.outline notices := by
  simp [put, noted, outline, SortedMap.map_insert, Attempt.outline]

/-- The outline says who is told of changes. -/
lemma outline_tracking (u : Usage ν) (pending : Option Changes) :
    (u.tracking pending).outline = u.outline.tracking pending := by
  simp only [tracking, outline, SortedMap.map_map]
  rfl

lemma outline_settle (u : Usage ν) : u.settle.outline = u.outline.settle := by
  have hpending : u.outline.pending = u.pending := rfl
  unfold settle
  rw [hpending]
  cases u.pending with
  | none => exact u.outline_tracking _
  | some c => rfl

lemma sound_outline {u : Usage ν} : u.outline.Sound ↔ u.Sound := by
  constructor
  · intro h
    have key : ∀ {slot a}, u.attempts.get? slot = some a →
        u.outline.attempts.get? slot = some a.outline := fun ha => get?_outline.2 ⟨_, ha, rfl⟩
    exact ⟨fun ha => (h.slot (key ha) :), fun ha => (h.usageId (key ha) :),
      fun ha => (h.observer (key ha) :), fun ha => Attempt.sound_outline.1 (h.attempt (key ha))⟩
  · intro h
    refine ⟨fun hb => ?_, fun hb => ?_, fun hb => ?_, fun hb => ?_⟩ <;>
      obtain ⟨a, ha, rfl⟩ := get?_outline.1 hb
    · exact (h.slot ha :)
    · exact (h.usageId ha :)
    · exact (h.observer ha :)
    · exact Attempt.sound_outline.2 (h.attempt ha)

lemma Unsaved.outline {u : Usage ν} (h : u.Unsaved) : u.outline.Unsaved where
  pending := h.pending
  id := h.id
  attempts := fun hb => by
    obtain ⟨a, ha, rfl⟩ := get?_outline.1 hb
    exact (h.attempts ha :)

lemma owned_outline {owner : String → String} {supply : Supply} {u : Usage ν} :
    u.outline.Owned owner supply ↔ u.Owned owner supply := by
  constructor
  · intro h
    exact ⟨sound_outline.1 h.sound, h.named,
      fun ha _ hid => (h.attempts (get?_outline.2 ⟨_, ha, rfl⟩) hid :)⟩
  · intro h
    refine ⟨sound_outline.2 h.sound, h.named, fun hb id hid => ?_⟩
    obtain ⟨a, ha, rfl⟩ := get?_outline.1 hb
    exact (h.attempts ha hid :)

/-- The outline changes as the usage does. -/
lemma Change.outline {u u' : Usage ν} (h : u.Change u') : u.outline.Change u'.outline := by
  cases h with
  | put ha hchange hobserver =>
    rw [outline_put]
    exact .put (get?_outline.2 ⟨_, ha, rfl⟩) hchange.outline hobserver
  | @add a hid hsteps hbehaviour hobserver =>
    rw [outline_put, ← nextSlot_outline]
    exact .add (a := a.outline) hid hsteps (by simp [Attempt.outline, hbehaviour]) hobserver
  | prefer name => exact .prefer name

end Usage

/-! ## Saves -/

namespace Saving

lemma writeRow_outline (w : Write ν) (isNew isTouched : Bool) (row : AttemptRow ν) :
    writeRow w.outline isNew isTouched row.outline = (writeRow w isNew isTouched row).outline := by
  unfold writeRow
  split_ifs <;> simp [Write.outline]

lemma collected_outline (s : Saving ν) (taken : Option Changes) (slot : Nat) (a : Attempt ν) :
    s.outline.collected taken slot a.outline = (s.collected taken slot a).outline := by
  have hattempts : (s.usage.attempts.map Attempt.outline).insert slot (a.outline.numbered s.supply) =
      (s.usage.attempts.insert slot (a.numbered s.supply)).map Attempt.outline :=
    (SortedMap.map_insert Attempt.outline s.usage.attempts slot (a.numbered s.supply)).symm
  unfold collected
  simp only [outline, Usage.outline, hattempts]
  rfl

/-- Collecting an attempt goes along with the outline. -/
lemma collect_outline (taken : Option Changes) (slot : Nat) (s : Saving ν) :
    (collect taken slot s.outline).result = (collect taken slot s).result ∧
      (collect taken slot s.outline).state = (collect taken slot s).state.outline := by
  cases ha : s.usage.attempts.get? slot with
  | none =>
    have ha' : s.outline.usage.attempts.get? slot = none := by
      simp [outline, Usage.outline, ha]
    rw [collect_of_none ha, collect_of_none ha']
    exact ⟨rfl, rfl⟩
  | some a =>
    have ha' : s.outline.usage.attempts.get? slot = some a.outline :=
      Usage.get?_outline.2 ⟨a, ha, rfl⟩
    have hrow : (a.outline.numbered s.supply).toRow a.outline.question.id =
        ((a.numbered s.supply).toRow a.question.id).map AttemptRow.outline :=
      (a.numbered s.supply).toRow_outline
    rw [collect_of_some ha, collect_of_some ha', s.collected_outline taken slot a]
    cases hr : (a.numbered s.supply).toRow a.question.id with
    | error e =>
      have hr' : (a.outline.numbered s.outline.supply).toRow a.outline.question.id = .error e :=
        hrow.trans (congrArg _ hr)
      simp only [hr', true_and]
    | ok row =>
      have hr' : (a.outline.numbered s.outline.supply).toRow a.outline.question.id =
          .ok row.outline := hrow.trans (congrArg _ hr)
      have hwrite := writeRow_outline (s.writeWith taken slot a) a.id.isNone (s.touches taken slot a) row
      simp only [hr', true_and]
      exact congrArg (fun w => Saving.mk (s.collected taken slot a).outline.usage
        (s.collected taken slot a).outline.supply ⟨w, s.undoWith slot a⟩) hwrite

lemma withId_outline (u : Usage ν) (id : UsageId) : u.outline.withId id = (u.withId id).outline := by
  simp [Usage.withId, Usage.outline, SortedMap.map_map, Attempt.outline, Function.comp_def]

lemma begin_outline (u : Usage ν) (supply : Supply) :
    begin u.outline supply = (begin u supply).outline := by
  cases hid : u.id with
  | stored id =>
    have hid' : u.outline.id = .stored id := hid
    rw [begin_of_stored hid, begin_of_stored hid']
    rfl
  | ephemeral token =>
    have hid' : u.outline.id = .ephemeral token := hid
    rw [begin_of_ephemeral hid, begin_of_ephemeral hid', withId_outline]
    rfl

end Saving

lemma Undo.apply_outline (undo : Undo) (u : Usage ν) :
    undo.apply u.outline = (undo.apply u).outline := by
  have hattempt : ∀ a : Attempt ν,
      undo.onAttempt a.outline.slot a.outline = (undo.onAttempt a.slot a).outline := fun a => by
    rw [Undo.onAttempt_eq, Undo.onAttempt_eq]
    rfl
  have hback : ({ u.outline with
      attempts := u.outline.attempts.map fun a => undo.onAttempt a.slot a } : Usage ν) =
      ({ u with attempts := u.attempts.map fun a => undo.onAttempt a.slot a } : Usage ν).outline := by
    simp [Usage.outline, SortedMap.map_map, Function.comp_def, hattempt]
  unfold Undo.apply
  simp only
  rw [hback]
  cases undo.previousId <;> cases undo.taken <;> simp only [Saving.withId_outline] <;> rfl

/-- Preparing a save goes along with the outline. -/
lemma Usage.prepare_outline (u : Usage ν) (supply : Supply) :
    (prepare (u.outline, supply)).result = (prepare (u, supply)).result.map Plan.outline ∧
      (prepare (u.outline, supply)).state =
        ((prepare (u, supply)).state.1.outline, (prepare (u, supply)).state.2) := by
  obtain ⟨hresult, hstate⟩ := Op.forEach_commutes
    (fun slot s => Saving.collect_outline u.pending slot s) u.slots (Saving.begin u supply)
  rw [← Saving.begin_outline] at hresult hstate
  unfold prepare
  simp only [slots_outline]
  change (Op.forEach (Saving.collect u.outline.pending) _ _).result = _ at hresult
  change (Op.forEach (Saving.collect u.outline.pending) _ _).state = _ at hstate
  cases hloop : (Op.forEach (Saving.collect u.pending) u.slots (Saving.begin u supply)).result with
  | error e =>
    simp only [hresult, hstate, hloop]
    exact ⟨rfl, Prod.ext (Undo.apply_outline _ _) rfl⟩
  | ok _ =>
    simp only [hresult, hstate, hloop]
    exact ⟨rfl, rfl⟩

/-! ## Tables -/

namespace Tables

lemma map_replaceRow (rows : List (AttemptRow ν)) (row : AttemptRow ν) :
    replaceRow AttemptRow.id (rows.map AttemptRow.outline) row.outline =
      (replaceRow AttemptRow.id rows row).map AttemptRow.outline := by
  simp [replaceRow, List.filter_map, AttemptRow.outline, Function.comp_def]

lemma map_foldl_replaceRow (l rows : List (AttemptRow ν)) :
    (l.map AttemptRow.outline).foldl (replaceRow AttemptRow.id) (rows.map AttemptRow.outline) =
      (l.foldl (replaceRow AttemptRow.id) rows).map AttemptRow.outline := by
  induction l generalizing rows with
  | nil => rfl
  | cons row rest ih => rw [List.map_cons, List.foldl_cons, List.foldl_cons, map_replaceRow, ih]

lemma apply_outline (t : Tables ν) (w : Write ν) :
    t.outline.apply w.outline = (t.apply w).outline := by
  have hrows := map_foldl_replaceRow (w.newAttempts ++ w.updatedAttempts) t.attempts
  rw [List.map_append] at hrows
  cases husage : w.usage <;> simp only [apply, Write.outline, husage, outline, clearSteps, hrows]

lemma attemptIds_outline (t : Tables ν) (usageId : String) :
    t.outline.attemptIds usageId = t.attemptIds usageId := by
  simp [attemptIds, outline, List.filter_map, Function.comp_def, AttemptRow.outline]

lemma delete_outline (t : Tables ν) (usageId : String) :
    t.outline.delete usageId = (t.delete usageId).outline := by
  have hattempts : (t.attempts.map AttemptRow.outline).filter (fun a => a.usageId != usageId) =
      (t.attempts.filter fun a => a.usageId != usageId).map AttemptRow.outline := by
    simp [List.filter_map, Function.comp_def, AttemptRow.outline]
  simp only [delete, attemptIds_outline]
  simp only [outline, hattempts]
  rfl

/-- Marks that are set are not seen in outline. -/
lemma setMaxMark_outline (t : Tables ν) (ids : List String) (slot : Nat) (m : ν) :
    (t.setMaxMark ids slot m).outline = t.outline := by
  have hrow : ∀ r : AttemptRow ν,
      (if inSlot ids slot r then { r with maxMark := m } else r).outline = r.outline := fun r => by
    split <;> rfl
  simp [setMaxMark, outline, hrow]

lemma rowsOf_outline (t : Tables ν) (row : UsageRow) :
    t.outline.rowsOf row = (t.rowsOf row).outline := by
  have hattempts : (t.attempts.map AttemptRow.outline).filter (fun a => a.usageId == row.id) =
      (t.attempts.filter fun a => a.usageId == row.id).map AttemptRow.outline := by
    simp [List.filter_map, Function.comp_def, AttemptRow.outline]
  have hids : ((t.attempts.filter fun a => a.usageId == row.id).map AttemptRow.outline).map
      AttemptRow.id = (t.attempts.filter fun a => a.usageId == row.id).map AttemptRow.id := by
    simp [AttemptRow.outline, Function.comp_def]
  simp only [rowsOf, outline, hattempts, hids]

/-- Making attempts of rows goes along with the outline; the question and the behaviour are blank
then. -/
lemma attemptsOfRows_outline {σ τ : Type} {bank : Bank ν} {registry : Registry} {preferred : String}
    {steps : List (String × Step ν)} {rows : List (AttemptRow ν)} {s : σ}
    {attempts : List (Attempt ν)}
    (h : (attemptsOfRows bank registry preferred steps rows s).result = .ok attempts) (s' : τ) :
    (attemptsOfRows Bank.blank Registry.standard preferred steps (rows.map AttemptRow.outline)
      s').result = .ok (attempts.map Attempt.outline) := by
  induction rows generalizing steps s s' attempts with
  | nil =>
    cases h
    rfl
  | cons row rest ih =>
    have hblank : questionOfRow Bank.blank row.outline s' = ⟨.ok Question.blank, s', []⟩ := rfl
    unfold attemptsOfRows at h
    cases hq : (questionOfRow bank row s).result with
    | error e =>
      rw [Op.bind_of_error hq] at h
      cases h
    | ok question =>
      rw [Op.bind_of_ok hq] at h
      cases hrest : (attemptsOfRows bank registry preferred (steps.filter fun e => e.1 != row.id) rest
          (questionOfRow bank row s).state).result with
      | error e =>
        simp only [Op.bind_of_error hrest] at h
        cases h
      | ok others =>
        simp only [Op.bind_of_ok hrest, Op.pure_apply] at h
        cases h
        rw [List.map_cons, List.map_cons, attemptsOfRows, Op.bind_of_ok (congrArg Run.result hblank)]
        have hothers : (attemptsOfRows Bank.blank Registry.standard preferred
            (steps.filter fun e => e.1 != row.outline.id) (rest.map AttemptRow.outline) s').result =
            .ok (others.map Attempt.outline) := ih hrest s'
        simp only [hblank]
        rw [Op.bind_of_ok hothers]
        rfl

end Tables

namespace Usage

lemma restore_outline (row : UsageRow) (attempts : List (Attempt ν)) (registry : Registry)
    (tracked : Bool) :
    restore row (attempts.map Attempt.outline) Registry.standard tracked =
      (restore row attempts registry tracked).outline := by
  rw [restore, restore, outline_tracking]
  simp [outline, SortedMap.map_ofList, Attempt.outline, Function.comp_def]

lemma assemble_outline {σ τ : Type} {row : UsageRow} {attempts : List (AttemptRow ν)}
    {steps : List (StepRow ν)} {vars : List VarRow} {bank : Bank ν} {registry : Registry} {s : σ}
    {u : Usage ν} (h : (assemble row attempts steps vars bank registry s).result = .ok u) (s' : τ) :
    (assemble row (attempts.map AttemptRow.outline) steps vars Bank.blank Registry.standard
      s').result = .ok u.outline := by
  unfold assemble at h ⊢
  cases hmade : (Tables.attemptsOfRows bank registry row.preferred
      (Tables.orderedSteps steps vars) attempts s).result with
  | error e =>
    rw [Op.bind_of_error hmade] at h
    cases h
  | ok made =>
    rw [Op.bind_of_ok hmade] at h
    cases h
    rw [Op.bind_of_ok (Tables.attemptsOfRows_outline hmade s')]
    exact congrArg Except.ok (restore_outline row made registry true)

end Usage

/-! ## Stores -/

namespace Store

/-- A save goes along with the outline. -/
theorem save_outline (u : Usage ν) (s : Store ν) :
    (save (u.outline, s.outline)).result = (save (u, s)).result ∧
      (save (u.outline, s.outline)).state =
        ((save (u, s)).state.1.outline, (save (u, s)).state.2.outline) := by
  obtain ⟨hresult, hstate⟩ := u.prepare_outline s.supply
  have hsupply : s.outline.supply = s.supply := rfl
  have hbackend : s.outline.backend = s.backend := rfl
  unfold save
  simp only [hsupply, hbackend, hresult, hstate]
  cases (Usage.prepare (u, s.supply)).result with
  | error e => exact ⟨rfl, rfl⟩
  | ok plan =>
    have hempty : plan.write.outline.isEmpty = plan.write.isEmpty := by
      simp [Write.isEmpty, Write.outline]
    have hsettle := (Usage.prepare (u, s.supply)).state.1.outline_settle.symm
    cases s.backend with
    | memory =>
      have htables := s.tables.apply_outline plan.write
      exact ⟨rfl, Prod.ext hsettle (congrArg (fun t => Store.mk _ t _) htables)⟩
    | unreachable =>
      have habort := plan.undo.apply_outline (Usage.prepare (u, s.supply)).state.1
      simp only [Except.map, Plan.outline, hempty]
      split
      · exact ⟨rfl, Prod.ext hsettle rfl⟩
      · exact ⟨rfl, Prod.ext habort rfl⟩

/-- Deleting a usage goes along with the outline. -/
theorem delete_outline (usageId : String) (s : Store ν) :
    (delete usageId s.outline).state = (delete usageId s).state.outline := by
  unfold delete
  cases hbackend : s.backend with
  | memory => simp [outline, hbackend, Tables.delete_outline]
  | unreachable => simp [outline, hbackend, unreached]

/-- A load goes along with the outline, whatever the bank and the behaviours on offer. -/
theorem load_outline {usageId : String} {bank : Bank ν} {registry : Registry} {s : Store ν}
    {u : Usage ν} (h : (load usageId bank registry s).result = .ok u) :
    (load usageId Bank.blank Registry.standard s.outline).result = .ok u.outline := by
  unfold load at h ⊢
  cases hbackend : s.backend with
  | unreachable =>
    simp only [hbackend] at h
    cases h
  | memory =>
    have hbackend' : s.outline.backend = .memory := hbackend
    have husages : s.outline.tables.usages = s.tables.usages := rfl
    simp only [hbackend, hbackend', husages] at h ⊢
    cases hrow : s.tables.usages.find? fun row => row.id == usageId with
    | none =>
      simp only [hrow] at h
      cases h
    | some row =>
      simp only [hrow] at h ⊢
      rw [show s.outline.tables = s.tables.outline from rfl, s.tables.rowsOf_outline row]
      exact Usage.assemble_outline h s.outline

end Store
end Assessment
