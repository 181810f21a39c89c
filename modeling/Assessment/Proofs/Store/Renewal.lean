import Assessment.Proofs.Store.Exclusive
import Assessment.Proofs.Usage.Regrade

/-!
# What a regrade writes

A regrade of a stored usage puts a new attempt in the place of every started one.  The new attempt has
the id of the old one, and none of its steps has an id.  What saving this writes is said by the new
attempts alone (`Write.renewing`): a row for each, and all of its steps, which take the next ids of the
supply one after the other.  Nothing can fail at that point any more, so a regrade of a stored usage
either fails and leaves the store, or writes just this (`Store.regrade_spec`).

The loop of the save goes through every slot.  What holds on the way is that the attempts of the slots
behind it are written and those ahead are as the regrade left them (`Usage.Renewed.prepare`).
-/

namespace Assessment

variable {ν : Type}

/-! ## Steps without ids -/

/-- A step that is to get an id, with the attempt it belongs to and its place there. -/
structure LooseStep (ν : Type) where
  attemptId : String
  place : Nat
  step : Step ν

namespace LooseStep

/-- The rows of steps that get the next ids of a supply, one after the other. -/
def rows (supply : Supply) (steps : List (LooseStep ν)) : List (StepRow ν) :=
  (steps.zipIdx supply.issued).map fun e =>
    Attempt.stepRow e.1.attemptId e.1.place (supply.rowId e.2) e.1.step

/-- The rows of their variables. -/
def varRows (supply : Supply) (steps : List (LooseStep ν)) : List VarRow :=
  (steps.zipIdx supply.issued).flatMap fun e => Attempt.varRows (supply.rowId e.2) e.1.step

lemma rows_append (supply : Supply) (steps rest : List (LooseStep ν)) :
    rows supply (steps ++ rest) = rows supply steps ++ rows (supply.skip steps.length) rest := by
  rw [rows, List.zipIdx_append, List.map_append]
  rfl

lemma varRows_append (supply : Supply) (steps rest : List (LooseStep ν)) :
    varRows supply (steps ++ rest) =
      varRows supply steps ++ varRows (supply.skip steps.length) rest := by
  rw [varRows, List.zipIdx_append, List.flatMap_append]
  rfl

end LooseStep

namespace Attempt

/-- The steps of an attempt that has an id, as if they had none. -/
def loose (a : Attempt ν) : List (LooseStep ν) :=
  a.id.elim [] fun id => a.steps.zipIdx.map fun e => ⟨id, e.2, e.1⟩

/-- The row of an attempt, if it can be stored. -/
def row? (a : Attempt ν) : Option (AttemptRow ν) := (a.toRow a.question.id).toOption

lemma row?_eq_some_iff {a : Attempt ν} {row : AttemptRow ν} :
    a.row? = some row ↔ a.toRow a.question.id = .ok row := by
  unfold row?
  cases a.toRow a.question.id <;> simp [Except.toOption]

/-- Steps that are numbered have the rows of loose ones. -/
lemma rows_loose (id : String) (place : Nat) (supply : Supply) (steps : List (Step ν)) :
    LooseStep.rows supply ((steps.zipIdx place).map fun e => ⟨id, e.2, e.1⟩) =
      (withIds place (issueTo supply steps)).map fun e => stepRow id e.1 e.2.1 e.2.2 := by
  induction steps generalizing place supply with
  | nil => rfl
  | cons step rest ih =>
    rw [issueTo, withIds_cons, List.zipIdx_cons, List.map_cons, List.map_append, ← ih]
    rfl

lemma varRows_loose (id : String) (place : Nat) (supply : Supply) (steps : List (Step ν)) :
    LooseStep.varRows supply ((steps.zipIdx place).map fun e => ⟨id, e.2, e.1⟩) =
      (withIds place (issueTo supply steps)).flatMap fun e => varRows e.2.1 e.2.2 := by
  induction steps generalizing place supply with
  | nil => rfl
  | cons step rest ih =>
    rw [issueTo, withIds_cons, List.zipIdx_cons, List.map_cons, List.flatMap_append, ← ih]
    simp only [Option.map_some, Option.toList_some, List.flatMap_cons, List.flatMap_nil,
      List.append_nil]
    rfl

/-- An attempt of a stored usage that can be stored and is to be stored with all its steps. -/
structure Renewed (a : Attempt ν) : Prop where
  sound : a.Sound
  id : a.id.isSome = true
  started : a.behaviour.isSome = true
  steps : ∀ step ∈ a.steps, step.id = none

namespace Renewed

variable {a : Attempt ν}

/-- The attempt has a row, which does not depend on the ids of its steps. -/
lemma exists_row (h : a.Renewed) (supply : Supply) :
    ∃ row, a.toRow a.question.id = .ok row ∧
      (a.numbered supply).toRow a.question.id = .ok row := by
  obtain ⟨id, hid⟩ := Option.isSome_iff_exists.1 h.id
  have hnumbered : (a.numbered supply).toRow a.question.id = a.toRow a.question.id := by
    simp only [toRow, numbered, takeId, hid]
  obtain ⟨row, hrow⟩ := exists_toRow_numbered h.sound h.started supply a.question.id
  exact ⟨row, hnumbered.symm.trans hrow, hrow⟩

lemma numbering_eq (h : a.Renewed) (supply : Supply) :
    a.numbering supply = (issueTo supply a.steps, supply.skip a.steps.length,
      List.range' 0 a.steps.length) := by
  obtain ⟨id, hid⟩ := Option.isSome_iff_exists.1 h.id
  have htaken : (a.takeId supply).2 = supply := by simp [takeId, hid]
  rw [numbering_of_split (List.nil_append _).symm (by simp) h.steps, htaken]
  rfl

lemma addedSteps_eq (h : a.Renewed) (supply : Supply) :
    a.addedSteps supply = withIds 0 (issueTo supply a.steps) := by
  obtain ⟨id, hid⟩ := Option.isSome_iff_exists.1 h.id
  have htaken : (a.takeId supply).2 = supply := by simp [takeId, hid]
  rw [addedSteps_of_split (List.nil_append _).symm (by simp) h.steps, htaken]
  rfl

end Renewed
end Attempt

/-! ## The write -/

/-- The write that puts attempts in the place of those with their ids, with steps that get the next ids
of a supply. -/
def Write.renewing (supply : Supply) (attempts : List (Attempt ν)) : Write ν :=
  { Write.empty with
    updatedAttempts := attempts.filterMap Attempt.row?
    clearedAttempts := attempts.filterMap Attempt.id
    newSteps := LooseStep.rows supply (attempts.flatMap Attempt.loose)
    newVars := LooseStep.varRows supply (attempts.flatMap Attempt.loose) }

/-- One attempt more is put in its place. -/
lemma Write.renewing_append_singleton (supply : Supply) (attempts : List (Attempt ν))
    {a : Attempt ν} {row : AttemptRow ν} (hrow : a.toRow a.question.id = .ok row) :
    Write.renewing supply (attempts ++ [a]) =
      let first := Write.renewing supply attempts
      { first with
        updatedAttempts := first.updatedAttempts ++ [row]
        clearedAttempts := first.clearedAttempts ++ [row.id]
        newSteps := first.newSteps ++
          LooseStep.rows (supply.skip (attempts.flatMap Attempt.loose).length) a.loose
        newVars := first.newVars ++
          LooseStep.varRows (supply.skip (attempts.flatMap Attempt.loose).length) a.loose } := by
  simp [renewing, Attempt.row?_eq_some_iff.2 hrow, Attempt.id_of_toRow hrow, LooseStep.rows_append,
    LooseStep.varRows_append]

namespace Usage

/-- The started attempts of a usage in the order of their slots. -/
def started (u : Usage ν) : List (Attempt ν) := u.attempts.values.filter fun a => !a.steps.isEmpty

/-- The attempt in a slot if it is started. -/
def started? (u : Usage ν) (slot : Nat) : Option (Attempt ν) :=
  (u.attempts.get? slot).filter fun a => !a.steps.isEmpty

lemma filterMap_started? (u : Usage ν) : u.slots.filterMap u.started? = u.started := by
  have hentries : ∀ e ∈ u.attempts.entries,
      u.started? e.1 = (some e.2).filter fun a => !a.steps.isEmpty := fun e he => by
    rw [started?, SortedMap.get?_eq_some_iff.2 he]
  rw [slots, SortedMap.keys, List.filterMap_map, started, SortedMap.values, List.filter_map]
  generalize u.attempts.entries = entries at hentries
  induction entries with
  | nil => rfl
  | cons e rest ih =>
    have hrest := ih fun e he => hentries e (List.mem_cons_of_mem _ he)
    rw [List.filterMap_cons, Function.comp_apply, hentries e List.mem_cons_self, hrest]
    cases hsteps : e.2.steps.isEmpty <;> simp [Option.filter, hsteps]

lemma started?_eq_some_iff {u : Usage ν} {slot : Nat} {a : Attempt ν} :
    u.started? slot = some a ↔ u.attempts.get? slot = some a ∧ a.steps ≠ [] := by
  simp [started?, Option.filter_eq_some_iff]

lemma mem_started {u : Usage ν} {a : Attempt ν} :
    a ∈ u.started ↔ ∃ slot, u.attempts.get? slot = some a ∧ a.steps ≠ [] := by
  rw [← filterMap_started?, List.mem_filterMap]
  constructor
  · rintro ⟨slot, -, hslot⟩
    exact ⟨slot, started?_eq_some_iff.1 hslot⟩
  · rintro ⟨slot, ha, hsteps⟩
    exact ⟨slot, SortedMap.mem_keys_iff.2 ⟨a, ha⟩, started?_eq_some_iff.2 ⟨ha, hsteps⟩⟩

/-- A stored usage with started attempts that are all to be stored anew. -/
structure Renewed (u : Usage ν) : Prop where
  stored : u.id.isStored = true
  attempts : ∀ {slot a}, u.attempts.get? slot = some a → a.Renewed
  changes : ∃ c, u.pending = some c ∧ c.usageModified = false ∧
    ∀ {slot a}, u.attempts.get? slot = some a →
      (c.stale.row slot ↔ a.steps ≠ []) ∧ (c.stale.steps slot ↔ a.steps ≠ [])

/-- A save of such a usage that has gone through some slots. -/
structure Renewing (u : Usage ν) (supply : Supply) (slots : List Nat) (s : Saving ν) : Prop where
  write : s.plan.write = Write.renewing supply (slots.filterMap u.started?)
  supply : s.supply = supply.skip ((slots.filterMap u.started?).flatMap Attempt.loose).length
  ahead : ∀ slot, slot ∉ slots → s.usage.attempts.get? slot = u.attempts.get? slot

variable {u : Usage ν}

/-- Collecting the attempt in one more slot. -/
lemma Renewing.collect {supply : Supply} {slots : List Nat} {s : Saving ν}
    (h : u.Renewing supply slots s) (hu : u.Renewed) {slot : Nat} (hslot : slot ∉ slots) {a : Attempt ν}
    (ha : u.attempts.get? slot = some a) :
    (Saving.collect u.pending slot s).result = .ok () ∧
      u.Renewing supply (slots ++ [slot]) (Saving.collect u.pending slot s).state := by
  obtain ⟨c, hc, -, hchanges⟩ := hu.changes
  obtain ⟨hrow, hsteps⟩ := hchanges ha
  have hrenewed := hu.attempts ha
  obtain ⟨row, htoRow, hnumbered⟩ := hrenewed.exists_row s.supply
  obtain ⟨id, hid⟩ := Option.isSome_iff_exists.1 hrenewed.id
  obtain rfl : id = row.id := Option.some.inj (hid.symm.trans (Attempt.id_of_toRow htoRow))
  have htaken : a.takeId s.supply = (row.id, s.supply) := by simp [Attempt.takeId, hid]
  have hloose : a.loose = a.steps.zipIdx.map fun e => ⟨row.id, e.2, e.1⟩ := by
    rw [Attempt.loose, hid, Option.elim_some]
  have hlength : a.loose.length = a.steps.length := by simp [hloose]
  have hrows := Attempt.rows_loose row.id 0 s.supply a.steps
  have hvars := Attempt.varRows_loose row.id 0 s.supply a.steps
  rw [← hloose, ← hrenewed.addedSteps_eq] at hrows hvars
  have hsupply : (a.numbering s.supply).2.1 = s.supply.skip a.loose.length := by
    rw [hrenewed.numbering_eq, hlength]
  have hahead : ∀ slot' ∉ slots ++ [slot], (s.collected u.pending slot a).usage.attempts.get? slot' =
      u.attempts.get? slot' := fun slot' hslot' => by
    have hne : slot' ≠ slot := fun heq => hslot' (heq ▸ List.mem_append_right _ List.mem_cons_self)
    exact (SortedMap.get?_insert_of_ne _ hne _).trans
      (h.ahead slot' fun hmem => hslot' (List.mem_append_left _ hmem))
  rw [Saving.collect_of_some ((h.ahead slot hslot).trans ha), hnumbered]
  refine ⟨rfl, ?_, ?_, hahead⟩
  · by_cases hnil : a.steps = []
    · -- nothing is written of an attempt that is not started
      have hskip : (slots ++ [slot]).filterMap u.started? = slots.filterMap u.started? := by
        simp [started?, ha, hnil, Option.filter]
      have hnot : c.slotsToUpdate.has slot = false := by simpa [Changes.stale, hnil] using hrow
      have hkept : c.stepsDeleted.has slot = false := by simpa [Changes.stale, hnil] using hsteps
      rw [hskip, ← h.write]
      simp [Saving.writeRow, Saving.writeWith, Saving.touches, hid, hc, hnot, hkept,
        hrenewed.numbering_eq, hrenewed.addedSteps_eq, hnil, Attempt.issueTo, Attempt.withIds]
    · have htake : (slots ++ [slot]).filterMap u.started? = slots.filterMap u.started? ++ [a] := by
        simp [started?, ha, hnil, Option.filter]
      have htouched : c.slotsToUpdate.has slot = true := hrow.2 hnil
      have hcleared : c.stepsDeleted.has slot = true := hsteps.2 hnil
      rw [htake, Write.renewing_append_singleton supply _ htoRow, ← h.write, ← h.supply, hrows, hvars]
      simp [Saving.writeRow, Saving.writeWith, Saving.touches, hid, hc, htouched, hcleared, htaken]
  · show (a.numbering s.supply).2.1 = _
    rw [hsupply, h.supply, Supply.skip_skip, List.filterMap_append, List.flatMap_append,
      List.length_append]
    by_cases hnil : a.steps = []
    · have hnone : a.loose = [] := by simp [hloose, hnil]
      simp [started?, ha, hnil, hnone, Option.filter]
    · simp [started?, ha, hnil, Option.filter]

/-- Such a usage is prepared for a save, which writes its started attempts. -/
theorem Renewed.prepare (hu : u.Renewed) (supply : Supply) :
    ∃ plan, (Usage.prepare (u, supply)).result = .ok plan ∧
      plan.write = Write.renewing supply u.started ∧
      (Usage.prepare (u, supply)).state.2 =
        supply.skip (u.started.flatMap Attempt.loose).length := by
  obtain ⟨c, hc, hmodified, -⟩ := hu.changes
  have hbegin : u.Renewing supply [] (Saving.begin u supply) := by
    cases hid : u.id with
    | ephemeral token =>
      have hstored := hu.stored
      rw [hid] at hstored
      cases hstored
    | stored id =>
      rw [Saving.begin_of_stored hid]
      refine ⟨?_, rfl, fun _ _ => rfl⟩
      simp [hc, hmodified, Write.renewing, Write.empty, LooseStep.rows, LooseStep.varRows]
  have hround : ∀ before slot rest, u.slots = before ++ slot :: rest → ∀ s,
      u.Renewing supply before s → (Saving.collect u.pending slot s).result = .ok () ∧
        u.Renewing supply (before ++ [slot]) (Saving.collect u.pending slot s).state := by
    intro before slot rest hslots s hs
    have hnodup : (before ++ slot :: rest).Nodup := hslots ▸ u.attempts.nodup_keys
    have hnot : slot ∉ before := fun hmem =>
      (List.nodup_append.1 hnodup).2.2 slot hmem slot List.mem_cons_self rfl
    have hmem : slot ∈ u.slots := by simp [hslots]
    obtain ⟨a, ha⟩ := SortedMap.mem_keys_iff.1 hmem
    exact hs.collect hu hnot ha
  obtain ⟨hok, hloop⟩ := Op.forEach_follows hround hbegin
  have hwrite := hloop.write
  have hsupply := hloop.supply
  rw [filterMap_started?] at hwrite hsupply
  unfold Usage.prepare
  simp only [hok]
  exact ⟨_, rfl, hwrite, hsupply⟩

end Usage

/-! ## Regrades -/

/-- What notices leave stale that tell of no new attempt. -/
lemma Changes.stale_noteAll {c : Changes} (hc : ∀ slot, c.attemptsAdded.has slot = false)
    {notices : List Notice} (hnotices : ∀ n ∈ notices, ∀ slot, n ≠ .attemptAdded slot) (slot : Nat) :
    ((notices.foldl note c).stale.row slot ↔
      c.stale.row slot ∨ ∃ n ∈ notices, n.slot? = some slot) ∧
    ((notices.foldl note c).stale.steps slot ↔
      c.stale.steps slot ∨ .stepsDeleted slot ∈ notices) := by
  induction notices generalizing c with
  | nil => simp
  | cons n rest ih =>
    have hn := hnotices n List.mem_cons_self
    have hadded : ∀ slot, (c.note n).attemptsAdded.has slot = false := fun slot => by
      by_cases hslot : n.slot? = some slot
      · exact (note_marks hslot (hn slot) (hc slot)).1
      · exact (c.note_sameAt hslot).added.trans (hc slot)
    obtain ⟨hrow, hsteps⟩ := ih hadded fun m hm => hnotices m (List.mem_cons_of_mem _ hm)
    rw [List.foldl_cons, hrow, hsteps]
    by_cases hslot : n.slot? = some slot
    · obtain ⟨-, hrow', hsteps'⟩ := note_marks hslot (hn slot) (hc slot)
      rw [hsteps', List.mem_cons, or_left_comm, or_assoc, eq_comm (a := n)]
      simp [hrow', hslot]
    · have hsame := c.note_sameAt hslot
      have hne : n ≠ .stepsDeleted slot := fun heq => hslot (by rw [heq]; rfl)
      rw [hsame.row, hsame.steps]
      simp [hslot, Ne.symm hne]

namespace Usage

lemma mem_startedSlots {u : Usage ν} {slot : Nat} :
    slot ∈ u.startedSlots ↔ ∃ a, u.attempts.get? slot = some a ∧ a.steps ≠ [] := by
  rw [startedSlots, List.mem_filter, Option.any_eq_true]
  constructor
  · rintro ⟨-, a, ha, hsteps⟩
    exact ⟨a, ha, by simpa using hsteps⟩
  · rintro ⟨a, ha, hsteps⟩
    exact ⟨SortedMap.mem_keys_iff.2 ⟨a, ha⟩, a, ha, by simpa using hsteps⟩

variable [Scalar ν]

lemma replaced_of_regradeAll {u : Usage ν} {draws : Nat → Draw}
    (h : (regradeAll draws u).result = .ok ()) :
    u.Replaced draws u.startedSlots (regradeAll draws u).state := by
  obtain ⟨b, -, herror, -⟩ | ⟨-, hreplaced⟩ | ⟨_, _, _, _, e, -, -, -, herror, -⟩ :=
    regradeAll_spec u draws
  · rw [h] at herror
    cases herror
  · exact hreplaced
  · rw [h] at herror
    cases herror

/-- Regraded attempts are in the places of those before. -/
lemma Replaced.samePlace {u w : Usage ν} {draws : Nat → Draw} {slots : List Nat}
    (h : u.Replaced draws slots w) (hu : u.Sound) :
    u.attempts.Matches Attempt.SamePlace w.attempts := by
  intro slot
  by_cases hslot : slot ∈ slots
  · obtain ⟨a, ha, hok, hnew⟩ := h.replayed slot hslot
    obtain ⟨hsuccessor, -⟩ := replacement_spec hok
    have hplace : a.SamePlace (u.successor slot a none) :=
      ⟨rfl, (hu.usageId ha).symm, (hu.slot ha).symm, rfl, rfl, rfl⟩
    rw [ha, hnew]
    exact .some (hplace.trans hsuccessor.place)
  · rw [h.kept slot hslot]
    exact SortedMap.Matches.refl Attempt.SamePlace.refl _ slot

/-- What a regrade of a loaded usage leaves can be stored, and its started attempts are to be stored
anew. -/
lemma renewed_of_load {usageId : String} {bank : Bank ν} {registry : Registry} {s : Store ν}
    {u w : Usage ν} (hload : (Store.load usageId bank registry s).result = .ok u)
    {draws : Nat → Draw} (hw : u.Replaced draws u.startedSlots w) : w.Renewed := by
  obtain ⟨-, -, -, hid, -, hpending, hattempts⟩ := of_load hload
  have hsound := sound_of_load hload
  -- a slot is replayed, or there are no steps in it
  have hcases : ∀ {slot a}, w.attempts.get? slot = some a →
      (slot ∈ u.startedSlots ∧ ∃ old, u.attempts.get? slot = some old ∧
        (u.successor slot old none).Successor a ∧ a.steps ≠ []) ∨
      slot ∉ u.startedSlots ∧ u.attempts.get? slot = some a ∧ a.steps = [] := by
    intro slot a ha
    by_cases hslot : slot ∈ u.startedSlots
    · obtain ⟨old, hold, hok, hnew⟩ := hw.replayed slot hslot
      obtain rfl := Option.some.inj (ha.symm.trans hnew)
      exact .inl ⟨hslot, old, hold, replacement_spec hok⟩
    · have hsame := (hw.kept slot hslot).symm.trans ha
      refine .inr ⟨hslot, hsame, ?_⟩
      by_contra hsteps
      exact hslot (mem_startedSlots.2 ⟨a, hsame, hsteps⟩)
  have hwid : w.id = u.id := by rw [← hw.frame]
  have hwpending : w.pending =
      some ((u.startedSlots.flatMap w.noticesOf).foldl Changes.note .none) := by
    rw [hw.pending, hpending, Option.map_some]
  have hnotices : ∀ n ∈ u.startedSlots.flatMap w.noticesOf,
      ∃ slot ∈ u.startedSlots, n.slot? = some slot ∧ n ≠ .attemptAdded slot := by
    intro n hn
    obtain ⟨slot, hslot, hn⟩ := List.mem_flatMap.1 hn
    exact ⟨slot, hslot, slot?_of_mem_replacementNotices hn⟩
  have hadded : ∀ n ∈ u.startedSlots.flatMap w.noticesOf, ∀ slot, n ≠ .attemptAdded slot := by
    intro n hn
    obtain ⟨slot', -, hslot, hne⟩ := hnotices n hn
    exact Notice.ne_attemptAdded hslot hne
  refine ⟨by rw [hwid, hid]; rfl, fun {slot a} ha => ?_, _, hwpending, ?_, fun {slot a} ha => ?_⟩
  · obtain ⟨-, old, hold, hnew, hsteps⟩ | ⟨-, hsame, hnil⟩ := hcases ha
    · obtain ⟨r, -, -, holdId, -⟩ := hattempts hold
      refine ⟨hnew.sound, ?_, hnew.sound.steps hsteps, hnew.id_eq_none rfl⟩
      rw [hnew.place.id]
      exact congrArg Option.isSome holdId
    · obtain ⟨r, -, -, hrid, hbehaviour, -⟩ := hattempts hsame
      exact ⟨hsound.attempt hsame, by rw [hrid]; rfl, by rw [hbehaviour]; rfl, by simp [hnil]⟩
  · refine Changes.noteAll_usageModified fun n hn heq => ?_
    obtain ⟨slot, -, hslot, -⟩ := hnotices n hn
    rw [heq] at hslot
    cases hslot
  · obtain ⟨hrow, hstale⟩ := Changes.stale_noteAll (c := .none) (fun _ => rfl) hadded slot
    have hnone := Saved.not_stale slot
    rw [hrow, hstale]
    obtain ⟨hslot, -, -, -, hsteps⟩ | ⟨hslot, -, hnil⟩ := hcases ha
    · have hmem : .stepsDeleted slot ∈ u.startedSlots.flatMap w.noticesOf :=
        List.mem_flatMap.2 ⟨slot, hslot, List.mem_cons_self⟩
      exact ⟨iff_of_true (.inr ⟨_, hmem, rfl⟩) hsteps, iff_of_true (.inr hmem) hsteps⟩
    · have hother : ∀ n ∈ u.startedSlots.flatMap w.noticesOf, n.slot? ≠ some slot := by
        intro n hn heq
        obtain ⟨slot', hslot', hn', -⟩ := hnotices n hn
        exact hslot (Option.some.inj (heq.symm.trans hn') ▸ hslot')
      refine ⟨iff_of_false ?_ (not_not_intro hnil), iff_of_false ?_ (not_not_intro hnil)⟩
      · rintro (hstale | ⟨n, hn, heq⟩)
        · exact hnone.1 hstale
        · exact hother n hn heq
      · rintro (hstale | hmem)
        · exact hnone.2 hstale
        · exact hother _ hmem rfl

end Usage

namespace Store

variable [Scalar ν]

/-- The store after attempts were put in their places. -/
def renew (s : Store ν) (attempts : List (Attempt ν)) : Store ν :=
  { s with
    tables := s.tables.apply (Write.renewing s.supply attempts)
    supply := s.supply.skip (attempts.flatMap Attempt.loose).length }

section Rows

omit [Scalar ν]

@[simp] lemma usages_renew (s : Store ν) (attempts : List (Attempt ν)) :
    (s.renew attempts).tables.usages = s.tables.usages := by
  rw [renew, Tables.usages_apply]
  rfl

lemma attempts_renew (s : Store ν) (attempts : List (Attempt ν)) :
    (s.renew attempts).tables.attempts = (attempts.filterMap Attempt.row?).foldl
      (Tables.replaceRow AttemptRow.id) s.tables.attempts := by
  rw [renew, Tables.attempts_apply]
  rfl

lemma steps_renew (s : Store ν) (attempts : List (Attempt ν)) :
    (s.renew attempts).tables.steps =
      (s.tables.clearSteps (attempts.filterMap Attempt.id)).steps ++
        LooseStep.rows s.supply (attempts.flatMap Attempt.loose) := by
  rw [renew, Tables.steps_apply]
  rfl

lemma vars_renew (s : Store ν) (attempts : List (Attempt ν)) :
    (s.renew attempts).tables.vars =
      (s.tables.clearSteps (attempts.filterMap Attempt.id)).vars ++
        LooseStep.varRows s.supply (attempts.flatMap Attempt.loose) := by
  rw [renew, Tables.vars_apply]
  rfl

end Rows

omit [Scalar ν] in
lemma backend_of_load {usageId : String} {bank : Bank ν} {registry : Registry} {s : Store ν}
    {u : Usage ν} (h : (load usageId bank registry s).result = .ok u) : s.backend = .memory := by
  cases hbackend : s.backend with
  | memory => rfl
  | unreachable =>
    simp only [load, hbackend] at h
    cases h

omit [Scalar ν] in
/-- Saving a usage whose started attempts are to be stored anew puts them in their places. -/
lemma save_renewed {s : Store ν} (hbackend : s.backend = .memory) {w : Usage ν} (hw : w.Renewed) :
    (save (w, s)).result = .ok () ∧ (save (w, s)).state.2 = s.renew w.started := by
  obtain ⟨plan, hok, hwrite, hsupply⟩ := hw.prepare s.supply
  simp only [save, hok, hbackend, hwrite, hsupply, renew]
  exact ⟨trivial, trivial⟩

/-- A regrade of a stored usage fails as its load does or as the replays do, and leaves the store; or
it puts the new attempts in the place of the old ones and reports on both. -/
theorem regrade_spec (usageId : String) (bank : Bank ν) (registry : Registry) (draws : Nat → Draw)
    (s : Store ν) :
    let run := regrade usageId bank registry draws s
    (∃ f, (load usageId bank registry s).result = .error f ∧
      run.result = .error (f.within ("Failed to load usage " ++ usageId)) ∧ run.state = s) ∨
    ∃ u, (load usageId bank registry s).result = .ok u ∧
      ((∃ e, (Usage.regradeAll draws u).result = .error e ∧
        run.result = .error ((Failure.ofFault e).within ("Failed to regrade usage " ++ usageId)) ∧
        run.state = s) ∨
      ∃ w, (Usage.regradeAll draws u).result = .ok () ∧ (Usage.regradeAll draws u).state = w ∧
        u.Replaced draws u.startedSlots w ∧
        run.result = .ok (UsageRegrade.compare usageId u w) ∧ run.state = s.renew w.started) := by
  intro run
  cases hload : (load usageId bank registry s).result with
  | error f =>
    refine .inl ⟨f, rfl, ?_, ?_⟩
    · simp only [run, regrade, Op.bind, Op.mapFailure, hload, Except.mapError]
    · simp only [run, regrade, Op.bind, Op.mapFailure, hload, Except.mapError, state_load]
  | ok u =>
    refine .inr ⟨u, rfl, ?_⟩
    cases hregrade : (Usage.regradeAll draws u).result with
    | error e =>
      refine .inl ⟨e, rfl, ?_⟩
      simp only [run, regrade, Op.bind, Op.mapFailure, hload, Except.mapError, state_load, hregrade,
        true_and]
    | ok _ =>
      have hreplaced := Usage.replaced_of_regradeAll hregrade
      obtain ⟨hsaved, hstate⟩ := save_renewed (backend_of_load hload)
        (Usage.renewed_of_load hload hreplaced)
      refine .inr ⟨_, rfl, rfl, hreplaced, ?_⟩
      simp only [run, regrade, Op.bind, Op.mapFailure, hload, Except.mapError, state_load, hregrade,
        hsaved, hstate]
      exact ⟨rfl, trivial⟩

/-- The result of a regrade follows from what is loaded. -/
lemma result_regrade (usageId : String) (bank : Bank ν) (registry : Registry) (draws : Nat → Draw)
    (s : Store ν) :
    (regrade usageId bank registry draws s).result =
      ((load usageId bank registry s).result.mapError
        (Failure.within ("Failed to load usage " ++ usageId))).bind fun u =>
        ((Usage.regradeAll draws u).result.mapError fun e =>
          (Failure.ofFault e).within ("Failed to regrade usage " ++ usageId)).map fun _ =>
            UsageRegrade.compare usageId u (Usage.regradeAll draws u).state := by
  obtain ⟨f, hload, hresult, -⟩ | ⟨u, hload, ⟨e, hregrade, hresult, -⟩ |
    ⟨w, hregrade, rfl, -, hresult, -⟩⟩ := regrade_spec usageId bank registry draws s
  · rw [hresult, hload]
    rfl
  · rw [hresult, hload]
    simp only [Except.mapError, Except.bind, Except.map, hregrade]
  · rw [hresult, hload]
    simp only [Except.mapError, Except.bind, Except.map, hregrade]

end Store
end Assessment
