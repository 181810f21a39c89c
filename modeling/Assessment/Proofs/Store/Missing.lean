import Assessment.Command.Ids
import Assessment.Proofs.Store.Retain

/-!
# Stored usages with missing behaviours

A stored usage may be loaded where some of the behaviours of its attempts are not on offer.  It is then
served by routine operations and saves (`Store.Served`), and nothing is lost of the attempts whose
behaviour is missing, neither in memory nor in the tables (`Store.missing_loses_nothing`).  In the end
their behaviours can be had again: what a load makes of an attempt follows from the last row in its
slot, and a save puts in rows with the ids and the names of behaviours that the last rows had
(`Usage.Headed`).
-/

namespace Assessment

variable {ν : Type}

/-! ## Last rows -/

/-- The id and the name of the behaviour in a row. -/
def AttemptRow.label (r : AttemptRow ν) : Option String × Option String := (some r.id, some r.behaviour)

/-- The id of an attempt and the name of its behaviour. -/
def Attempt.label (a : Attempt ν) : Option String × Option String :=
  (a.id, a.behaviour.map Behaviour.name)

lemma AttemptRow.Names.label_eq {r : AttemptRow ν} {a : Attempt ν} (h : r.Names a) :
    r.label = a.label := Prod.ext h.id.symm h.behaviour.symm

/-- Rows of which the last ones in the slots have the labels of the attempts there. -/
def Usage.Headed (u : Usage ν) (rows : List (AttemptRow ν)) : Prop :=
  ∀ slot, (lastRow rows slot).map AttemptRow.label = (u.attempts.get? slot).map Attempt.label

namespace Usage.Headed

variable {u : Usage ν} {rows : List (AttemptRow ν)}

/-- A row of an attempt takes the place of those with its id. -/
lemma replaceRow (h : u.Headed rows) (hu : u.Identified) {row : AttemptRow ν} {a : Attempt ν}
    (ha : u.attempts.get? row.slot = some a) (hrow : row.Names a) :
    u.Headed (Tables.replaceRow AttemptRow.id rows row) := by
  intro slot
  rw [Tables.replaceRow, lastRow_append]
  by_cases hslot : row.slot = slot
  · have hlast : lastRow [row] slot = some row := by simp [lastRow, hslot]
    rw [hlast, Option.some_or, Option.map_some, ← hslot, ha, Option.map_some, hrow.label_eq]
  · have hlast : lastRow [row] slot = none := by simp [lastRow, hslot]
    rw [hlast, Option.none_or, lastRow_filter, h slot]
    -- the last row in another slot is of another attempt
    intro r hr
    have hlabel := h slot
    rw [hr, Option.map_some] at hlabel
    obtain ⟨b, hb, hlabel⟩ := Option.map_eq_some_iff.1 hlabel.symm
    have hid : b.id = some r.id := congrArg Prod.fst hlabel
    refine bne_iff_ne.2 fun heq => hslot (hu.distinct hb ha ?_)
    rw [hid, hrow.id, heq]

lemma foldl_replaceRow (h : u.Headed rows) (hu : u.Identified) {l : List (AttemptRow ν)}
    (hl : ∀ r ∈ l, ∃ a, u.attempts.get? r.slot = some a ∧ r.Names a) :
    u.Headed (l.foldl (Tables.replaceRow AttemptRow.id) rows) := by
  induction l generalizing rows with
  | nil => exact h
  | cons row rest ih =>
    obtain ⟨a, ha, hrow⟩ := hl row List.mem_cons_self
    exact ih (h.replaceRow hu ha hrow) fun r hr => hl r (List.mem_cons_of_mem _ hr)

end Usage.Headed

/-- Settling a usage carries it on. -/
lemma Usage.Carried.settle [Scalar ν] {u u' : Usage ν} (h : u.Carried u') : u.Carried u'.settle where
  id := u'.id_settle.trans h.id
  attempts := by
    unfold Usage.settle
    split
    · exact h.attempts
    · exact h.attempts.map_right fun _ _ hcarried => hcarried.observedBy _
  uncleared := by
    unfold Usage.settle
    split
    · exact h.uncleared
    · exact fun _ _ _ => rfl

namespace Store

variable {s : Store ν} {usageId : String} {bank : Bank ν} {registry : Registry} {u : Usage ν}

/-- The last rows have the labels of the attempts that are made of them. -/
lemma headed_of_load (hnodup : (s.tables.attempts.map AttemptRow.id).Nodup)
    (hregistry : registry.IsBuiltIn) (h : (load usageId bank registry s).result = .ok u) :
    u.Headed (s.rowsFor usageId) := by
  intro slot
  have hmade := get?_of_load hnodup h slot
  cases hr : lastRow (s.rowsFor usageId) slot with
  | none =>
    rw [hr, Option.map_none, Option.map_eq_none_iff] at hmade
    rw [hmade]
    rfl
  | some r =>
    rw [hr, Option.map_some] at hmade
    obtain ⟨a, ha, hmake⟩ := Option.map_eq_some_iff.1 hmade
    obtain ⟨question, -, rfl⟩ := AttemptRow.loaded_eq_some_iff.1 hmake.symm
    rw [ha, Option.map_some, Option.map_some]
    simp [AttemptRow.label, Attempt.label, Attempt.observedBy, Attempt.ofRow,
      hregistry.name_makeOrMissing]

/-! ## Served usages -/

variable [Scalar ν]

/-- A usage in memory and its store, after routine operations and saves of what was loaded.  Any of
these may have failed. -/
inductive Served (u₀ : Usage ν) (s₀ : Store ν) : Usage ν → Store ν → Prop
  | loaded : Served u₀ s₀ u₀ s₀
  | operation {u : Usage ν} {s : Store ν} (h : Served u₀ s₀ u s) {o : Usage.Operation ν}
    (ho : o.isRoutine = true) : Served u₀ s₀ (o.after u) s
  | save {u : Usage ν} {s : Store ν} (h : Served u₀ s₀ u s) :
    Served u₀ s₀ (Store.save (u, s)).state.1 (Store.save (u, s)).state.2

/-- What holds of a usage that was loaded and of its store as long as it is served. -/
structure Spared (usageId : String) (u₀ : Usage ν) (s₀ : Store ν) (u : Usage ν) (s : Store ν) : Prop where
  reached : ∃ us, Reached s us ∧ u ∈ us
  carried : u₀.Carried u
  retains : ∀ id a, u₀.HasMissing id a → s₀.tables.Retains id a.steps.length s.tables
  headed : u₀.Headed (s.rowsFor usageId)
  questions : ∀ r ∈ s.rowsFor usageId, r ∈ s₀.rowsFor usageId ∨
    ∃ slot a, u₀.attempts.get? slot = some a ∧ r.questionId = a.question.id
  has : s.Has usageId

namespace Spared

variable {u₀ : Usage ν} {s₀ : Store ν}

lemma save (h : Spared usageId u₀ s₀ u s) (hu₀ : u₀.Identified) (hid : u₀.id = .stored usageId) :
    Spared usageId u₀ s₀ (Store.save (u, s)).state.1 (Store.save (u, s)).state.2 := by
  obtain ⟨us, hreached, hu⟩ := h.reached
  obtain ⟨owner, hs, hus⟩ := hreached.owned
  have hsaved := Reached.save hreached hu
  obtain ⟨e, hr, -, hstate⟩ | ⟨plan, hok, -, hstate⟩ := Usage.save_cases (u := u) hs.backend
  · rw [(Usage.prepare_undone (hus u hu).sound s.supply).1 e hr] at hstate
    rw [hstate] at hsaved ⊢
    exact ⟨⟨_, hsaved, List.mem_cons_self⟩, h.carried, h.retains, h.headed, h.questions, h.has⟩
  · obtain ⟨⟨owner', howned⟩, hcarries⟩ := Saving.carries_prepare hu₀ h.carried
      (h.carried.id.trans hid) (hus u hu) hok
    have hrows : (s.tables.apply plan.write).attempts.filter (fun r => r.usageId == usageId) =
        plan.write.rows.foldl (Tables.replaceRow AttemptRow.id) (s.rowsFor usageId) := by
      rw [Tables.attempts_apply]
      exact Tables.filter_foldl_replaceRow_of_all fun r hr =>
        beq_iff_eq.2 (howned.write.rows r hr).2.1
    rw [hstate] at hsaved ⊢
    refine ⟨⟨_, hsaved, List.mem_cons_self⟩, hcarries.usage.settle,
      fun id a hmissing => (h.retains id a hmissing).trans ?_, ?_, ?_,
      Tables.exists_mem_usages_apply h.has plan.write⟩
    · refine Tables.Retains.apply hs.tables hs.past howned.write
        (fun hcleared => hcarries.cleared id hcleared a hmissing) fun r hr hattempt => ?_
      exact hcarries.steps r hr a (hattempt.symm ▸ hmissing)
    · rw [rowsFor, hrows]
      exact h.headed.foldl_replaceRow hu₀ hcarries.rows
    · rw [rowsFor, hrows]
      intro r hr
      obtain hr | hr := Tables.mem_foldl_replaceRow hr
      · obtain ⟨a, ha, hnames⟩ := hcarries.rows r hr
        exact .inr ⟨r.slot, a, ha, hnames.question⟩
      · exact h.questions r hr

end Spared

/-- The invariant of what is served. -/
theorem Served.spared {s₀ : Store ν} {us : List (Usage ν)} (hs₀ : Reached s₀ us) {u₀ : Usage ν}
    (hregistry : registry.IsBuiltIn) (hload : (load usageId bank registry s₀).result = .ok u₀)
    (h : Served u₀ s₀ u s) : Spared usageId u₀ s₀ u s := by
  obtain ⟨row, hrow, hrowId, hid, -, hpending, -⟩ := Usage.of_load hload
  induction h with
  | loaded =>
    refine ⟨⟨_, hs₀.load hload, List.mem_cons_self⟩, ⟨rfl, .refl Attempt.Carried.refl _, ?_⟩,
      fun _ _ _ => .refl _ _ _, headed_of_load hs₀.nodup_attempts hregistry hload,
      fun r hr => .inl hr, row, hrow, hrowId⟩
    intro slot name _
    rw [hpending]
    rfl
  | operation _ ho ih =>
    obtain ⟨us, hreached, hu⟩ := ih.reached
    exact ⟨⟨_, hreached.operation hu _, List.mem_cons_self⟩, ih.carried.operation ho, ih.retains,
      ih.headed, ih.questions, ih.has⟩
  | save _ ih => exact ih.save (Usage.identified_of_load hs₀.nodup_attempts hload) hid

/-! ## Nothing is lost -/

/-- Nothing is lost of an attempt that is stored in a row and whose behaviour is missing.  It has the steps
that were stored, in memory and in the tables, and comments at most after them, and no regrade replays
it. -/
structure LosesNothing (slot : Nat) (a : Attempt ν) (r : AttemptRow ν) (s₀ : Store ν) (u : Usage ν)
    (s : Store ν) : Prop where
  attempt : ∃ a' later, u.attempts.get? slot = some a' ∧ a'.id = a.id ∧ a'.question = a.question ∧
    a'.behaviour = some (.missing r.behaviour) ∧ a'.steps = a.steps ++ later ∧
    ∀ step ∈ later, step.vars.hasBehaviour "comment" = true
  stored : s₀.tables.Retains r.id a.steps.length s.tables
  regrade : ∀ maxMark draw, (Usage.regrade slot maxMark draw u).result =
      .error (.cannotRegrade r.behaviour) ∧ (Usage.regrade slot maxMark draw u).state = u
  regradeAll : ∀ draws, ∃ name, (Usage.regradeAll draws u).result = .error (.cannotRegrade name) ∧
    (Usage.regradeAll draws u).state = u

namespace Spared

variable {u₀ : Usage ν} {s₀ : Store ν}

/-- Nothing is lost of an attempt whose behaviour was missing when it was loaded. -/
lemma losesNothing (h : Spared usageId u₀ s₀ u s) {slot : Nat} {a : Attempt ν} {r : AttemptRow ν}
    (ha : u₀.attempts.get? slot = some a) (hid : a.id = some r.id)
    (hb : a.behaviour = some (.missing r.behaviour)) : LosesNothing slot a r s₀ u s := by
  obtain ⟨a', ha', hcarried⟩ := h.carried.attempts.get?_eq_some ha
  obtain ⟨later, hlater, hcomments⟩ := hcarried.comments _ hb
  have hbehaviour : a'.behaviour = some (.missing r.behaviour) := hcarried.behaviour.trans hb
  have hmissing : u.IsMissing slot r.behaviour := ⟨a', ha', hbehaviour⟩
  refine ⟨⟨a', later, ha', hcarried.id, hcarried.question, hbehaviour, hlater, hcomments⟩,
    h.retains r.id a ⟨slot, _, ha, hid, hb⟩, Usage.regrade_of_missing hmissing, fun draws => ?_⟩
  obtain ⟨-, name, -, hresult, hstate⟩ := Usage.regradeAll_of_missing hmissing draws
  exact ⟨name, hresult, hstate⟩

/-- A load with the behaviours that are built in finds the attempts that were loaded at first, under
behaviours with the stored names. -/
lemma headed_load (h : Spared usageId u₀ s₀ u s) {bank' : Bank ν} {v : Usage ν}
    (hv : (load usageId bank' Registry.standard s).result = .ok v) (slot : Nat) :
    (v.attempts.get? slot).map Attempt.label = (u₀.attempts.get? slot).map Attempt.label := by
  obtain ⟨us, hreached, -⟩ := h.reached
  rw [← headed_of_load hreached.nodup_attempts Registry.isBuiltIn_standard hv, h.headed]

/-- If the bank knows the questions by their ids, it knows those of all rows. -/
lemma exists_load (h : Spared usageId u₀ s₀ u s) (hnodup : (s₀.tables.attempts.map AttemptRow.id).Nodup)
    (hload : (load usageId bank registry s₀).result = .ok u₀) (hbank : bank.IsKeyed)
    (registry' : Registry) : ∃ v, (load usageId bank registry' s).result = .ok v := by
  obtain ⟨us, hreached, -⟩ := h.reached
  obtain ⟨owner, hs, -⟩ := hreached.owned
  obtain ⟨row, hrow⟩ : ∃ row, (s.tables.usages.find? fun row => row.id == usageId) = some row := by
    obtain ⟨row, hmem, hid⟩ := h.has
    exact Option.isSome_iff_exists.1 (List.find?_isSome.2 ⟨row, hmem, beq_iff_eq.2 hid⟩)
  refine exists_load_of_questions hreached.nodup_attempts hs.backend hrow (fun r hr => ?_) registry'
  obtain hr | ⟨slot, a, ha, hr⟩ := h.questions r hr
  · exact exists_question_of_load hnodup hload hr
  · obtain ⟨r', -, hmake⟩ := exists_row_of_load hnodup hload ha
    obtain ⟨-, -, -, -, hquestion, -⟩ := AttemptRow.of_loaded hmake
    rw [hr, hbank.id_of_questions hquestion]
    exact ⟨_, hquestion⟩

end Spared

/-- A usage is loaded with some of the behaviours that are built in and served from then on.  Nothing is
lost of an attempt whose behaviour is missing, and no attempt loses the name of its behaviour: with all
behaviours a load finds the attempts in their slots under the names that were stored.  It succeeds if
the bank knows its questions by their ids. -/
theorem missing_loses_nothing {s₀ : Store ν} {us : List (Usage ν)} (hs₀ : Reached s₀ us) {u₀ : Usage ν}
    (hregistry : registry.IsBuiltIn) (hload : (load usageId bank registry s₀).result = .ok u₀)
    (h : Served u₀ s₀ u s) :
    (∀ slot a, u₀.attempts.get? slot = some a → ∃ r ∈ s₀.tables.attempts,
      r.usageId = usageId ∧ r.slot = slot ∧ a.id = some r.id ∧
      (registry.get? r.behaviour = none → LosesNothing slot a r s₀ u s) ∧
      ∀ bank' v, (load usageId bank' Registry.standard s).result = .ok v → ∃ b,
        v.attempts.get? slot = some b ∧ b.id = some r.id ∧
        b.behaviour.map Behaviour.name = some r.behaviour) ∧
    (∀ bank' v, (load usageId bank' Registry.standard s).result = .ok v → v.slots = u₀.slots) ∧
    (bank.IsKeyed → ∃ v, (load usageId bank Registry.standard s).result = .ok v) := by
  have hspared := h.spared hs₀ hregistry hload
  refine ⟨fun slot a ha => ?_, fun bank' v hv => SortedMap.keys_eq_of_isSome fun slot => ?_,
    fun hbank => hspared.exists_load hs₀.nodup_attempts hload hbank _⟩
  · obtain ⟨r, hr, hmake⟩ := exists_row_of_load hs₀.nodup_attempts hload ha
    obtain ⟨hmem, hslot⟩ := of_lastRow hr
    obtain ⟨hmem, husage⟩ := List.mem_filter.1 hmem
    obtain ⟨question, -, rfl⟩ := AttemptRow.loaded_eq_some_iff.1 hmake
    refine ⟨r, hmem, beq_iff_eq.1 husage, hslot, rfl, fun hnone => ?_, fun bank' v hv => ?_⟩
    · refine hspared.losesNothing ha rfl ?_
      simp [Attempt.observedBy, Attempt.ofRow, Registry.makeOrMissing, hnone]
    · have hlabel := hspared.headed_load hv slot
      rw [ha, Option.map_some] at hlabel
      obtain ⟨b, hb, hlabel⟩ := Option.map_eq_some_iff.1 hlabel
      refine ⟨b, hb, congrArg Prod.fst hlabel, (congrArg Prod.snd hlabel).trans ?_⟩
      simp [Attempt.label, Attempt.observedBy, Attempt.ofRow, hregistry.name_makeOrMissing]
  · have hlabel := congrArg Option.isSome (hspared.headed_load hv slot)
    simpa using hlabel

/-- A statement under the interactive behaviour and an essay are loaded where only manual grading is on
offer.  Both are commented on and saved, and with all behaviours the statement is interactive again. -/
theorem missing_loses_nothing_commented :
    let statement : Question Float := .trueFalse (TrueFalse.new "tf" "The sky is blue" true)
    let essay : Question Float := .essay (Essay.new "es" "Why is the sky blue?")
    let blank : Usage Float := ⟨.ephemeral "t", "quiz", "course", "interactive", SortedMap.empty,
      Registry.standard, none⟩
    let started := (Usage.Operation.startAll ⟨0⟩ none fun _ => ⟨0, 0⟩).after
      ((Usage.Operation.add essay none).after ((Usage.Operation.add statement none).after blank))
    let stored := (Store.save (started, Store.empty .memory)).state
    let bank : Bank Float := .memory (SortedMap.ofList [("tf", statement), ("es", essay)])
    let manual : Registry := SortedMap.ofList [("manualgraded", .manual)]
    let comment (slot : Nat) : Usage.Operation Float := .grade slot "Think again" none ⟨1000⟩ none
    ∃ w a r, (load stored.1.id.text bank manual stored.2).result = .ok w ∧
      w.attempts.get? 1 = some a ∧ r.behaviour = "interactive" ∧
      let commented := (comment 2).after ((comment 1).after w)
      let saved := (Store.save (commented, stored.2)).state
      stored.2.tables.steps.length = 2 ∧ saved.2.tables.steps.length = 4 ∧
      LosesNothing 1 a r stored.2 saved.1 saved.2 ∧
      ∃ v b, (load stored.1.id.text bank Registry.standard saved.2).result = .ok v ∧
        v.attempts.get? 1 = some b ∧ b.behaviour.map Behaviour.name = some "interactive" := by
  intro statement essay blank started stored bank manual comment
  have hnew : Usage.new "t" "quiz" "course" "interactive" Registry.standard = .ok blank := rfl
  obtain ⟨us, hstarted⟩ : ∃ us, Reached (Store.empty .memory) (started :: us) :=
    ⟨_, .operation (.operation (.operation (.make .empty hnew) List.mem_cons_self _)
      List.mem_cons_self _) List.mem_cons_self _⟩
  have hstored : Reached stored.2 (stored.1 :: started :: us) := hstarted.save List.mem_cons_self
  have hmanual : manual.IsBuiltIn := fun name factory hfactory => by
    obtain ⟨rfl, rfl⟩ : name = "manualgraded" ∧ factory = .manual := by
      simpa using SortedMap.mem_of_get?_ofList hfactory
    decide
  have hbank : bank.IsKeyed := fun id q hq => by
    have hmem := SortedMap.mem_of_get?_ofList hq
    simp only [List.mem_cons, Prod.mk.injEq, List.not_mem_nil, or_false] at hmem
    obtain ⟨rfl, rfl⟩ | ⟨rfl, rfl⟩ := hmem <;> rfl
  have hbackend : stored.2.backend = .memory := by decide +kernel
  have hrow : stored.2.tables.usages.find? (fun r => r.id == stored.1.id.text) =
      some ⟨stored.1.id.text, "quiz", "course", "interactive"⟩ := by decide +kernel
  have hbehaviours : ∀ r ∈ stored.2.tables.attempts, r.slot = 1 → r.behaviour = "interactive" := by
    decide +kernel
  obtain ⟨w, hload, hslot, hlength⟩ : ∃ w,
      (load stored.1.id.text bank manual stored.2).result = .ok w ∧
      (w.attempts.get? 1).isSome = true ∧
      (Store.save ((comment 2).after ((comment 1).after w), stored.2)).state.2.tables.steps.length =
        4 := by
    rw [Usage.load_of_pairwise hbackend hrow (by decide +kernel)]
    exact Usage.exists_ok_of_any (by decide +kernel)
  obtain ⟨a, ha⟩ := Option.isSome_iff_exists.1 hslot
  have hserved : Served w stored.2
      (Store.save ((comment 2).after ((comment 1).after w), stored.2)).state.1
      (Store.save ((comment 2).after ((comment 1).after w), stored.2)).state.2 :=
    .save (.operation (.operation .loaded rfl) rfl)
  obtain ⟨hattempts, -, hloads⟩ := missing_loses_nothing hstored hmanual hload hserved
  obtain ⟨r, hr, -, hrslot, -, hlosesNothing, hnames⟩ := hattempts 1 a ha
  have hbehaviour := hbehaviours r hr hrslot
  obtain ⟨v, hv⟩ := hloads hbank
  obtain ⟨b, hb, -, hname⟩ := hnames bank v hv
  refine ⟨w, a, r, hload, ha, hbehaviour, by decide +kernel, hlength, hlosesNothing ?_, v, b, hv, hb,
    hname.trans (congrArg some hbehaviour)⟩
  rw [hbehaviour]
  decide +kernel

end Store
end Assessment
