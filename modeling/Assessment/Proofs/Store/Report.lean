import Assessment.Command.Ids
import Assessment.Proofs.Store.Reread

/-!
# The report of a regrade

A regrade compares the usage that it loaded with what the replays left, before this is saved.  The
report is about the store all the same: a load before the regrade gives the old states and marks,
and a load after it the new ones (`Store.regrade_tells`).  For the state and the mark of an attempt
come from its steps without their variables, and these are what a load finds
(`Store.Regrading.read_started`).

A regrade that fails leaves the store as it was, however many slots were replayed before.
-/

namespace Assessment

variable {ν : Type} [Scalar ν]

/-! ## What a report says -/

/-- A report about a usage is true when a load gave one usage before and gives another one now. -/
structure UsageRegrade.Tells (report : UsageRegrade ν) (usageId : String) (u v : Usage ν) :
    Prop where
  usageId : report.usageId = usageId
  ascending : (report.slots.map SlotRegrade.slot).Pairwise (· < ·)
  listed : ∀ slot, slot ∈ report.slots.map SlotRegrade.slot ↔
    ∃ a, u.attempts.get? slot = some a ∧ a.steps ≠ []
  old : ∀ r ∈ report.slots, ∃ a, u.attempts.get? r.slot = some a ∧ r.oldState = a.state ∧
    r.oldMark = a.mark
  new : ∀ r ∈ report.slots, ∃ b, v.attempts.get? r.slot = some b ∧ r.newState = b.state ∧
    r.newMark = b.mark
  slots : v.slots = u.slots
  attempts : ∀ {slot a}, u.attempts.get? slot = some a → ∃ b, v.attempts.get? slot = some b ∧
    b.id = a.id ∧ b.slot = a.slot ∧ b.flagged = a.flagged ∧ b.maxMark = a.maxMark

omit [Scalar ν] in
/-- The states and the marks of attempts agree when their steps do but for variables. -/
lemma Attempt.state_eq_of_bare {a b : Attempt ν}
    (h : b.steps.map Step.bare = a.steps.map Step.bare) : b.state = a.state ∧ b.fraction = a.fraction := by
  have hlast : b.last?.map Step.bare = a.last?.map Step.bare := by
    rw [last?, last?, ← List.getLast?_map, ← List.getLast?_map, h]
  unfold state fraction
  cases hb : b.last? with
  | none =>
    rw [hb, Option.map_none, eq_comm, Option.map_eq_none_iff] at hlast
    simp [hlast]
  | some step =>
    rw [hb, Option.map_some, eq_comm] at hlast
    obtain ⟨step', ha, hbare⟩ := Option.map_eq_some_iff.1 hlast
    rw [ha]
    exact ⟨(congrArg Step.state hbare).symm, (congrArg Step.fraction hbare).symm⟩

/-! ## The comparison -/

/-- The comparison goes through the slots of started attempts. -/
lemma UsageRegrade.slots_compare {u : Usage ν} (hu : u.Sound) (w : Usage ν) (usageId : String) :
    (compare usageId u w).slots = u.slots.filterMap fun slot =>
      (u.started? slot).bind fun a => (w.attempts.get? slot).map (SlotRegrade.of slot a) := by
  show (u.started.filterMap fun a => (w.attempts.get? a.slot).map (SlotRegrade.of a.slot a)) = _
  rw [← Usage.filterMap_started?, List.filterMap_filterMap]
  refine List.filterMap_congr fun slot _ => ?_
  cases ha : u.started? slot with
  | none => rfl
  | some a =>
    rw [Option.bind_some, Option.bind_some, hu.slot (Usage.started?_eq_some_iff.1 ha).1]

/-- A slot that is reported had a started attempt, and has one that came from it. -/
lemma UsageRegrade.of_mem_compare {u w : Usage ν} (hu : u.Sound) {usageId : String}
    {r : SlotRegrade ν} (hr : r ∈ (compare usageId u w).slots) :
    ∃ a b, u.attempts.get? r.slot = some a ∧ a.steps ≠ [] ∧ w.attempts.get? r.slot = some b ∧
      r = SlotRegrade.of r.slot a b := by
  rw [slots_compare hu, List.mem_filterMap] at hr
  obtain ⟨slot, -, hr⟩ := hr
  obtain ⟨a, ha, hr⟩ := Option.bind_eq_some_iff.1 hr
  obtain ⟨b, hb, rfl⟩ := Option.map_eq_some_iff.1 hr
  obtain ⟨ha, hsteps⟩ := Usage.started?_eq_some_iff.1 ha
  exact ⟨a, b, ha, hsteps, hb, rfl⟩

/-- The reported slots are those of started attempts. -/
lemma UsageRegrade.map_slot_compare {u w : Usage ν} (hu : u.Sound)
    (h : u.attempts.Matches Attempt.SamePlace w.attempts) (usageId : String) :
    (compare usageId u w).slots.map SlotRegrade.slot = u.startedSlots := by
  rw [slots_compare hu, List.map_filterMap, Usage.startedSlots, ← List.filterMap_eq_filter]
  refine List.filterMap_congr fun slot _ => ?_
  cases ha : u.attempts.get? slot with
  | none => simp [Usage.started?, ha, Option.guard]
  | some a =>
    obtain ⟨b, hb, -⟩ := h.get?_eq_some ha
    cases hsteps : a.steps.isEmpty <;>
      simp [Usage.started?, ha, hb, hsteps, Option.guard, Option.filter, SlotRegrade.of]

namespace Store

/-! ## Regrades of stored usages -/

/-- A regrade that went through is that of a loaded usage. -/
lemma Reached.regrading {s : Store ν} {us : List (Usage ν)} (h : Reached s us) {usageId : String}
    {bank : Bank ν} {registry : Registry} {draws : Nat → Draw} {u w : Usage ν}
    (hload : (Store.load usageId bank registry s).result = .ok u)
    (hw : (Usage.regradeAll draws u).state = w) (hreplaced : u.Replaced draws u.startedSlots w) :
    s.Regrading usageId bank registry u w := by
  have hsound := Usage.sound_of_load hload
  obtain ⟨-, -, -, hid, -⟩ := Usage.of_load hload
  refine
    { nodup := h.nodup_attempts
      load := hload
      renewed := Usage.renewed_of_load hload hreplaced
      id := by rw [← hid, ← hreplaced.frame]
      sound := ?_
      samePlace := hreplaced.samePlace hsound }
  rw [← hw]
  exact ((Usage.Operation.regradeAll draws).after_steps u).sound hsound

/-- The report of a regrade is true. -/
lemma Regrading.tells {s : Store ν} {usageId : String} {bank : Bank ν} {registry : Registry}
    {u w v : Usage ν} (h : s.Regrading usageId bank registry u w)
    (hv : (Store.load usageId bank registry (s.renew w.started)).result = .ok v)
    (hstarted : ∀ {slot a b}, u.attempts.get? slot = some a → a.steps ≠ [] →
      w.attempts.get? slot = some b → b.steps ≠ []) :
    (UsageRegrade.compare usageId u w).Tells usageId u v := by
  have hsound := Usage.sound_of_load h.load
  have hslots := UsageRegrade.map_slot_compare hsound h.samePlace usageId
  refine
    { usageId := rfl
      ascending := by rw [hslots]; exact u.pairwise_slots.filter _
      listed := fun slot => by rw [hslots, Usage.mem_startedSlots]
      old := fun r hr => ?_
      new := fun r hr => ?_
      slots := h.slots_eq hv
      attempts := fun {slot a} ha => ?_ }
  · obtain ⟨a, b, ha, -, -, hreported⟩ := UsageRegrade.of_mem_compare hsound hr
    rw [hreported]
    exact ⟨a, ha, rfl, rfl⟩
  · obtain ⟨a, b, ha, hsteps, hb, hreported⟩ := UsageRegrade.of_mem_compare hsound hr
    obtain ⟨b', hb', -, -, -, hmark, hbare⟩ := h.read_started hv hb (hstarted ha hsteps hb)
    obtain ⟨hstate, hfraction⟩ := Attempt.state_eq_of_bare hbare
    rw [hreported]
    refine ⟨b', hb', hstate.symm, ?_⟩
    rw [Attempt.mark, hfraction, hmark]
    rfl
  · obtain ⟨b, hb, hplace⟩ := h.samePlace.get?_eq_some ha
    obtain ⟨b', hb', hid, hslot, hflagged, hmark⟩ := h.read hv hb
    exact ⟨b', hb', hid.trans hplace.id, hslot.trans (hsound.slot ha).symm,
      hflagged.trans hplace.flagged, hmark.trans hplace.maxMark⟩

/-- A regrade that fails leaves the store as it was.  One that succeeds reports what a load gave before
it and what a load gives after it, if the bank gives questions under their own ids. -/
theorem regrade_tells {s : Store ν} {us : List (Usage ν)} (h : Reached s us) (usageId : String)
    (bank : Bank ν) (registry : Registry) (draws : Nat → Draw) :
    let run := regrade usageId bank registry draws s
    (∀ f, run.result = .error f → run.state = s) ∧
    (bank.IsKeyed → ∀ report, run.result = .ok report → ∃ u v,
      (load usageId bank registry s).result = .ok u ∧
      (load usageId bank registry run.state).result = .ok v ∧ report.Tells usageId u v) := by
  intro run
  obtain ⟨f, -, herror, hsame⟩ | ⟨u, hload, ⟨e, -, herror, hsame⟩ |
    ⟨w, -, hw, hreplaced, hok, hstate⟩⟩ := regrade_spec usageId bank registry draws s
  · refine ⟨fun _ _ => hsame, fun _ report hr => ?_⟩
    cases herror.symm.trans hr
  · refine ⟨fun _ _ => hsame, fun _ report hr => ?_⟩
    cases herror.symm.trans hr
  · refine ⟨fun f hr => ?_, fun hbank report hr => ?_⟩
    · cases hok.symm.trans hr
    · obtain rfl := Except.ok.inj (hok.symm.trans hr)
      have hregrading := h.regrading hload hw hreplaced
      obtain ⟨v, hv⟩ := hregrading.exists_load hbank
      refine ⟨u, v, hload, hstate ▸ hv, hregrading.tells hv fun {slot a b} ha hsteps hb => ?_⟩
      -- a replay starts the attempt anew
      obtain ⟨old, -, hreplay, hnew⟩ := hreplaced.replayed slot
        (Usage.mem_startedSlots.2 ⟨a, ha, hsteps⟩)
      obtain rfl := Option.some.inj (hb.symm.trans hnew)
      exact (Usage.replacement_spec hreplay).2

/-- A statement is judged rightly, and a wrong choice is given half a mark less than nothing by a
person.  Then the answer to the statement is changed.  A regrade reports that the judgement is wrong
now, which a load gives too.  When the wrong choice is made to cost nothing as well, its mark is out
of range, and the regrade fails and leaves the store, although the judgement was replayed before. -/
theorem regrade_tells_example :
    let statement (right : Bool) : Question (Exact .decimal) :=
      .trueFalse (TrueFalse.new "tf" "The sky is blue" right)
    let choice (wrong : ℚ) : Question (Exact .decimal) :=
      .multiChoice (MultiChoice.new "mc" "Pick the prime"
        [⟨"4", .rational wrong, none⟩, ⟨"7", .rational 1, none⟩])
    let draws : Nat → Draw := fun _ => ⟨0, 0⟩
    let blank : Usage (Exact .decimal) := ⟨.ephemeral "t", "quiz", "course", "immediatefeedback",
      SortedMap.empty, Registry.standard, none⟩
    let added := (Usage.Operation.add (choice (-1 / 2)) none).after
      ((Usage.Operation.add (statement true) none).after blank)
    let started := (Usage.Operation.startAll ⟨0⟩ none draws).after added
    let first := (Store.save (started, Store.empty .memory)).state
    let judged := (Usage.Operation.act 1 (SortedMap.ofList [("answer", "1"), ("-submit", "1")])
      ⟨1000⟩ none).after first.1
    let chosen := (Usage.Operation.act 2 (SortedMap.ofList [("answer", "0"), ("-submit", "1")])
      ⟨2000⟩ none).after judged
    let marked := (Usage.Operation.grade 2 "No prime" (some (.rational (-1 / 2))) ⟨3000⟩ none).after
      chosen
    let saved := (Store.save (marked, first.2)).state
    let bank (wrong : ℚ) : Bank (Exact .decimal) :=
      .memory (SortedMap.ofList [("tf", statement false), ("mc", choice wrong)])
    let run (wrong : ℚ) :=
      Store.regrade saved.1.id.text (bank wrong) Registry.standard draws saved.2
    (∃ report u v, (run (-1 / 2)).result = .ok report ∧
      report.slots.map (fun r => (r.slot, r.oldState, r.newState)) =
        [(1, .gradedCorrect, .gradedWrong), (2, .manualGradedWrong, .manualGradedWrong)] ∧
      (load saved.1.id.text (bank (-1 / 2)) Registry.standard saved.2).result = .ok u ∧
      (load saved.1.id.text (bank (-1 / 2)) Registry.standard (run (-1 / 2)).state).result = .ok v ∧
      report.Tells saved.1.id.text u v) ∧
    ∃ f, (run 0).result = .error f ∧ (run 0).state = saved.2 := by
  intro statement choice draws blank added started first judged chosen marked saved bank run
  have hnew : Usage.new "t" "quiz" "course" "immediatefeedback" Registry.standard = .ok blank := rfl
  have hbank : ∀ wrong, (bank wrong).IsKeyed := fun wrong id q hq => by
    have hmem := SortedMap.mem_of_get?_ofList hq
    simp only [List.mem_cons, Prod.mk.injEq, List.not_mem_nil, or_false] at hmem
    obtain ⟨rfl, rfl⟩ | ⟨rfl, rfl⟩ := hmem <;> rfl
  obtain ⟨us, hstarted⟩ : ∃ us, Reached (Store.empty .memory) (started :: us) :=
    ⟨_, .operation (.operation (.operation (.make .empty hnew) List.mem_cons_self _)
      List.mem_cons_self _) List.mem_cons_self _⟩
  have hfirst : Reached first.2 (first.1 :: started :: us) := hstarted.save List.mem_cons_self
  obtain ⟨vs, hmarked⟩ : ∃ vs, Reached first.2 (marked :: vs) :=
    ⟨_, .operation (.operation (.operation hfirst List.mem_cons_self _) List.mem_cons_self _)
      List.mem_cons_self _⟩
  have hsaved : Reached saved.2 (saved.1 :: marked :: vs) := hmarked.save List.mem_cons_self
  have hbackend : saved.2.backend = .memory := by decide +kernel
  have hrow : saved.2.tables.usages.find? (fun r => r.id == saved.1.id.text) =
      some ⟨saved.1.id.text, "quiz", "course", "immediatefeedback"⟩ := by decide +kernel
  have hloaded : ∀ wrong, load saved.1.id.text (bank wrong) Registry.standard saved.2 = _ :=
    fun wrong => Usage.load_of_pairwise hbackend hrow (by decide +kernel)
  obtain ⟨report, hok, hslots⟩ : ∃ report, (run (-1 / 2)).result = .ok report ∧
      report.slots.map (fun r => (r.slot, r.oldState, r.newState)) =
        [(1, .gradedCorrect, .gradedWrong), (2, .manualGradedWrong, .manualGradedWrong)] := by
    simp only [run, result_regrade, hloaded]
    exact Usage.exists_ok_of_any (by decide +kernel)
  have hfails : (run 0).result.isOk = false := by
    simp only [run, result_regrade, hloaded]
    decide +kernel
  obtain ⟨f, hf⟩ : ∃ f, (run 0).result = .error f := by
    cases hr : (run 0).result with
    | ok r => simp [hr, Except.isOk, Except.toBool] at hfails
    | error f => exact ⟨f, rfl⟩
  obtain ⟨u, v, hu, hv, htells⟩ := (regrade_tells hsaved _ _ _ _).2 (hbank _) report hok
  exact ⟨⟨report, u, v, hok, hslots, hu, hv, htells⟩, f, hf,
    (regrade_tells hsaved _ _ _ _).1 f hf⟩

end Store
end Assessment
