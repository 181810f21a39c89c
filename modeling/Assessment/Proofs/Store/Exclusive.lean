import Assessment.Command.Ids
import Assessment.Proofs.Store.Intact
import Assessment.Proofs.Store.Outline
import Assessment.Store.Regrade

/-!
# Stores with exclusive owners

A store is used exclusively (`Store.Exclusive`) when every stored usage is changed through one handle at
a time: who loads a usage has it alone until it is released, and a usage is deleted or regraded when
nobody has it.  Everything else is as it may be.  Operations may fail, and saves may; questions may have
changed by the time of a load, and behaviours may be missing; marks may be set in the tables under a
handle.  So a handle and the rows need not agree on more than the outline of the usage, and this is what
the invariant is about (`Store.Tended`).

The tables of such a store are intact at every point (`Store.tables_stay_intact`).
-/

namespace Assessment

variable {ν : Type} [Scalar ν]

/-! ## Outlines in memory and in the tables -/

namespace Usage

/-- The outline of a usage whose started attempts have steps. -/
structure IsTended (u : Usage ν) : Prop where
  hasSteps : u.HasSteps
  outline : u.outline = u

end Usage

/-- Whether tables are intact can be told from their outline. -/
lemma Tables.Intact.of_outline {t : Tables ν} (h : t.outline.Intact) : t.Intact where
  usages := h.usages
  attempts := by simpa [Tables.outline, AttemptRow.outline, Function.comp_def] using h.attempts
  steps := h.steps
  usageOf := fun r hr => (h.usageOf r.outline (List.mem_map.2 ⟨r, hr, rfl⟩) :)
  attemptOf := by
    intro r hr
    obtain ⟨a', ha', hid⟩ := h.attemptOf r hr
    obtain ⟨a, ha, rfl⟩ := List.mem_map.1 ha'
    exact ⟨a, ha, hid⟩
  stepOf := h.stepOf
  slots := by simpa [Tables.outline, AttemptRow.outline, Function.comp_def] using h.slots
  places := fun a ha => (h.places a.outline (List.mem_map.2 ⟨a, ha, rfl⟩) :)
  vars := h.vars

namespace Store

/-! ## Regrading a stored usage -/

omit [Scalar ν] in
/-- A load leaves the store as it is. -/
lemma state_load (usageId : String) (bank : Bank ν) (registry : Registry) (s : Store ν) :
    (load usageId bank registry s).state = s := by
  have hrows : ∀ (preferred : String) (steps : List (String × Step ν)) (rows : List (AttemptRow ν)),
      (Tables.attemptsOfRows bank registry preferred steps rows s).state = s := by
    intro preferred steps rows
    induction rows generalizing steps with
    | nil => rfl
    | cons row rest ih =>
      refine Op.bind_keeps (P := fun s' => s' = s) ?_ fun question hquestion => ?_
      · unfold Tables.questionOfRow Op.mapFailure Bank.question
        cases bank with
        | memory questions =>
          simp only
          cases questions.get? row.questionId <;> rfl
        | unreachable => rfl
      · rw [hquestion]
        exact Op.bind_keeps (P := fun s' => s' = s) (ih _) fun _ hstate => hstate
  unfold load
  split
  · rfl
  · split
    · rfl
    · exact Op.bind_keeps (P := fun s' => s' = s) (hrows _ _ _) fun _ hstate => hstate

/-- Regrading leaves the store, or it is a load, a regrade of what was loaded, and a save. -/
lemma regrade_cases (usageId : String) (bank : Bank ν) (registry : Registry) (draws : Nat → Draw)
    (s : Store ν) : (regrade usageId bank registry draws s).state = s ∨
      ∃ u, (load usageId bank registry s).result = .ok u ∧
        (regrade usageId bank registry draws s).state =
          (save ((Usage.Operation.regradeAll draws).after u, s)).state.2 := by
  unfold regrade Op.bind Op.mapFailure
  simp only [state_load]
  cases (load usageId bank registry s).result with
  | error e => exact .inl rfl
  | ok u =>
    simp only [Except.mapError]
    cases hregrade : (Usage.regradeAll draws u).result with
    | error e => exact .inl rfl
    | ok _ => exact .inr ⟨u, rfl, rfl⟩

/-! ## Runs -/

/-- The stores that are reached from an empty one in memory, with the usages in memory, when each
stored usage is changed through one of them at a time.  The usage that a move is about stands first. -/
inductive Exclusive : Store ν → List (Usage ν) → Prop
  | empty [IdSource] : Exclusive (Store.empty .memory) []
  | make {s : Store ν} {us : List (Usage ν)} (h : Exclusive s us)
    {token plugin context preferred : String} {registry : Registry} {u : Usage ν}
    (hu : Usage.new token plugin context preferred registry = .ok u) : Exclusive s (u :: us)
  | load {s : Store ν} {us : List (Usage ν)} (h : Exclusive s us) {usageId : String} {bank : Bank ν}
    {registry : Registry} {u : Usage ν} (hu : (Store.load usageId bank registry s).result = .ok u)
    (hfree : ∀ u' ∈ us, u'.id ≠ .stored usageId) : Exclusive s (u :: us)
  | operation {s : Store ν} {us : List (Usage ν)} {u : Usage ν} (h : Exclusive s (u :: us))
    (o : Usage.Operation ν) : Exclusive s (o.after u :: us)
  | save {s : Store ν} {us : List (Usage ν)} {u : Usage ν} (h : Exclusive s (u :: us)) :
    Exclusive (Store.save (u, s)).state.2 ((Store.save (u, s)).state.1 :: us)
  | abort {s : Store ν} {us : List (Usage ν)} {u : Usage ν} (h : Exclusive s (u :: us))
    {plan : Plan ν} (hok : (Usage.prepare (u, s.supply)).result = .ok plan) :
    Exclusive { s with supply := (Usage.prepare (u, s.supply)).state.2 }
      ((Usage.prepare (u, s.supply)).state.1.abort plan :: us)
  | release {s : Store ν} {us : List (Usage ν)} {u : Usage ν} (h : Exclusive s (u :: us)) :
    Exclusive s us
  | turn {s : Store ν} {us us' : List (Usage ν)} (h : Exclusive s us) (hperm : us.Perm us') :
    Exclusive s us'
  | regrade {s : Store ν} {us : List (Usage ν)} (h : Exclusive s us) (usageId : String) (bank : Bank ν)
    (registry : Registry) (draws : Nat → Draw) (hfree : ∀ u ∈ us, u.id ≠ .stored usageId) :
    Exclusive (Store.regrade usageId bank registry draws s).state us
  | delete {s : Store ν} {us : List (Usage ν)} (h : Exclusive s us) (usageId : String)
    (hfree : ∀ u ∈ us, u.id ≠ .stored usageId) : Exclusive (Store.delete usageId s).state us
  | setMaxMark {s : Store ν} {us : List (Usage ν)} (h : Exclusive s us) (usageIds : List String)
    (slot : Nat) (m : ν) : Exclusive (Store.setMaxMark usageIds slot m s).state us

/-! ## The invariant -/

/-- Outlines of usages are held apart. -/
def Tended (owner : String → String) (s : Store ν) (us : List (Usage ν)) : Prop :=
  Holds Usage.IsTended owner s.outline (us.map Usage.outline)

namespace Tended

variable {owner : String → String} {s : Store ν} {us us' : List (Usage ν)} {u : Usage ν}

lemma backend (h : Tended owner s us) : s.backend = .memory := h.store.backend

lemma tail (h : Tended owner s (u :: us)) : Tended owner s us := Holds.tail h

/-- Ids were issued and not used. -/
lemma supply (h : Tended owner s us) {supply : Supply} (hle : s.supply ≤ supply) :
    Tended owner { s with supply := supply } us := Holds.supply h hle

lemma make (h : Tended owner s us) {token plugin context preferred : String} {registry : Registry}
    (hu : Usage.new token plugin context preferred registry = .ok u) : Tended owner s (u :: us) := by
  have howned : u.outline.Owned owner s.outline.supply :=
    Usage.owned_outline.2 (Usage.owned_of_new hu owner _)
  refine Holds.make h (Usage.unsaved_of_new hu).outline howned ⟨?_, u.outline_outline⟩
  rw [Usage.eq_of_new hu]
  intro slot a ha
  simp [Usage.outline] at ha

/-- Whatever the bank and the behaviours on offer, a load gives the outline that is stored. -/
lemma outline_of_load {g : Usage ν} {usageId : String} (hg : g.Saved s.outline.tables)
    (hid : g.id = .stored usageId) (houtline : g.outline = g) (hbackend : s.backend = .memory)
    {bank : Bank ν} {registry : Registry}
    (hu : (Store.load usageId bank registry s).result = .ok u) : u.outline = g.reloaded := by
  have hload : (Store.load g.id.text Bank.blank Registry.standard s.outline).result =
      .ok g.reloaded := by
    refine hg.load_eq hbackend fun ha => ?_
    rw [← houtline] at ha
    obtain ⟨a, -, rfl⟩ := Usage.get?_outline.1 ha
    exact SortedMap.get?_insert_self _ _ _
  rw [hid] at hload
  exact Except.ok.inj ((Store.load_outline hu).symm.trans hload)

/-- What is loaded is stored, in outline. -/
lemma saved_of_load (h : Tended owner s us) {usageId : String} {bank : Bank ν}
    {registry : Registry} (hu : (Store.load usageId bank registry s).result = .ok u) :
    u.outline.Saved s.outline.tables ∧ u.outline.HasSteps := by
  obtain ⟨row, hrow, hrowId, -⟩ := Usage.of_load hu
  obtain ⟨g, hid, hg, hsteps, houtline⟩ := h.saved usageId ⟨row, hrow, hrowId⟩
  rw [outline_of_load hg hid houtline h.backend hu]
  exact ⟨hg.reloaded, hsteps.reloaded⟩

lemma load (h : Tended owner s us) {usageId : String} {bank : Bank ν} {registry : Registry}
    (hu : (Store.load usageId bank registry s).result = .ok u)
    (hfree : ∀ u' ∈ us, u'.id ≠ .stored usageId) : Tended owner s (u :: us) := by
  obtain ⟨hsaved, hsteps⟩ := h.saved_of_load hu
  obtain ⟨-, -, -, hid, -, hpending, -⟩ := Usage.of_load hu
  refine Holds.load h hsaved hpending ⟨hsteps, u.outline_outline⟩ fun u' hu' hid' => ?_
  obtain ⟨w, hw, rfl⟩ := List.mem_map.1 hu'
  exact hfree w hw (hid'.trans hid)

lemma operation (h : Tended owner s (u :: us)) (o : Usage.Operation ν) :
    Tended owner s (o.after u :: us) := by
  have howned := Usage.owned_outline.1 (h.owned u.outline List.mem_cons_self)
  obtain ⟨hkept, hsteps⟩ : (o.after u).outline.Kept s.outline ∧ (o.after u).outline.HasSteps := by
    have hkept := h.kept u.outline List.mem_cons_self
    have hsteps := (h.property u.outline List.mem_cons_self).hasSteps
    have hrun := o.after_steps u
    generalize o.after u = u' at hrun
    induction hrun with
    | refl => exact ⟨hkept, hsteps⟩
    | @tail v w _ hstep ih =>
      have hsound := Usage.sound_outline.1 ih.1.sound
      have hchange := (hstep.change hsound).outline
      exact ⟨ih.1.change hchange (Usage.sound_outline.2 (hstep.sound hsound)), ih.2.change hchange⟩
  have hid : (o.after u).id = u.id := Usage.Steps.id_eq (o.after_steps u)
  exact Holds.replace h (Usage.owned_outline.2 (howned.operation o)) hkept
    ⟨hsteps, Usage.outline_outline _⟩ hid

/-- A save that is prepared stores the usage, in outline. -/
lemma saved_save (h : Tended owner s (u :: us)) {plan : Plan ν}
    (hok : (Usage.prepare (u, s.supply)).result = .ok plan) :
    (Usage.prepare (u, s.supply)).state.1.settle.outline.Saved (s.tables.apply plan.write).outline := by
  have hprepare : (Usage.prepare (u.outline, s.outline.supply)).result = .ok plan.outline :=
    (u.prepare_outline s.supply).1.trans (congrArg _ hok)
  obtain ⟨-, -, hsaved⟩ := (h.kept u.outline List.mem_cons_self).saved_save hprepare
  rw [(Store.save_outline u s).2] at hsaved
  obtain ⟨e, he, -⟩ | ⟨plan', hok', -, hstate⟩ := Usage.save_cases (u := u) h.backend
  · rw [hok] at he
    cases he
  · obtain rfl := Except.ok.inj (hok.symm.trans hok')
    rw [hstate] at hsaved
    exact hsaved

lemma save (h : Tended owner s (u :: us)) :
    ∃ owner', Tended owner' (Store.save (u, s)).state.2 ((Store.save (u, s)).state.1 :: us) := by
  obtain ⟨-, hstate⟩ := Store.save_outline u s
  obtain ⟨owner', hsaved⟩ := Holds.save h fun plan hok => by
    have hprepared := (h.property u.outline List.mem_cons_self).hasSteps.prepare hok
    refine ⟨hprepared.settle, ?_⟩
    have hstate : (Usage.prepare (u.outline, s.outline.supply)).state.1 =
        (Usage.prepare (u, s.supply)).state.1.outline := congrArg Prod.fst (u.prepare_outline s.supply).2
    rw [hstate, Usage.outline_settle, Usage.outline_outline]
  refine ⟨owner', ?_⟩
  rw [hstate] at hsaved
  exact hsaved

/-- A save that is prepared and aborted only issues ids. -/
lemma abort (h : Tended owner s (u :: us)) {plan : Plan ν}
    (hok : (Usage.prepare (u, s.supply)).result = .ok plan) :
    Tended owner { s with supply := (Usage.prepare (u, s.supply)).state.2 }
      ((Usage.prepare (u, s.supply)).state.1.abort plan :: us) := by
  have hsound := Usage.sound_outline.1 (h.kept u.outline List.mem_cons_self).sound
  rw [(Usage.prepare_undone hsound s.supply).2 plan hok]
  exact h.supply (u.le_prepare s.supply)

/-- A regrade is a load, operations and a save. -/
lemma regrade (h : Tended owner s us) {usageId : String} (bank : Bank ν) (registry : Registry)
    (draws : Nat → Draw) (hfree : ∀ u ∈ us, u.id ≠ .stored usageId) :
    ∃ owner', Tended owner' (Store.regrade usageId bank registry draws s).state us := by
  obtain hsame | ⟨u, hu, hstate⟩ := regrade_cases usageId bank registry draws s
  · rw [hsame]
    exact ⟨owner, h⟩
  · obtain ⟨owner', hsaved⟩ := ((h.load hu hfree).operation (.regradeAll draws)).save
    rw [hstate]
    exact ⟨owner', hsaved.tail⟩

lemma delete (h : Tended owner s us) {usageId : String} (hfree : ∀ u ∈ us, u.id ≠ .stored usageId) :
    Tended owner (Store.delete usageId s).state us := by
  have hdeleted : Holds Usage.IsTended owner (Store.delete usageId s.outline).state
      (us.map Usage.outline) := Holds.delete h fun u' hu' => by
    obtain ⟨u, hu, rfl⟩ := List.mem_map.1 hu'
    exact hfree u hu
  rw [delete_outline] at hdeleted
  exact hdeleted

/-- Marks are not part of an outline, whether the usage is in memory or not. -/
lemma setMaxMark (h : Tended owner s us) (usageIds : List String) (slot : Nat) (m : ν) :
    Tended owner (Store.setMaxMark usageIds slot m s).state us := by
  have hsame : (Store.setMaxMark usageIds slot m s).state.outline = s.outline := by
    simp only [Store.setMaxMark, h.backend, Store.outline, Tables.setMaxMark_outline]
  unfold Tended
  rw [hsame]
  exact h

/-- The tables are intact. -/
lemma intact (h : Tended owner s us) : s.tables.Intact :=
  Tables.Intact.of_outline (Holds.intact h fun _ hu => hu.hasSteps)

end Tended

namespace Exclusive

variable {s : Store ν} {us : List (Usage ν)}

/-- The invariant of exclusive stores. -/
theorem tended (h : Exclusive s us) : ∃ owner, Tended owner s us := by
  induction h with
  | empty => exact ⟨id, .empty _ id⟩
  | make _ hu ih =>
    obtain ⟨owner, h⟩ := ih
    exact ⟨owner, h.make hu⟩
  | load _ hu hfree ih =>
    obtain ⟨owner, h⟩ := ih
    exact ⟨owner, h.load hu hfree⟩
  | operation _ o ih =>
    obtain ⟨owner, h⟩ := ih
    exact ⟨owner, h.operation o⟩
  | save _ ih =>
    obtain ⟨owner, h⟩ := ih
    exact h.save
  | abort _ hok ih =>
    obtain ⟨owner, h⟩ := ih
    exact ⟨owner, h.abort hok⟩
  | release _ ih =>
    obtain ⟨owner, h⟩ := ih
    exact ⟨owner, h.tail⟩
  | turn _ hperm ih =>
    obtain ⟨owner, h⟩ := ih
    exact ⟨owner, Holds.perm h (hperm.map _)⟩
  | regrade _ usageId bank registry draws hfree ih =>
    obtain ⟨owner, h⟩ := ih
    exact h.regrade bank registry draws hfree
  | delete _ usageId hfree ih =>
    obtain ⟨owner, h⟩ := ih
    exact ⟨owner, h.delete hfree⟩
  | setMaxMark _ usageIds slot m ih =>
    obtain ⟨owner, h⟩ := ih
    exact ⟨owner, h.setMaxMark usageIds slot m⟩

end Exclusive

/-- The tables of a store keep their integrity through first saves and later ones, saves that fail,
regrades, deletions and marks that are set, as long as each stored usage is changed through one handle
at a time. -/
theorem tables_stay_intact {s : Store ν} {us : List (Usage ν)} (h : Exclusive s us) :
    s.tables.Intact := by
  obtain ⟨owner, htended⟩ := h.tended
  exact htended.intact

/-- Two usages are stored, and the second is deleted again.  The first is saved with another step, its
marks are set in the tables, and it is regraded, so that its steps are written anew.  Then a save of an
attempt that was not started fails. -/
theorem tables_stay_intact_example :
    let question : Question Float := .trueFalse (TrueFalse.new "q1" "The sky is blue" true)
    let blank (token : String) : Usage Float :=
      ⟨.ephemeral token, "quiz", "course", "deferredfeedback", SortedMap.empty, Registry.standard, none⟩
    let started (token : String) := (Usage.Operation.start 1 ⟨0⟩ none ⟨0, 0⟩).after
      ((Usage.Operation.add question none).after (blank token))
    let other := (Store.save (started "t", Store.empty .memory)).state
    let first := (Store.save (started "s", other.2)).state
    let acted := (Usage.Operation.act 1 (SortedMap.ofList [("answer", "1")]) ⟨1000⟩ none).after first.1
    let saved := (Store.save (acted, first.2)).state
    let deleted := (Store.delete other.1.id.text saved.2).state
    let marked := (Store.setMaxMark [first.1.id.text] 1 5.0 deleted).state
    let replayed := (Usage.Operation.regradeAll fun _ => ⟨0, 0⟩).after saved.1
    let regraded := (Store.save (replayed, marked)).state
    let added := (Usage.Operation.add question none).after regraded.1
    let failed := (Store.save (added, regraded.2)).state
    saved.2.tables.Intact ∧ saved.2.tables.steps.map StepRow.index = [0, 0, 1] ∧
      regraded.2.tables.steps.map StepRow.index = [0, 1] ∧
      (regraded.2.tables.steps.all fun r => saved.2.tables.steps.all fun r' => r.id != r'.id) = true ∧
      (Store.save (added, regraded.2)).result.isOk = false ∧ failed.2.tables.Intact := by
  intro question blank started other first acted saved deleted marked replayed regraded added failed
  have hstarted : ∀ {s us} token, Exclusive s us → Exclusive s (started token :: us) := by
    intro s us token h
    have hnew : Usage.new token "quiz" "course" "deferredfeedback" Registry.standard =
        .ok (blank token) := rfl
    exact .operation (.operation (.make h hnew) _) _
  have hother : Exclusive other.2 [] := .release (.save (hstarted "t" .empty))
  have hacted : Exclusive first.2 [acted] := .operation (.save (hstarted "s" hother)) _
  have hsaved : Exclusive saved.2 [saved.1] := .save hacted
  have hne : saved.1.id ≠ .stored other.1.id.text := by decide +kernel
  have hdeleted : Exclusive deleted [saved.1] :=
    .delete hsaved other.1.id.text (List.forall_mem_singleton.2 hne)
  have hmarked : Exclusive marked [saved.1] := .setMaxMark hdeleted [first.1.id.text] 1 5.0
  have hreplayed : Exclusive marked [replayed] := .operation hmarked (.regradeAll fun _ => ⟨0, 0⟩)
  have hregraded : Exclusive regraded.2 [regraded.1] := .save hreplayed
  have hadded : Exclusive regraded.2 [added] := .operation hregraded (.add question none)
  have hfailed : Exclusive failed.2 [failed.1] := .save hadded
  exact ⟨tables_stay_intact hsaved, by decide +kernel, by decide +kernel, by decide +kernel, by decide +kernel,
    tables_stay_intact hfailed⟩

end Store
end Assessment
