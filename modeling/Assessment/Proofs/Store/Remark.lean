import Assessment.Command.Ids
import Assessment.Proofs.Store.Session
import Assessment.Proofs.Usage.Regrade

/-!
# Setting marks is regrading

The marks of the attempts in a slot can be changed in two ways.  The fast way sets them in the rows of
the attempts.  The slow way loads the usage, replays the attempt out of the new marks and saves it,
and this deletes all its stored steps and writes new ones.  In a session both come to the same
(`Store.setting_marks_is_regrading`): the usages that are loaded afterwards are equal but for the ids of
the steps in the slot, which are new after a replay.

No state and no fraction depends on the marks of the attempt, since the replay of a reproducible
attempt gives its history back whatever they are (`Attempt.Reproducible.replays_unnumbered`).  The one
exception is a comment that gives a mark and does not say out of how many
(`Attempt.MarksAreAbsolute`).
-/

namespace Assessment

variable {ν : Type} [Scalar ν]

namespace Usage

variable {questions : SortedMap String (Question ν)} {u : Usage ν} {t : Tables ν}

omit [Scalar ν] in
/-- With the ids of the steps left out, it does not matter when they are taken away. -/
lemma unnumbered_remarked (slot : Nat) (m : ν) (u : Usage ν) :
    (u.mapSlot slot fun a => a.unnumbered.withMaxMark m).unnumbered slot =
      (u.withMaxMark slot m).unnumbered slot := by
  unfold unnumbered withMaxMark
  rw [mapSlot_mapSlot, mapSlot_mapSlot]
  · congr 1
    funext a
    simp [Attempt.unnumbered, Attempt.withMaxMark, Step.unnumbered]
  · exact fun _ => rfl
  · exact fun _ => rfl

/-- A regrade out of other marks changes these and the ids of the steps in the slot. -/
lemma Saved.regrade (h : u.Saved t) (hreproducible : u.Reproducible questions) {slot : Nat}
    (habsolute : ∀ a, u.attempts.get? slot = some a → a.MarksAreAbsolute) (m : ν) (draw : Draw) :
    ((Usage.regrade slot (some m) draw u).result = .ok () ↔ slot ∈ u.slots) ∧
      ∃ pending, (Usage.regrade slot (some m) draw u).state =
        { u.mapSlot slot (fun a => a.unnumbered.withMaxMark m) with pending := pending } := by
  unfold Usage.regrade
  cases ha : u.attempts.get? slot with
  | none =>
    have hslot : slot ∉ u.slots := fun hmem => by
      obtain ⟨a, ha'⟩ := SortedMap.mem_keys_iff.1 hmem
      rw [ha] at ha'
      cases ha'
    exact ⟨by simp [hslot], u.pending, by rw [h.sound.mapSlot_of_none ha]⟩
  | some a =>
    have hattempt := hreproducible.attempts ha
    have hfresh : (u.successor slot a (some m)).IsFresh a.question := ⟨rfl, rfl, rfl⟩
    obtain ⟨hok, hstate⟩ := hattempt.replays_unnumbered (hattempt.started.1 (h.started ha))
      (habsolute a ha) hfresh draw
    have hplace : (a.unnumbered.inPlaceOf (u.successor slot a (some m))).observedBy u.observer =
        a.unnumbered.withMaxMark m := by
      simp [Attempt.inPlaceOf, Attempt.unnumbered, Attempt.withMaxMark, Attempt.observedBy, successor,
        Attempt.new, h.sound.slot ha, h.sound.usageId ha, h.sound.observer ha]
    have hput := h.sound.insert_eq_map ha fun a => a.unnumbered.withMaxMark m
    simp only [hok, hstate, hplace, hput]
    exact ⟨iff_of_true trivial (SortedMap.mem_keys_iff.2 ⟨a, ha⟩), _, rfl⟩

end Usage

namespace Store

variable {questions : SortedMap String (Question ν)} {owner : String → String} {s : Store ν}
  {u : Usage ν} {v : String}

/-- The fast way: the tables have the usage with the marks set. -/
lemma Owned.load_setMaxMark (hs : s.Owned owner) (hu : u.Saved s.tables) (hid : u.id = .stored v)
    (hreproducible : u.Reproducible questions) (slot : Nat) (m : ν) :
    (Store.setMaxMark [v] slot m s).result.isOk = true ∧
      (Store.load v (.memory questions) Registry.standard
        (Store.setMaxMark [v] slot m s).state).result = .ok (u.withMaxMark slot m).reloaded := by
  obtain ⟨hstate, howned⟩ := hs.setMaxMark [v] slot m
  have hmarked : (u.withMaxMark slot m).Saved (Store.setMaxMark [v] slot m s).state.tables := by
    rw [hstate]
    exact hu.setMaxMark (by simp [hid, UsageId.text]) slot m
  have hload := hmarked.load_eq howned.backend fun ha =>
    ((hreproducible.withMaxMark slot m).attempts ha).question
  have hmarkedId : (u.withMaxMark slot m).id = .stored v := hid
  rw [hmarkedId] at hload
  exact ⟨by simp [Store.setMaxMark, hs.backend, Except.isOk, Except.toBool], hload⟩

/-- The slow way: the regraded usage is saved, and only steps in the slot have new ids. -/
lemma Owned.load_regraded (hs : s.Owned owner) (hu : u.Saved s.tables) (hid : u.id = .stored v)
    (hpending : u.pending = some Changes.none) (hreproducible : u.Reproducible questions)
    {slot : Nat} (habsolute : ∀ a, u.attempts.get? slot = some a → a.MarksAreAbsolute) (m : ν)
    (draw : Draw) :
    let regraded := Usage.regrade slot (some m) draw u
    let slow := Store.save (regraded.state, s)
    (regraded.result = .ok () ↔ slot ∈ u.slots) ∧ slow.result = .ok () ∧
      ∃ y, (Store.load v (.memory questions) Registry.standard slow.state.2).result = .ok y ∧
        y.unnumbered slot = (u.withMaxMark slot m).reloaded.unnumbered slot := by
  intro regraded slow
  obtain ⟨hslot, pending, hregraded⟩ := hu.regrade hreproducible habsolute m draw
  have hkept : regraded.state.Kept s := (hs.kept_of_saved hu hpending).operation
    (.regrade slot (some m) draw)
  have hregradable : regraded.state.Reproducible questions :=
    hreproducible.operation (o := .regrade slot (some m) draw) trivial
  have hregradedId : regraded.state.id = .stored v := by
    rw [hregraded]
    exact hid
  have hstored : regraded.state.StoredBut slot := by
    have hsound := hkept.sound
    rw [hregraded] at hsound ⊢
    exact hu.storedBut slot (f := fun a => a.unnumbered.withMaxMark m) (fun _ => rfl) (fun _ => rfl)
      hsound
  obtain ⟨plan, hok, hprepared⟩ := hstored.prepare hregradedId s.supply
  obtain ⟨hresult, hsettled, hwritten⟩ := hkept.saved_save hok
  have hwrittenId : slow.state.1.id = .stored v := by
    rw [hsettled, Usage.id_settle]
    exact (congrArg Usage.id hprepared).trans hregradedId
  have hload := hwritten.load_eq hkept.save.backend fun ha =>
    ((hregradable.prepare hok).settle.attempts (hsettled ▸ ha)).question
  rw [hwrittenId] at hload
  refine ⟨hslot, hresult, slow.state.1.reloaded, hload, ?_⟩
  -- a load makes the unsaved changes anew, so they do not matter
  calc slow.state.1.reloaded.unnumbered slot
      = (Usage.prepare (regraded.state, s.supply)).state.1.reloaded.unnumbered slot := by
        rw [hsettled, Usage.reloaded_settle]
    _ = ((Usage.prepare (regraded.state, s.supply)).state.1.unnumbered slot).reloaded :=
      Usage.reloaded_unnumbered slot _
    _ = (regraded.state.unnumbered slot).reloaded :=
      congrArg (fun u => Usage.reloaded { u with pending := none }) hprepared
    _ = ((u.mapSlot slot fun a => a.unnumbered.withMaxMark m).unnumbered slot).reloaded := by
      rw [hregraded]
      rfl
    _ = ((u.withMaxMark slot m).unnumbered slot).reloaded := by rw [Usage.unnumbered_remarked]
    _ = (u.withMaxMark slot m).reloaded.unnumbered slot :=
      ((u.withMaxMark slot m).reloaded_unnumbered slot).symm

/-- Setting marks is regrading.  A stored usage of a session can be loaded.  Setting the marks of a
slot in the tables, and regrading the slot of the loaded usage out of these marks and saving it, both
succeed if the slot is in use and every comment in it says out of how many its mark is.  The usages
that are loaded afterwards are equal but for the ids of the steps in the slot. -/
theorem setting_marks_is_regrading {us : List (Usage ν)} (hs : Session questions s us)
    (hv : s.Has v) :
    ∃ u, (Store.load v (.memory questions) Registry.standard s).result = .ok u ∧
      ∀ (slot : Nat) (m : ν) (draw : Draw),
        (∀ a, u.attempts.get? slot = some a → a.MarksAreAbsolute) →
        let fast := Store.setMaxMark [v] slot m s
        let regraded := Usage.regrade slot (some m) draw u
        let slow := Store.save (regraded.state, s)
        fast.result.isOk = true ∧ (regraded.result = .ok () ↔ slot ∈ u.slots) ∧
          slow.result = .ok () ∧
          ∃ x y, (Store.load v (.memory questions) Registry.standard fast.state).result = .ok x ∧
            (Store.load v (.memory questions) Registry.standard slow.state.2).result = .ok y ∧
            y.unnumbered slot = x.unnumbered slot := by
  obtain ⟨owner, h⟩ := hs.held
  obtain ⟨u, hload, hid, hpending, hsaved, hreproducible⟩ := h.load hv
  refine ⟨u, hload, fun slot m draw habsolute => ?_⟩
  obtain ⟨hset, hx⟩ := h.store.load_setMaxMark hsaved hid hreproducible slot m
  obtain ⟨hslot, hsave, y, hy, hsame⟩ :=
    h.store.load_regraded hsaved hid hpending hreproducible habsolute m draw
  exact ⟨hset, hslot, hsave, _, y, hx, hy, hsame⟩

/-- A statement is judged and then given one mark of two by a person, and the usage is saved.  Its slot is
set out of five marks, and it is regraded out of five. -/
theorem setting_marks_is_regrading_example :
    let question : Question (Exact .decimal) :=
      .trueFalse (TrueFalse.new "q1" "The sky is blue" true)
    let questions := SortedMap.ofList [(question.id, question)]
    let blank : Usage (Exact .decimal) := ⟨.ephemeral "t", "quiz", "course", "immediatefeedback",
      SortedMap.empty, Registry.standard, none⟩
    let started := (Usage.Operation.start 1 ⟨0⟩ none ⟨0, 0⟩).after
      ((Usage.Operation.add question (some (.rational 2))).after blank)
    let judged := (Usage.Operation.act 1 (SortedMap.ofList [("answer", "1"), ("-submit", "1")]) ⟨1000⟩
      none).after started
    let marked := (Usage.Operation.grade 1 "Guessed" (some (.rational 1)) ⟨2000⟩ none).after judged
    let saved := (Store.save (marked, Store.empty .memory)).state
    let load := Store.load saved.1.id.text (.memory questions) Registry.standard
    ∃ u, (load saved.2).result = .ok u ∧
      (u.attempts.get? 1).map (fun a => a.steps.length) = some 3 ∧
      ∃ x y, (load (Store.setMaxMark [saved.1.id.text] 1 (.rational 5) saved.2).state).result = .ok x ∧
        (load (Store.save ((Usage.regrade 1 (some (.rational 5)) ⟨0, 0⟩ u).state,
          saved.2)).state.2).result = .ok y ∧
        y.unnumbered 1 = x.unnumbered 1 := by
  intro question questions blank started judged marked saved load
  have hnew : Usage.new "t" "quiz" "course" "immediatefeedback" Registry.standard = .ok blank := rfl
  have hadd : (Usage.Operation.add question (some (Exact.rational 2))).IsReplayable questions :=
    SortedMap.get?_insert_self _ _ _
  have hact : (Usage.Operation.act (ν := Exact .decimal) 1
      (SortedMap.ofList [("answer", "1"), ("-submit", "1")]) ⟨1000⟩ none).IsReplayable questions := by
    show ∀ key ∈ _, _
    decide
  have hstarted : Session questions (Store.empty .memory) [started] :=
    .operation (.operation (.make .empty hnew) _ hadd) (.start 1 ⟨0⟩ none ⟨0, 0⟩) trivial
  have hmarked : Session questions (Store.empty .memory) [marked] :=
    .operation (.operation hstarted _ hact) (.grade 1 "Guessed" (some (.rational 1)) ⟨2000⟩ none)
      trivial
  have hhas : saved.2.Has saved.1.id.text := by
    show ∃ row ∈ _, _
    decide +kernel
  have hbackend : saved.2.backend = .memory := by decide +kernel
  have hrow : saved.2.tables.usages.find? (fun r => r.id == saved.1.id.text) =
      some ⟨saved.1.id.text, "quiz", "course", "immediatefeedback"⟩ := by decide +kernel
  have hloads : ∃ u, (load saved.2).result = .ok u ∧
      (u.attempts.get? 1).any (fun a => a.steps.length == 3 && a.behaviour.all fun b =>
        a.steps.tail.all fun step => !(b.takesComment step.vars && step.vars.hasRelativeMark)) =
        true := by
    show ∃ u, (Store.load _ _ _ _).result = .ok u ∧ _
    rw [Usage.load_of_pairwise hbackend hrow (by decide +kernel)]
    exact Usage.exists_ok_of_any (by decide +kernel)
  obtain ⟨u, hload, hattempt⟩ := hloads
  obtain ⟨u', hload', h⟩ := setting_marks_is_regrading hmarked.save hhas
  obtain rfl := Except.ok.inj (hload.symm.trans hload')
  obtain ⟨a, ha, hhistory⟩ := (Option.any_eq_true _ _).1 hattempt
  obtain ⟨hlength, habsolute⟩ := Bool.and_eq_true_iff.1 hhistory
  obtain ⟨-, -, -, x, y, hx, hy, hsame⟩ := h 1 (.rational 5) ⟨0, 0⟩ fun a' ha' b hb step hstep => by
    obtain rfl := Option.some.inj (ha.symm.trans ha')
    rw [hb, Option.all_some, List.all_eq_true] at habsolute
    exact Bool.eq_false_of_not_eq_true' (habsolute step hstep)
  refine ⟨u, hload, ?_, x, y, hx, hy, hsame⟩
  rw [ha, Option.map_some, beq_iff_eq.1 hlength]

end Store
end Assessment
