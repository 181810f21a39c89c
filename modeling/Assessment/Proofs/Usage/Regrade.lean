import Assessment.Command.Ids
import Assessment.Proofs.Number.Exact
import Assessment.Proofs.Usage.Reach
import Mathlib.Data.List.Basic

/-!
# Regrading a whole usage is not all or nothing

A regrade of every started attempt refuses a behaviour that cannot replay before it changes anything.
A replay can fail for other reasons: a mark that a person gave may be out of range since the question
was changed.  By then the attempts in the slots before have been replaced already
(`Usage.Replaced`), and they stay replaced: `Usage.regradeAll_spec` says what each of the three
outcomes leaves behind, and that a failure leaves the attempts as they were exactly when the replays
before it changed nothing.  `Usage.regradeAll_stops_half_way` is a stored usage where they did.

The invariant of the loop is that the slots gone through so far are replaced and all others are
untouched.  What a replay starts from depends on the usage only through its identity, so every slot
is replayed as it would have been at first (`Replaced.replayOf_eq`).
-/

namespace Assessment
namespace Usage

variable {ν : Type} [Scalar ν]

/-! ## One slot -/

/-- The replay of an attempt on the fresh one that is to take its place. -/
def replayOf (u : Usage ν) (draws : Nat → Draw) (slot : Nat) (a : Attempt ν) :
    Run Fault (Attempt ν) Unit :=
  Attempt.replay a (draws slot) (u.successor slot a none)

/-- What takes the place of an attempt: its replay, with its changes told to the usage. -/
def replacement (u : Usage ν) (draws : Nat → Draw) (slot : Nat) (a : Attempt ν) : Attempt ν :=
  (u.replayOf draws slot a).state.observedBy u.observer

lemma replacement_spec {u : Usage ν} {draws : Nat → Draw} {slot : Nat} {a : Attempt ν}
    (h : (u.replayOf draws slot a).result = .ok ()) :
    (u.successor slot a none).Successor (u.replacement draws slot a) ∧
      (u.replacement draws slot a).steps ≠ [] :=
  successor_replay h

/-- Regrading a slot replaces the attempt by its replay, or fails as the replay does and changes
nothing. -/
lemma regrade_cases {u : Usage ν} {slot : Nat} {a : Attempt ν}
    (ha : u.attempts.get? slot = some a) (draws : Nat → Draw) :
    (∃ e, (u.replayOf draws slot a).result = .error e ∧
      (regrade slot none (draws slot) u).result = .error e ∧
      (regrade slot none (draws slot) u).state = u) ∨
    ((u.replayOf draws slot a).result = .ok () ∧
      (regrade slot none (draws slot) u).result = .ok () ∧
      (regrade slot none (draws slot) u).state =
        u.put slot (u.replacement draws slot a)
          (replacementNotices slot (u.replacement draws slot a).steps.length)) := by
  rw [put_of_observer (a := u.replacement draws slot a) rfl]
  unfold replacement regrade replayOf
  simp only [ha]
  cases hr : (Attempt.replay a (draws slot) (u.successor slot a none)).result with
  | error e => exact .inl ⟨e, rfl, rfl, rfl⟩
  | ok _ =>
    refine .inr ⟨rfl, rfl, ?_⟩
    rw [noting_eq, Event.notices_map_notice]
    rfl

/-! ## Several slots -/

/-- The notices of the attempt that took the place of another in a slot. -/
def noticesOf (u : Usage ν) (slot : Nat) : List Notice :=
  replacementNotices slot (((u.attempts.get? slot).map fun a => a.steps.length).getD 0)

/-- A usage with the attempts in some slots replaced by their replays, and this noted. -/
structure Replaced (u : Usage ν) (draws : Nat → Draw) (slots : List Nat) (u' : Usage ν) : Prop where
  frame : { u' with attempts := u.attempts, pending := u.pending } = u
  replayed : ∀ slot ∈ slots, ∃ a, u.attempts.get? slot = some a ∧
    (u.replayOf draws slot a).result = .ok () ∧
    u'.attempts.get? slot = some (u.replacement draws slot a)
  kept : ∀ slot, slot ∉ slots → u'.attempts.get? slot = u.attempts.get? slot
  pending : u'.pending = u.pending.map fun changes =>
    (slots.flatMap u'.noticesOf).foldl Changes.note changes

namespace Replaced

variable {u u' : Usage ν} {draws : Nat → Draw} {slots : List Nat}

lemma refl (u : Usage ν) (draws : Nat → Draw) : u.Replaced draws [] u where
  frame := rfl
  replayed := by simp
  kept := fun _ _ => rfl
  pending := by simp

/-- A slot is replayed as it would have been at first. -/
lemma replayOf_eq (h : u.Replaced draws slots u') (slot : Nat) (a : Attempt ν) :
    u'.replayOf draws slot a = u.replayOf draws slot a := by
  have hid : u'.id = u.id := by rw [← h.frame]
  simp only [replayOf, successor, hid]

lemma observer_eq (h : u.Replaced draws slots u') : u'.observer = u.observer := by
  simp only [observer, h.pending, Option.isSome_map]

lemma replacement_eq (h : u.Replaced draws slots u') (slot : Nat) (a : Attempt ν) :
    u'.replacement draws slot a = u.replacement draws slot a := by
  rw [replacement, replacement, h.replayOf_eq, h.observer_eq]

/-- One more slot is replaced. -/
lemma next (h : u.Replaced draws slots u') {slot : Nat} (hslot : slot ∉ slots) {a : Attempt ν}
    (ha : u.attempts.get? slot = some a) (hok : (u.replayOf draws slot a).result = .ok ()) :
    u.Replaced draws (slots ++ [slot]) (u'.put slot (u.replacement draws slot a)
      (replacementNotices slot (u.replacement draws slot a).steps.length)) where
  frame := h.frame
  replayed := by
    intro s hs
    simp only [attempts_put, SortedMap.get?_insert]
    by_cases heq : s = slot
    · subst heq
      rw [if_pos rfl]
      exact ⟨a, ha, hok, rfl⟩
    · have hs : s ∈ slots := by simpa [heq] using hs
      rw [if_neg heq]
      exact h.replayed s hs
  kept := by
    intro s hs
    have hne : s ≠ slot := fun heq => hs (by simp [heq])
    have hold : s ∉ slots := fun hmem => hs (List.mem_append_left _ hmem)
    rw [attempts_put, SortedMap.get?_insert_of_ne _ hne]
    exact h.kept s hold
  pending := by
    have hlast : (u'.put slot (u.replacement draws slot a)
        (replacementNotices slot (u.replacement draws slot a).steps.length)).noticesOf slot =
        replacementNotices slot (u.replacement draws slot a).steps.length := by
      simp [noticesOf]
    have hothers : slots.flatMap (u'.put slot (u.replacement draws slot a)
        (replacementNotices slot (u.replacement draws slot a).steps.length)).noticesOf =
        slots.flatMap u'.noticesOf := by
      refine List.flatMap_congr fun s hs => ?_
      have hne : s ≠ slot := fun heq => hslot (heq ▸ hs)
      simp only [noticesOf, attempts_put, SortedMap.get?_insert_of_ne _ hne]
    rw [List.flatMap_append, hothers, List.flatMap_singleton, hlast,
      put_of_observer (a := u.replacement draws slot a) h.observer_eq.symm]
    simp only [noted, h.pending, Option.map_map]
    congr 1
    funext changes
    simp [List.foldl_append]

/-- The attempts are as they were when replaying them changes nothing, and only then. -/
lemma attempts_eq_iff (h : u.Replaced draws slots u') :
    u'.attempts = u.attempts ↔
      ∀ slot ∈ slots, ∀ a, u.attempts.get? slot = some a → u.replacement draws slot a = a := by
  constructor
  · intro heq slot hslot a ha
    obtain ⟨a', ha', -, hstate⟩ := h.replayed slot hslot
    obtain rfl : a = a' := Option.some.inj (ha.symm.trans ha')
    rw [heq, ha] at hstate
    exact (Option.some.inj hstate).symm
  · intro hsame
    apply SortedMap.ext_get?
    intro slot
    by_cases hslot : slot ∈ slots
    · obtain ⟨a, ha, -, hstate⟩ := h.replayed slot hslot
      rw [hstate, hsame slot hslot a ha, ha]
    · exact h.kept slot hslot

end Replaced

/-! ## Every slot -/

/-- The slots of started attempts. -/
def startedSlots (u : Usage ν) : List Nat :=
  u.slots.filter fun slot => (u.attempts.get? slot).any fun a => !a.steps.isEmpty

omit [Scalar ν] in
lemma nodup_startedSlots (u : Usage ν) : u.startedSlots.Nodup :=
  u.attempts.nodup_keys.filter _

omit [Scalar ν] in
lemma exists_of_mem_startedSlots {u : Usage ν} {slot : Nat} (h : slot ∈ u.startedSlots) :
    ∃ a, u.attempts.get? slot = some a := by
  obtain ⟨a, ha, -⟩ := (Option.any_eq_true _ _).1 (List.mem_filter.1 h).2
  exact ⟨a, ha⟩

/-- A loop of regrades that succeeds has replaced the attempts in all of its slots. -/
lemma replaced_forEach {u : Usage ν} {draws : Nat → Draw} {slots : List Nat} (hnodup : slots.Nodup)
    (hslots : ∀ slot ∈ slots, ∃ a, u.attempts.get? slot = some a)
    (h : (Op.forEach (fun slot => regrade slot none (draws slot)) slots u).result = .ok ()) :
    u.Replaced draws slots
      (Op.forEach (fun slot => regrade slot none (draws slot)) slots u).state := by
  induction slots using List.reverseRecOn with
  | nil => exact .refl u draws
  | append_singleton slots slot ih =>
    obtain ⟨hok, hround, hstate⟩ := Op.forEach_append_singleton_of_ok h
    obtain ⟨hfirst, -, hapart⟩ := List.nodup_append.1 hnodup
    have hslot : slot ∉ slots := fun hmem => hapart slot hmem slot List.mem_cons_self rfl
    have hbefore := ih hfirst
      (fun s hs => hslots s (List.mem_append_left _ hs)) hok
    obtain ⟨a, ha⟩ := hslots slot (by simp)
    obtain ⟨e, -, he, -⟩ | ⟨hreplay, -, hput⟩ :=
      regrade_cases ((hbefore.kept slot hslot).trans ha) draws
    · rw [hround] at he
      cases he
    · rw [hbefore.replayOf_eq] at hreplay
      rw [hbefore.replacement_eq] at hput
      rw [hstate, hput]
      exact hbefore.next hslot ha hreplay

/-- A loop of regrades that fails has replaced the attempts before the one whose replay fails. -/
lemma replaced_forEach_of_error {u : Usage ν} {draws : Nat → Draw} {slots : List Nat}
    (hnodup : slots.Nodup) (hslots : ∀ slot ∈ slots, ∃ a, u.attempts.get? slot = some a) {e : Fault}
    (h : (Op.forEach (fun slot => regrade slot none (draws slot)) slots u).result = .error e) :
    ∃ before slot rest a, slots = before ++ slot :: rest ∧ u.attempts.get? slot = some a ∧
      (u.replayOf draws slot a).result = .error e ∧ u.Replaced draws before
        (Op.forEach (fun slot => regrade slot none (draws slot)) slots u).state := by
  obtain ⟨before, slot, rest, rfl, hok, he, hstate⟩ := Op.forEach_stops h
  obtain ⟨hfirst, -, hapart⟩ := List.nodup_append.1 hnodup
  have hslot : slot ∉ before := fun h => hapart slot h slot List.mem_cons_self rfl
  have hbefore := replaced_forEach hfirst (fun s hs => hslots s (List.mem_append_left _ hs)) hok
  obtain ⟨a, ha⟩ := hslots slot (by simp)
  refine ⟨before, slot, rest, a, rfl, ha, ?_⟩
  obtain ⟨e', hreplay, hfail, hsame⟩ | ⟨-, hfine, -⟩ :=
    regrade_cases ((hbefore.kept slot hslot).trans ha) draws
  · obtain rfl : e = e' := Except.error.inj (he.symm.trans hfail)
    rw [hstate, hsame, ← hbefore.replayOf_eq]
    exact ⟨hreplay, hbefore⟩
  · rw [hfine] at he
    cases he

lemma regradeAll_of_refused {u : Usage ν} {b : Behaviour} (hb : u.notReplayable? = some b)
    (draws : Nat → Draw) : regradeAll draws u = ⟨.error (.cannotRegrade b.name), u, []⟩ := by
  simp only [regradeAll, hb]

lemma regradeAll_of_replayable {u : Usage ν} (hb : u.notReplayable? = none) (draws : Nat → Draw) :
    regradeAll draws u =
      Op.forEach (fun slot => regrade slot none (draws slot)) u.startedSlots u := by
  simp only [regradeAll, hb, startedSlots]

/-- What a regrade of every started attempt leaves behind.  It refuses a behaviour that cannot replay
and changes nothing; or it succeeds and has replaced every started attempt; or the replay in some
slot fails, and then the attempts in the started slots before that one have been replaced and all
others have not.  In the last case the attempts are as they were if and only if replaying those
before the failure changed none of them. -/
theorem regradeAll_spec (u : Usage ν) (draws : Nat → Draw) :
    let after := (regradeAll draws u).state
    (∃ b, u.notReplayable? = some b ∧
      (regradeAll draws u).result = .error (.cannotRegrade b.name) ∧ after = u) ∨
    ((regradeAll draws u).result = .ok () ∧ u.Replaced draws u.startedSlots after) ∨
    ∃ before slot rest a e, u.startedSlots = before ++ slot :: rest ∧
      u.attempts.get? slot = some a ∧ (u.replayOf draws slot a).result = .error e ∧
      (regradeAll draws u).result = .error e ∧ u.Replaced draws before after ∧
      (after.attempts = u.attempts ↔ ∀ s ∈ before, ∀ a, u.attempts.get? s = some a →
        u.replacement draws s a = a) := by
  cases hb : u.notReplayable? with
  | some b =>
    rw [regradeAll_of_refused hb]
    exact .inl ⟨b, rfl, rfl, rfl⟩
  | none =>
    rw [regradeAll_of_replayable hb]
    right
    have hslots : ∀ slot ∈ u.startedSlots, ∃ a, u.attempts.get? slot = some a := fun _ =>
      exists_of_mem_startedSlots
    cases hr : (Op.forEach (fun slot => regrade slot none (draws slot)) u.startedSlots u).result with
    | ok _ => exact .inl ⟨rfl, replaced_forEach u.nodup_startedSlots hslots hr⟩
    | error e =>
      obtain ⟨before, slot, rest, a, hsplit, ha, hreplay, hbefore⟩ :=
        replaced_forEach_of_error u.nodup_startedSlots hslots hr
      exact .inr ⟨before, slot, rest, a, e, hsplit, ha, hreplay, rfl, hbefore,
        hbefore.attempts_eq_iff⟩

/-! ## A usage that is left half regraded -/

omit [Scalar ν] in
/-- Rows that lie in the order of their places are loaded as they lie. -/
lemma load_of_pairwise {usageId : String} {bank : Bank ν} {registry : Registry} {s : Store ν}
    {row : UsageRow} (hbackend : s.backend = .memory)
    (hrow : s.tables.usages.find? (fun r => r.id == usageId) = some row)
    (hsteps : (s.tables.rowsOf row).steps.Pairwise fun r r' => decide (r.index ≤ r'.index) = true) :
    Store.load usageId bank registry s =
      Op.bind (Tables.attemptsOfRows bank registry row.preferred
        (Tables.stepsOfRows (Tables.varsByStep (s.tables.rowsOf row).vars)
          (s.tables.rowsOf row).steps) (s.tables.rowsOf row).attempts)
        (fun attempts => Op.pure (restore row attempts registry true)) s := by
  simp only [Store.load, hbackend, hrow, assemble, Tables.orderedSteps,
    List.mergeSort_of_pairwise hsteps]

/-- A result that evaluates to a value with a decidable property. -/
lemma exists_ok_of_any {ε α : Type} {r : Except ε α} {P : α → Prop} [DecidablePred P]
    (h : r.toOption.any (fun a => decide (P a)) = true) : ∃ a, r = .ok a ∧ P a := by
  cases r with
  | error e => cases h
  | ok a => exact ⟨a, rfl, of_decide_eq_true h⟩

/-- A regrade that fails is not undone.  A statement is judged rightly, a wrong choice is given half a
mark less than nothing by a person, and both are stored.  Then the answer to the statement is changed,
and the wrong choice is made to cost nothing.  The mark is out of range now, so the regrade of the
loaded usage fails; but the judgement counts as wrong by then. -/
theorem regradeAll_stops_half_way :
    let statement (right : Bool) : Question (Exact .decimal) :=
      .trueFalse (TrueFalse.new "tf" "The sky is blue" right)
    let choice (wrong : ℚ) : Question (Exact .decimal) :=
      .multiChoice (MultiChoice.new "mc" "Pick the prime"
        [⟨"4", .rational wrong, none⟩, ⟨"7", .rational 1, none⟩])
    let draws : Nat → Draw := fun _ => ⟨0, 0⟩
    let blank : Usage (Exact .decimal) := ⟨.ephemeral "t", "quiz", "course", "immediatefeedback",
      SortedMap.empty, Registry.standard, none⟩
    let added := (Operation.add (choice (-1 / 2)) none).after
      ((Operation.add (statement true) none).after blank)
    let first := (Store.save ((Operation.startAll ⟨0⟩ none draws).after added,
      Store.empty .memory)).state
    let judged := (Operation.act 1 (SortedMap.ofList [("answer", "1"), ("-submit", "1")]) ⟨1000⟩
      none).after first.1
    let chosen := (Operation.act 2 (SortedMap.ofList [("answer", "0"), ("-submit", "1")]) ⟨2000⟩
      none).after judged
    let marked := (Operation.grade 2 "No prime" (some (.rational (-1 / 2))) ⟨3000⟩ none).after chosen
    let second := (Store.save (marked, first.2)).state
    let bank : Bank (Exact .decimal) :=
      .memory (SortedMap.ofList [("tf", statement false), ("mc", choice 0)])
    ∃ u, (Store.load second.1.id.text bank Registry.standard second.2).result = .ok u ∧
      (regradeAll draws u).result = .error (.markOutOfRange "-0.5" "1" "0") ∧
      (u.attempts.get? 1).map Attempt.state = some .gradedCorrect ∧
      ((regradeAll draws u).state.attempts.get? 1).map Attempt.state = some .gradedWrong ∧
      u.pending = some .none ∧ (regradeAll draws u).state.pending ≠ some .none := by
  intro statement choice draws blank added first judged chosen marked second bank
  have hrow : second.2.tables.usages.find? (fun r => r.id == second.1.id.text) =
      some ⟨second.1.id.text, "quiz", "course", "immediatefeedback"⟩ := by decide +kernel
  have hbackend : second.2.backend = .memory := by decide +kernel
  rw [load_of_pairwise hbackend hrow (by decide +kernel)]
  exact exists_ok_of_any (by decide +kernel)

end Usage
end Assessment
