import Assessment.Proofs.Attempt.History
import Assessment.Proofs.Behaviour.Verdict

/-!
# Finished is terminal

A finished attempt stays finished whatever is sent to it (`Attempt.isFinished_afterActions`), and
only a person's comment can still add a step to it (`Attempt.act_of_isFinished`).  Every started
attempt can be brought there: finishing succeeds under every behaviour that is on offer, and a second
finish is discarded (`Attempt.finish_spec`).  `Attempt.finished_is_terminal` puts the three together.

No reachable history is needed for any of this.  The rulings look at the state of the latest step
alone, so the facts hold of attempts that were loaded as well.
-/

namespace Assessment

variable {ν : Type} [Scalar ν]

/-! ## The finishing action -/

lemma hasBehaviour_finish_finishVars : Attempt.finishVars.hasBehaviour "finish" = true := by
  decide

lemma hasBehaviour_comment_finishVars : Attempt.finishVars.hasBehaviour "comment" = false := by
  decide

/-- What finishes an attempt is put to the behaviour as such. -/
lemma Behaviour.rule_finishVars {b : Behaviour} (hb : ∀ storedName, b ≠ .missing storedName)
    (a : Attempt ν) (time : Instant) (actor : Option String) :
    b.rule a (Draft.new Attempt.finishVars time actor) =
      .ok (b.onFinish a (Draft.new Attempt.finishVars time actor)) := by
  have hfinish : Ruling.asks (Draft.new (ν := ν) Attempt.finishVars time actor) "finish" = true :=
    hasBehaviour_finish_finishVars
  have hcomment : Ruling.asks (Draft.new (ν := ν) Attempt.finishVars time actor) "comment" = false :=
    hasBehaviour_comment_finishVars
  cases b with
  | missing storedName => exact absurd rfl (hb storedName)
  | _ => simp only [rule, hfinish, hcomment, Bool.false_eq_true, if_false, if_true]

namespace Attempt

/-! ## One action -/

/-- A finished attempt discards every action that is no comment. -/
lemma act_of_isFinished {a : Attempt ν} {b : Behaviour} (hb : a.behaviour = some b)
    (ha : a.state.isFinished = true) {vars : Vars} (hvars : vars.hasBehaviour "comment" = false)
    (time : Instant) (actor : Option String) :
    (act vars time actor a).result = .ok .discarded ∧ (act vars time actor a).state = a ∧
      Event.notices (act vars time actor a).events = [] := by
  have hc : b.takesComment vars = false := by
    by_contra hc
    have hcomment := Behaviour.hasBehaviour_of_takesComment (eq_true_of_ne_false hc)
    rw [hvars] at hcomment
    cases hcomment
  exact act_of_discard hb (Behaviour.rule_of_isFinished ha hc rfl)

/-- What is kept on a finished attempt is a comment, and that keeps the attempt finished. -/
lemma isFinished_keep {a : Attempt ν} {b : Behaviour} {d d' : Draft ν}
    (ha : a.state.isFinished = true) (hd : d.fraction = none) (h : b.rule a d = .ok (.keep d')) :
    (a.keep d').state.isFinished = true := by
  rw [state_keep]
  cases Behaviour.rule_verdict hd h with
  | remark _ hstate _ => rw [hstate, State.isFinished_manual, ha]
  | award _ _ _ fraction _ hstate _ =>
    rw [hstate]
    exact State.isFinished_of_isGraded (State.isGraded_ofManualFraction fraction)
  | move _ hopen _ =>
    rw [ha] at hopen
    cases hopen

/-! ## Whole logs -/

/-- A finished attempt stays finished. -/
lemma isFinished_afterActions {a : Attempt ν} (ha : a.state.isFinished = true)
    (log : List Action) : (a.afterActions log).state.isFinished = true :=
  afterActions_keeps (P := fun a => a.state.isFinished = true)
    (fun _ _ _ _ _ ha _ hd => isFinished_keep ha rfl hd) ha

/-! ## Finishing -/

/-- Finishing succeeds on every started attempt and leaves it finished. -/
lemma finish_spec {a : Attempt ν} {b : Behaviour} (hb : a.behaviour = some b)
    (hmissing : ∀ storedName, b ≠ .missing storedName) (time : Instant) (actor : Option String) :
    (∃ outcome, (finish time actor a).result = .ok outcome) ∧
      (finish time actor a).state.behaviour = some b ∧
      (finish time actor a).state.state.isFinished = true := by
  have hrule := b.rule_finishVars hmissing a time actor
  have hends := b.onFinish_ends hmissing a (Draft.new finishVars time actor)
  unfold finish
  cases hr : b.onFinish a (Draft.new finishVars time actor) with
  | discard =>
    rw [hr] at hrule hends
    obtain ⟨hresult, hstate, -⟩ := act_of_discard hb hrule
    rw [hresult, hstate]
    exact ⟨⟨_, rfl⟩, hb, hends⟩
  | keep d =>
    rw [hr] at hrule hends
    obtain ⟨hresult, hstate⟩ := act_of_keep hb hrule
    rw [hresult, hstate, state_keep]
    exact ⟨⟨_, rfl⟩, hb, hends⟩

/-- Finished is terminal.  An attempt that was started in any way and sent any actions discards, once
it is finished, every action that is no comment, and stays finished whatever is sent to it.  Under
every behaviour but the missing one, finishing a started attempt succeeds and finishes it, and
finishing it again is discarded. -/
theorem finished_is_terminal (q : Question ν) (usageId : String) (slot : Nat) (maxMark : Option ν)
    (o : Opening) (log : List Action) :
    let a := ((new q usageId slot maxMark).opened o).afterActions log
    (a.state.isFinished = true →
      (∀ (vars : Vars) (time : Instant) (actor : Option String),
        vars.hasBehaviour "comment" = false →
          (act vars time actor a).result = .ok .discarded ∧ (act vars time actor a).state = a ∧
            Event.notices (act vars time actor a).events = []) ∧
      ∀ later : List Action, (a.afterActions later).state.isFinished = true) ∧
    ∀ (a : Attempt ν) (b : Behaviour), a.behaviour = some b →
      (∀ storedName, b ≠ .missing storedName) →
      ∀ (time time' : Instant) (actor actor' : Option String),
        let finished := (finish time actor a).state
        (∃ outcome, (finish time actor a).result = .ok outcome) ∧
          finished.state.isFinished = true ∧
          (finish time' actor' finished).result = .ok .discarded ∧
          (finish time' actor' finished).state = finished := by
  intro a
  have hb : a.behaviour = some o.behaviour :=
    (behaviour_afterActions _ log).trans
      (isOpened_opened (isFresh_new q usageId slot maxMark) o).behaviour
  refine ⟨fun ha => ⟨fun vars time actor hvars => act_of_isFinished hb ha hvars time actor,
    fun later => isFinished_afterActions ha later⟩, ?_⟩
  intro a b hb hmissing time time' actor actor' finished
  obtain ⟨hresult, hb', hfinished⟩ := finish_spec hb hmissing time actor
  have hagain := act_of_isFinished hb' hfinished hasBehaviour_comment_finishVars time' actor'
  exact ⟨hresult, hfinished, hagain.1, hagain.2.1⟩

/-- A statement that was given up under deferred feedback takes no answer any more. -/
theorem finished_is_terminal_givenUp :
    let q : Question Float := .trueFalse (TrueFalse.new "q1" "The sky is blue" true)
    let o : Opening := ⟨.deferred, SortedMap.empty, ⟨0⟩, none, ⟨0, 0⟩⟩
    let a := ((new q "u" 1 none).opened o).afterActions [⟨finishVars, ⟨1500⟩, some "ada"⟩]
    a.state.isFinished = true ∧
      (act (SortedMap.ofList [("answer", "1")]) ⟨2500⟩ (some "ada") a).state = a := by
  intro q o a
  have hopened := isOpened_opened (isFresh_new q "u" 1 none) o
  have hfinished : a.state.isFinished = true :=
    ((finished_is_terminal q "u" 1 none o []).2 _ _ hopened.behaviour (by simp [o]) ⟨1500⟩ ⟨0⟩
      (some "ada") none).2.1
  have hdiscard := ((finished_is_terminal q "u" 1 none o
    [⟨finishVars, ⟨1500⟩, some "ada"⟩]).1 hfinished).1
  exact ⟨hfinished, (hdiscard (SortedMap.ofList [("answer", "1")]) ⟨2500⟩ (some "ada")
    (by decide)).2.1⟩

end Attempt
end Assessment
