import Assessment.Proofs.Attempt.History
import Assessment.Proofs.Behaviour.Verdict

/-!
# State and fraction agree

Every recorded step is *coherent* (`Step.IsCoherent`): a behaviour has ruled on it, it has a fraction
exactly when its state is a graded one, and its state is a commented one only if the step itself
carries a comment.

The invariant is about all steps and not about the latest one, because a remark takes both its state
and its fraction from the step before it (`Behaviour.Verdict.remark`): the two agree there, and
`State.manual` keeps what they agree on.  One kept draft keeps the invariant
(`Attempt.IsCoherent.keep`), whichever of the four verdicts it follows, and so every log does
(`Attempt.steps_coherent`).
-/

namespace Assessment

variable {ν : Type}

/-! ## States of recorded steps -/

/-- The states that a behaviour gives. -/
def State.isRuled : State → Bool
  | notStarted | unprocessed => false
  | _ => true

namespace State

lemma isRuled_iff {s : State} : s.isRuled = true ↔ s ≠ notStarted ∧ s ≠ unprocessed := by
  cases s <;> decide

lemma isRuled_manual (s : State) : s.manual.isRuled = s.isRuled := by
  cases s <;> rfl

lemma isRuled_of_isGraded {s : State} (h : s.isGraded = true) : s.isRuled = true := by
  cases s <;> first | rfl | cases h

lemma isRuled_of_isUngraded {s : State} (h : s.isUngraded = true) : s.isRuled = true := by
  cases s <;> first | rfl | cases h

end State

/-! ## Coherent steps -/

/-- A step whose state, fraction and variables agree. -/
structure Step.IsCoherent (s : Step ν) : Prop where
  ruled : s.state.isRuled = true
  fraction : s.fraction.isSome = s.state.isGraded
  commented : s.state.isCommented = true → s.vars.hasBehaviour "comment" = true

/-- A step with a comment is coherent as soon as its fraction goes with its state. -/
lemma Step.isCoherent_of_comment {s : Step ν} (hc : s.vars.hasBehaviour "comment" = true)
    (hruled : s.state.isRuled = true) (hfraction : s.fraction.isSome = s.state.isGraded) :
    s.IsCoherent :=
  ⟨hruled, hfraction, fun _ => hc⟩

/-- A step without a fraction in an ungraded state is coherent. -/
lemma Step.isCoherent_of_isUngraded {s : Step ν} (hstate : s.state.isUngraded = true)
    (hfraction : s.fraction = none) : s.IsCoherent := by
  refine ⟨State.isRuled_of_isUngraded hstate, ?_, fun hc => ?_⟩
  · rw [hfraction, State.isGraded_of_isUngraded hstate]
    rfl
  · rw [State.isCommented_of_isUngraded hstate] at hc
    cases hc

namespace Attempt

/-- Every step of the attempt is coherent, and there is one. -/
structure IsCoherent (a : Attempt ν) : Prop where
  started : a.steps ≠ []
  steps : ∀ step ∈ a.steps, step.IsCoherent

/-- The state and the fraction of an attempt are those of one of its steps. -/
lemma IsCoherent.exists_latest {a : Attempt ν} (ha : a.IsCoherent) :
    ∃ step : Step ν, step.IsCoherent ∧ a.state = step.state ∧ a.fraction = step.fraction := by
  obtain ⟨step, hlast⟩ : ∃ step, a.last? = some step :=
    Option.ne_none_iff_exists'.1 (List.getLast?_eq_none_iff.not.2 ha.started)
  refine ⟨step, ha.steps step (mem_steps_of_last? hlast), ?_, ?_⟩
  · rw [state, hlast]
  · rw [fraction, hlast]
    rfl

variable [Scalar ν]

/-- What a draft is recorded as agrees with itself, if the history agrees so far. -/
lemma isCoherent_record {a : Attempt ν} (ha : a.IsCoherent) {b : Behaviour} {d d' : Draft ν}
    (hd : d.fraction = none) (h : b.rule a d = .ok (.keep d')) : d'.record.IsCoherent := by
  have hcomment : b.takesComment d.vars = true → d'.vars.hasBehaviour "comment" = true := by
    intro hc
    rw [← Behaviour.takesComment_submitted, ← (Behaviour.rule_follows h).submitted,
      Behaviour.takesComment_submitted] at hc
    exact Behaviour.hasBehaviour_of_takesComment hc
  cases Behaviour.rule_verdict hd h with
  | remark hc hstate hfraction =>
    obtain ⟨step, hstep, hlast, hlast'⟩ := ha.exists_latest
    refine Step.isCoherent_of_comment (hcomment hc) ?_ ?_
    · show d'.state.isRuled = true
      rw [hstate, State.isRuled_manual, hlast, hstep.ruled]
    · show d'.fraction.isSome = d'.state.isGraded
      rw [hstate, State.isGraded_manual, hfraction, hlast, hlast', hstep.fraction]
  | award hc _ _ fraction _ hstate hfraction =>
    have hgraded : d'.state.isGraded = true := by
      rw [hstate, State.isGraded_ofManualFraction]
    refine Step.isCoherent_of_comment (hcomment hc) (State.isRuled_of_isGraded hgraded) ?_
    show d'.fraction.isSome = d'.state.isGraded
    rw [hgraded, hfraction]
    rfl
  | move _ _ hmoves =>
    cases hmoves with
    | leave hstate hfraction => exact Step.isCoherent_of_isUngraded hstate hfraction
    | grade response earned _ _ hstate hfraction =>
      have hgraded : d'.state.isGraded = true := by rw [hstate, State.isGraded_ofFraction]
      refine ⟨State.isRuled_of_isGraded hgraded, ?_, fun hcommented => ?_⟩
      · show d'.fraction.isSome = d'.state.isGraded
        rw [hgraded, hfraction]
        rfl
      · -- a computed fraction never leads to a commented state
        replace hcommented : d'.state.isCommented = true := hcommented
        rw [hstate, State.isCommented_ofFraction] at hcommented
        cases hcommented

lemma IsCoherent.keep {a : Attempt ν} (ha : a.IsCoherent) {b : Behaviour} {d d' : Draft ν}
    (hd : d.fraction = none) (h : b.rule a d = .ok (.keep d')) : (a.keep d').IsCoherent := by
  refine ⟨by simp [Attempt.keep, record], fun step hstep => ?_⟩
  rcases mem_steps_keep.1 hstep with hstep | rfl
  · exact ha.steps step hstep
  · exact isCoherent_record ha hd h

lemma IsOpened.isCoherent {a : Attempt ν} {q : Question ν} {b : Behaviour}
    (ha : a.IsOpened q b) : a.IsCoherent := by
  obtain ⟨first, hsteps, hstate, hfraction⟩ := ha.steps
  refine ⟨by simp [hsteps], fun step hstep => ?_⟩
  rw [hsteps] at hstep
  obtain rfl := List.mem_singleton.1 hstep
  exact Step.isCoherent_of_isUngraded (by rw [hstate]; rfl) hfraction

lemma IsCoherent.afterActions {a : Attempt ν} (ha : a.IsCoherent) (log : List Action) :
    (a.afterActions log).IsCoherent :=
  afterActions_keeps (P := IsCoherent) (fun _ _ _ _ _ ha _ hd => ha.keep rfl hd) ha

/-- State and fraction agree.  In every attempt that was started and then sent any actions, the first
step is still to do and has no fraction; a behaviour has ruled on every step; a step has a fraction
if and only if its state is a graded one; and a step in a commented state carries the comment
itself. -/
theorem steps_coherent (q : Question ν) (usageId : String) (slot : Nat) (maxMark : Option ν)
    (o : Opening) (log : List Action) :
    let a := ((new q usageId slot maxMark).opened o).afterActions log
    (∃ first, a.steps[0]? = some first ∧ first.state = .todo ∧ first.fraction = none) ∧
      ∀ step ∈ a.steps, step.state ≠ .notStarted ∧ step.state ≠ .unprocessed ∧
        (step.fraction.isSome = true ↔ step.state.isGraded = true) ∧
        (step.state.isCommented = true → step.vars.hasBehaviour "comment" = true) := by
  intro a
  have hopened := isOpened_opened (isFresh_new q usageId slot maxMark) o
  obtain ⟨first, hsteps, hstate, hfraction⟩ := hopened.steps
  have hfirst : a.steps[0]? = some first := by
    obtain ⟨-, later, hlater, -⟩ := afterActions_frame ((new q usageId slot maxMark).opened o) log
    rw [hlater, hsteps]
    rfl
  refine ⟨⟨first, hfirst, hstate, hfraction⟩, fun step hstep => ?_⟩
  have hcoherent := (hopened.isCoherent.afterActions log).steps step hstep
  obtain ⟨hstarted, hruled⟩ := State.isRuled_iff.1 hcoherent.ruled
  exact ⟨hstarted, hruled, by rw [hcoherent.fraction], hcoherent.commented⟩

end Attempt
end Assessment
