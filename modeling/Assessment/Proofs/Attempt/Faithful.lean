import Assessment.Proofs.Attempt.History
import Mathlib.Data.List.Forall2

/-!
# Actions are recorded faithfully or not at all

An action either leaves no trace on the attempt, or it leaves one recorded step and nothing else
(`Attempt.act_faithful`).  That step *tells* the action (`Step.Tells`): it has the time and the actor of
the action and, apart from what is cached, its variables.  A behaviour may write under a cached name
that the action sent as well; that is why the variables are compared without the cached ones, and not
as they were sent.

From one action to many: the steps that a log of actions adds tell a part of the log, in the order of
the log (`Attempt.afterActions_faithful`).
-/

namespace Assessment

variable {ν : Type}

/-- A recorded step that is not stored yet and says what was sent, when and by whom. -/
structure Step.Tells (step : Step ν) (x : Action) : Prop where
  id : step.id = none
  readOnly : step.readOnly = true
  submitted : step.vars.submitted = x.vars.submitted
  time : step.time = x.time.cut
  actor : step.actor = x.actor

namespace Attempt

/-- An attempt with one action recorded: the same attempt, with one more step. -/
structure Records (a a' : Attempt ν) (x : Action) : Prop where
  place : a.SamePlace a'
  observer : a'.observer = a.observer
  behaviour : a'.behaviour = a.behaviour
  minFraction : a'.minFraction = a.minFraction
  questionSummary : a'.questionSummary = a.questionSummary
  rightAnswerSummary : a'.rightAnswerSummary = a.rightAnswerSummary
  modified : a'.modified = some x.time.cut
  steps : ∃ step : Step ν, a'.steps = a.steps ++ [step] ∧ step.Tells x

variable [Scalar ν]

/-- A kept draft is recorded as a step that tells the action it was made for. -/
lemma records_keep {a : Attempt ν} {b : Behaviour} {d : Draft ν} {x : Action}
    (h : b.rule a (Draft.new x.vars x.time x.actor) = .ok (.keep d)) :
    a.Records (a.keep d) x := by
  have hfollows := Behaviour.rule_follows h
  have htime : d.time = x.time.cut := hfollows.time
  have htells : d.record.Tells x := ⟨rfl, rfl, hfollows.submitted, htime, hfollows.actor⟩
  exact ⟨⟨rfl, rfl, rfl, rfl, rfl, rfl⟩, rfl, rfl, rfl, rfl, rfl, congrArg some htime, d.record, rfl,
    htells⟩

/-- An action is recorded faithfully or not at all.  When it fails or is discarded, the attempt is the
one it was and storage hears of nothing.  When it is kept, the attempt has one more step, which tells
the action, and is otherwise the one it was but for the summary of the response; and storage hears of
that step and, once, of the change. -/
theorem act_faithful (a : Attempt ν) (vars : Vars) (time : Instant) (actor : Option String) :
    let r := act vars time actor a
    match r.result with
    | .ok .kept =>
      a.Records r.state ⟨vars, time, actor⟩ ∧
        Event.notices r.events = [.stepAdded a.slot a.steps.length, .attemptModified a.slot]
    | .ok .discarded | .error _ => r.state = a ∧ Event.notices r.events = [] := by
  unfold act
  cases a.behaviour with
  | none => exact ⟨rfl, rfl⟩
  | some b =>
    cases hr : b.rule a (Draft.new vars time actor) with
    | error e => simp only [hr, Event.notices_nil, and_self]
    | ok r =>
      cases r with
      | discard =>
        simp only [hr, Event.notices_tally, Event.notices_nil, and_self]
      | keep d =>
        simp only [hr, Event.notices_tally, Event.notices_notice, Event.notices_nil, and_true]
        exact records_keep (x := ⟨vars, time, actor⟩) hr

/-- A log is recorded faithfully.  The steps that a log of actions adds come after those that were
there, and tell, one by one and in this order, the actions of a part of the log. -/
theorem afterActions_faithful (a : Attempt ν) (log : List Action) :
    ∃ kept later, List.Sublist kept log ∧ (a.afterActions log).steps = a.steps ++ later ∧
      List.Forall₂ Step.Tells later kept := by
  induction log using List.reverseRecOn with
  | nil => exact ⟨[], [], .slnil, (List.append_nil _).symm, .nil⟩
  | append_singleton log x ih =>
    obtain ⟨kept, later, hsub, hsteps, htells⟩ := ih
    rw [afterActions_append, afterAction]
    obtain ⟨hstate, -⟩ | ⟨b, d, -, hd, hstate, -⟩ :=
      act_cases (a.afterActions log) x.vars x.time x.actor
    · rw [hstate]
      exact ⟨kept, later, hsub.trans (List.sublist_append_left log [x]), hsteps, htells⟩
    · obtain ⟨step, hstep, htell⟩ := (records_keep (x := x) hd).steps
      refine ⟨kept ++ [x], later ++ [step], hsub.append (.refl _), ?_, ?_⟩
      · rw [hstate, hstep, hsteps, List.append_assoc]
      · exact List.rel_append htells (.cons htell .nil)

end Attempt
end Assessment
