import Assessment.Proofs.Attempt.Advance
import Assessment.Proofs.Behaviour.Ruling
import Mathlib.Data.List.Induction

/-!
# Histories of attempts

An attempt is made (`Attempt.new`), opened under a behaviour, and from then on sent actions.  This
module names those parts: `Opening`, `Action`, and the attempts `Attempt.opened` and
`Attempt.afterActions`.  Opening an attempt that is fresh gives it its first step
(`Attempt.start_of_isFresh`); after that only a kept action changes it, so what every kept action
keeps, a whole log keeps (`Attempt.afterActions_keeps`).
-/

namespace Assessment

/-- An action as it is sent to an attempt. -/
structure Action where
  vars : Vars
  time : Instant
  actor : Option String

/-- How an attempt is started. -/
structure Opening where
  behaviour : Behaviour
  vars : Vars
  time : Instant
  actor : Option String
  draw : Draw

variable {ν : Type}

namespace Attempt

/-- What the first step of an attempt starts with, and what it has to remember. -/
def firstVars (a : Attempt ν) (b : Behaviour) (draw : Draw) (vars : Vars) : Vars :=
  b.seed a draw (a.question.seed draw vars)

/-! ## The latest step of a kept action -/

@[simp] lemma last?_record (a : Attempt ν) (d : Draft ν) : (a.record d).last? = some d.record := by
  simp [last?, record]

@[simp] lemma state_record (a : Attempt ν) (d : Draft ν) : (a.record d).state = d.state := by
  rw [state, last?_record]
  rfl

@[simp] lemma last?_keep (a : Attempt ν) (d : Draft ν) : (a.keep d).last? = some d.record :=
  last?_record _ d

@[simp] lemma state_keep (a : Attempt ν) (d : Draft ν) : (a.keep d).state = d.state :=
  state_record _ d

@[simp] lemma fraction_keep (a : Attempt ν) (d : Draft ν) : (a.keep d).fraction = d.fraction := by
  rw [fraction, last?_keep]
  rfl

lemma mem_steps_keep {a : Attempt ν} {d : Draft ν} {step : Step ν} :
    step ∈ (a.keep d).steps ↔ step ∈ a.steps ∨ step = d.record := by
  simp [keep, record]

/-- A step after the first of an attempt that kept a draft is the one of the draft, or it was there
before. -/
lemma tail_keep_cases {a : Attempt ν} (ha : a.steps ≠ []) {d : Draft ν}
    {before after : List (Step ν)} {step : Step ν}
    (h : (a.keep d).steps.tail = before ++ step :: after) :
    (after = [] ∧ step = d.record ∧ a.steps.tail = before) ∨
      ∃ after', after = after' ++ [d.record] ∧ a.steps.tail = before ++ step :: after' := by
  have htail : (a.keep d).steps.tail = a.steps.tail ++ [d.record] := List.tail_append_of_ne_nil ha
  rw [htail] at h
  obtain rfl | ⟨after', last, rfl⟩ := List.eq_nil_or_concat after
  · obtain ⟨hbefore, hlast⟩ := List.append_inj' h rfl
    exact .inl ⟨rfl, (List.cons.inj hlast).1.symm, hbefore⟩
  · rw [List.concat_eq_append, ← List.cons_append, ← List.append_assoc] at h
    obtain ⟨hbefore, hlast⟩ := List.append_inj' h rfl
    exact .inr ⟨after', by rw [List.concat_eq_append, (List.cons.inj hlast).1], hbefore⟩

/-- The latest step is one of the steps. -/
lemma mem_steps_of_last? {a : Attempt ν} {step : Step ν} (h : a.last? = some step) :
    step ∈ a.steps :=
  List.mem_of_getLast? h

variable [Scalar ν]

/-- The attempt after it was started. -/
def opened (a : Attempt ν) (o : Opening) : Attempt ν :=
  (start o.behaviour o.vars o.time o.actor o.draw a).state

/-- The attempt after an action, whatever became of it. -/
def afterAction (a : Attempt ν) (x : Action) : Attempt ν := (act x.vars x.time x.actor a).state

/-- The attempt after several actions. -/
def afterActions (a : Attempt ν) (log : List Action) : Attempt ν := log.foldl afterAction a

/-! ## One action -/

/-- An action that the behaviour keeps succeeds. -/
lemma act_of_keep {a : Attempt ν} {b : Behaviour} {d : Draft ν} {vars : Vars} {time : Instant}
    {actor : Option String} (hb : a.behaviour = some b)
    (h : b.rule a (Draft.new vars time actor) = .ok (.keep d)) :
    (act vars time actor a).result = .ok .kept ∧ (act vars time actor a).state = a.keep d := by
  simp only [act, hb, h, and_self]

/-- An action that the behaviour discards changes nothing, and storage hears of nothing. -/
lemma act_of_discard {a : Attempt ν} {b : Behaviour} {vars : Vars} {time : Instant}
    {actor : Option String} (hb : a.behaviour = some b)
    (h : b.rule a (Draft.new vars time actor) = .ok .discard) :
    (act vars time actor a).result = .ok .discarded ∧ (act vars time actor a).state = a ∧
      Event.notices (act vars time actor a).events = [] := by
  simp only [act, hb, h, Event.notices_tally, Event.notices_nil, and_self]

/-! ## The first step -/

/-- An attempt at a question that is not started. -/
structure IsFresh (a : Attempt ν) (q : Question ν) : Prop where
  question : a.question = q
  steps : a.steps = []
  responseSummary : a.responseSummary = none

/-- The attempt that an unstarted one is after it was started. -/
lemma start_of_isFresh {a : Attempt ν} {q : Question ν} (ha : a.IsFresh q) (b : Behaviour)
    (vars : Vars) (time : Instant) (actor : Option String) (draw : Draw) :
    (start b vars time actor draw a).result = .ok () ∧
      (start b vars time actor draw a).state =
        ({ a with
            minFraction := some (b.minFraction q)
            questionSummary := q.summary
            rightAnswerSummary := q.rightSummary
            behaviour := some b } : Attempt ν).record
          ((Draft.new (a.firstVars b draw vars) time actor).withState .todo) := by
  have hempty : a.steps.isEmpty = true := by simp [ha.steps]
  simp only [start, hempty, if_true, ha.question, firstDraft, firstVars, and_self]

lemma isFresh_new (q : Question ν) (usageId : String) (slot : Nat) (maxMark : Option ν) :
    (new q usageId slot maxMark).IsFresh q :=
  ⟨rfl, rfl, rfl⟩

lemma exists_steps_opened {a : Attempt ν} {q : Question ν} (ha : a.IsFresh q) (o : Opening) :
    (a.opened o).maxMark = a.maxMark ∧ ∃ first, (a.opened o).steps = [first] := by
  rw [opened, (start_of_isFresh ha ..).2]
  exact ⟨rfl, _, by rw [record, ha.steps]; rfl⟩

/-- What opening a fresh attempt settles: the behaviour, the least fraction and a first step that is
still to do and has no fraction. -/
structure IsOpened (a : Attempt ν) (q : Question ν) (b : Behaviour) : Prop where
  question : a.question = q
  behaviour : a.behaviour = some b
  minFraction : a.minFraction = some (b.minFraction q)
  steps : ∃ first, a.steps = [first] ∧ first.state = .todo ∧ first.fraction = none

lemma isOpened_opened {a : Attempt ν} {q : Question ν} (ha : a.IsFresh q) (o : Opening) :
    (a.opened o).IsOpened q o.behaviour := by
  have hopened := (start_of_isFresh ha o.behaviour o.vars o.time o.actor o.draw).2
  rw [opened, hopened]
  exact ⟨ha.question, rfl, rfl, _, by rw [record, ha.steps]; rfl, rfl, rfl⟩

/-! ## Logs -/

lemma afterActions_append (a : Attempt ν) (log : List Action) (x : Action) :
    a.afterActions (log ++ [x]) = (a.afterActions log).afterAction x := by
  simp [afterActions]

/-- What every kept action keeps, a log of actions keeps: the others change nothing. -/
lemma afterActions_keeps {P : Attempt ν → Prop} {log : List Action}
    (hkeep : ∀ x ∈ log, ∀ {a : Attempt ν} {b : Behaviour} {d : Draft ν}, P a →
      a.behaviour = some b → b.rule a (Draft.new x.vars x.time x.actor) = .ok (.keep d) →
      P (a.keep d))
    {a : Attempt ν} (ha : P a) : P (a.afterActions log) := by
  induction log using List.reverseRecOn with
  | nil => exact ha
  | append_singleton log x ih =>
    have hlog : P (a.afterActions log) := ih fun y hy => hkeep y (List.mem_append_left _ hy)
    rw [afterActions_append, afterAction]
    obtain ⟨hstate, -⟩ | ⟨b, d, hb, hd, hstate, -⟩ :=
      act_cases (a.afterActions log) x.vars x.time x.actor
    · rw [hstate]
      exact hlog
    · rw [hstate]
      exact hkeep x (by simp) hlog hb hd

/-- A log leaves the behaviour of an attempt alone. -/
lemma behaviour_afterActions (a : Attempt ν) (log : List Action) :
    (a.afterActions log).behaviour = a.behaviour :=
  afterActions_keeps (P := fun a' => a'.behaviour = a.behaviour) (fun _ _ _ _ _ h _ _ => h) rfl

/-- A log leaves the question of an attempt alone. -/
lemma question_afterActions (a : Attempt ν) (log : List Action) :
    (a.afterActions log).question = a.question :=
  afterActions_keeps (P := fun a' => a'.question = a.question) (fun _ _ _ _ _ h _ _ => h) rfl

/-- Actions leave the marks of an attempt alone, forget no step, and add only steps that hold what
one of them submitted. -/
lemma afterActions_frame (a : Attempt ν) (log : List Action) :
    (a.afterActions log).maxMark = a.maxMark ∧
      ∃ later, (a.afterActions log).steps = a.steps ++ later ∧
        ∀ step ∈ later, ∃ x ∈ log, step.vars.submitted = x.vars.submitted := by
  refine afterActions_keeps (P := fun a' => a'.maxMark = a.maxMark ∧ ∃ later,
    a'.steps = a.steps ++ later ∧ ∀ step ∈ later, ∃ x ∈ log,
      step.vars.submitted = x.vars.submitted) ?_ ⟨rfl, [], by simp, by simp⟩
  rintro x hx a' b d ⟨hmax, later, hlater, hfrom⟩ - hd
  refine ⟨hmax, later ++ [d.record], by simp [keep, record, hlater], fun step hstep => ?_⟩
  rcases List.mem_append.1 hstep with hstep | hstep
  · exact hfrom step hstep
  · obtain rfl := List.mem_singleton.1 hstep
    exact ⟨x, hx, (Behaviour.rule_follows hd).submitted⟩

end Attempt
end Assessment
