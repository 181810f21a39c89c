import Assessment.Proofs.Attempt.Ending

/-!
# Only the last response counts

While an attempt is open, answers are saved and people remark on them.  What finishing makes of all
this depends on one response alone, the last one that was sent with a field of the question
(`lastResponse`), and not on what else was sent, what was discarded, or in which order
(`Attempt.finish_counts_last_response`).

The attempt need not have recorded that response.  Where it was discarded, it repeats the recorded one
in the eyes of the question, and then the two have the same answer (`Question.sameAnswer_of_isSame`).
So the invariant (`Attempt.AnswersAs`) asks for the same answer and not for the same variables.
-/

namespace Assessment

variable {ν : Type}

/-- The question's part of the last action that has any, kept or not. -/
def lastResponse (log : List Action) : Vars :=
  ((log.reverse.map fun x => x.vars.questionPart).find? fun vars => !vars.isEmpty).getD
    SortedMap.empty

lemma lastResponse_append (log : List Action) (x : Action) : lastResponse (log ++ [x]) =
    if x.vars.questionPart.isEmpty then lastResponse log else x.vars.questionPart := by
  rw [lastResponse, List.reverse_append, List.reverse_singleton, List.singleton_append,
    List.map_cons, List.find?_cons]
  cases x.vars.questionPart.isEmpty <;> rfl

/-- A repeated answer is the one that is recorded. -/
lemma Behaviour.sameAnswer_of_isSame [Scalar ν] {b : Behaviour} {a : Attempt ν} {d : Draft ν}
    (hb : b.savesAnswers = true) (h : b.isSame a d = true) :
    a.question.SameAnswer a.response d.vars.questionPart := by
  cases b with
  | certainty => exact Question.sameAnswer_of_isSame (Bool.and_eq_true_iff.1 h).1
  | deferred | immediate | manual => exact Question.sameAnswer_of_isSame h
  | _ => cases hb

namespace Attempt

lemma get?_gradeVars_none [Scalar ν] (comment : String) (a : Attempt ν) (key : String) :
    (gradeVars comment none a).get? key = if key = "-comment" then some comment else none :=
  SortedMap.get?_singleton "-comment" key comment

/-- A comment without a mark has no field of the question. -/
lemma questionPart_gradeVars_none [Scalar ν] (comment : String) (a : Attempt ν) :
    (gradeVars comment none a).questionPart.isEmpty = true := by
  have hempty : (gradeVars comment none a).questionPart = SortedMap.empty := by
    apply SortedMap.ext_get?
    intro key
    rw [Vars.questionPart, SortedMap.get?_filter, get?_gradeVars_none]
    split
    · rename_i hkey
      rw [hkey]
      rfl
    · rfl
  rw [hempty]
  rfl

namespace AnswersAs

variable [Scalar ν] {a : Attempt ν} {q : Question ν} {b : Behaviour} {response : Vars}

/-- An attempt that is started with no data has no answer. -/
lemma opened (ha : a.IsFresh q) (b : Behaviour) (time : Instant) (actor : Option String)
    (draw : Draw) :
    (a.opened ⟨b, SortedMap.empty, time, actor, draw⟩).AnswersAs q b SortedMap.empty := by
  have hopened := isOpened_opened ha ⟨b, SortedMap.empty, time, actor, draw⟩
  obtain ⟨first, hsteps, hstate, -⟩ := hopened.steps
  refine ⟨hopened.question, hopened.behaviour, ?_,
    q.sameAnswer_of_get? (get?_response_opened ha _)⟩
  rw [state, last?, hsteps]
  exact congrArg State.isFinished hstate

/-- A save gives the attempt the answer that it brings, whether it is kept or not. -/
lemma save (ha : a.AnswersAs q b response) (hsaves : b.savesAnswers = true) {x : Action}
    (hx : x.vars.onlySaves = true) : (a.afterAction x).AnswersAs q b
      (if x.vars.questionPart.isEmpty then response else x.vars.questionPart) := by
  obtain ⟨hwhy, -, hstate⟩ | ⟨-, -, -, d, hstate, hvars, hopen⟩ :=
    act_of_onlySaves ha.behaviour hsaves hx x.time x.actor
  · have hsame := Behaviour.sameAnswer_of_isSame hsaves
      (hwhy.resolve_left (Bool.eq_false_iff.1 ha.unfinished))
    rw [ha.question] at hsame
    rw [afterAction, hstate]
    refine ⟨ha.question, ha.behaviour, ha.unfinished, ?_⟩
    split
    · exact ha.answer
    · exact hsame
  · rw [afterAction, hstate]
    refine ⟨ha.question, ha.behaviour, by rw [state_keep, hopen], ?_⟩
    rw [response_keep, hvars]
    split
    · exact ha.answer
    · exact .refl q _

/-- A comment without a mark leaves the answer as it is, and the attempt open. -/
lemma remark (ha : a.AnswersAs q b response) (hsaves : b.savesAnswers = true) (comment : String)
    (time : Instant) (actor : Option String) :
    (grade comment none time actor a).state.AnswersAs q b response := by
  let d : Draft ν := Draft.new (gradeVars comment (none : Option ν) a) time actor
  have hget : ∀ key, d.vars.get? key = if key = "-comment" then some comment else none :=
    get?_gradeVars_none comment a
  have hcomment : b.takesComment d.vars = true := by
    have hhas : d.vars.hasBehaviour "comment" = true := by
      rw [Vars.hasBehaviour, Vars.behaviour?, hget]
      rfl
    cases b with
    | adaptive preferred => cases hsaves
    | _ => exact Bool.and_eq_true_iff.2 ⟨hhas, rfl⟩
  have hmark : Ruling.markText? d = none := by
    rw [Ruling.markText?, Vars.behaviour?, hget]
    rfl
  have hrule : b.rule a d = .ok (.keep { d with
      state := a.state.commented (none : Option ν)
      fraction := a.fraction }) := by
    rw [Behaviour.rule_of_takesComment a hcomment, ← Ruling.comment_of_noMark a hmark]
    cases b with
    | information => cases hsaves
    | _ => rfl
  have hempty : d.vars.questionPart.isEmpty = true := questionPart_gradeVars_none comment a
  obtain ⟨-, hstate⟩ := act_of_keep ha.behaviour hrule
  rw [grade, hstate]
  refine ⟨ha.question, ha.behaviour, ?_, ?_⟩
  · rw [state_keep]
    exact (State.isFinished_manual a.state).trans ha.unfinished
  · rw [response_keep, if_pos hempty]
    exact ha.answer

/-- After answers were saved and people remarked on them, the attempt gives the answer of the last
response, and it is open. -/
lemma afterActions (ha : a.AnswersAs q b SortedMap.empty) (hsaves : b.savesAnswers = true)
    {log : List Action} (hlog : ∀ x ∈ log, x.vars.onlySaves = true ∨
      ∃ comment, ∀ a : Attempt ν, x.vars = gradeVars comment none a) :
    (a.afterActions log).AnswersAs q b (lastResponse log) := by
  induction log using List.reverseRecOn with
  | nil => exact ha
  | append_singleton log x ih =>
    have hbefore := ih fun y hy => hlog y (List.mem_append_left _ hy)
    rw [afterActions_append, lastResponse_append]
    obtain hx | ⟨comment, hx⟩ := hlog x (List.mem_append_right _ List.mem_cons_self)
    · exact hbefore.save hsaves hx
    · have hempty : x.vars.questionPart.isEmpty = true := by
        rw [hx (a.afterActions log)]
        exact questionPart_gradeVars_none comment _
      rw [if_pos hempty, afterAction, hx (a.afterActions log)]
      exact hbefore.remark hsaves comment x.time x.actor

end AnswersAs

variable [Scalar ν]

/-- Only the last response counts.  Start an attempt with no data under deferred or immediate feedback
or manual grading, and send it answers to save and comments without a mark, in any number and order.
Then finishing is kept and grades the last response that was sent with a field of the question, or
the empty one if there is none, whether the attempt had kept that response or not.  What cannot be
graded is given up, without a fraction.  Under manual grading a complete response is left to a
person. -/
theorem finish_counts_last_response (q : Question ν) (usageId : String) (slot : Nat)
    (maxMark : Option ν) {b : Behaviour} (hb : b = .deferred ∨ b = .immediate ∨ b = .manual)
    (time : Instant) (actor : Option String) (draw : Draw) (log : List Action)
    (hlog : ∀ x ∈ log, x.vars.onlySaves = true ∨
      ∃ comment, ∀ a : Attempt ν, x.vars = gradeVars comment none a)
    (time' : Instant) (actor' : Option String) :
    let a := ((new q usageId slot maxMark).opened
      ⟨b, SortedMap.empty, time, actor, draw⟩).afterActions log
    let response := lastResponse log
    let ended := (finish time' actor' a).state
    (finish time' actor' a).result = .ok .kept ∧
      (b ≠ .manual → q.isGradable response = true →
        ended.state = (q.grade response).2 ∧ ended.fraction = some (q.grade response).1) ∧
      (b ≠ .manual → q.isGradable response = false →
        ended.state = .gaveUp ∧ ended.fraction = none) ∧
      (b = .manual → ended.fraction = none ∧
        ended.state = if q.isComplete response then .needsGrading else .gaveUp) := by
  intro a response ended
  have hsaves : b.savesAnswers = true := by
    obtain rfl | rfl | rfl := hb <;> rfl
  have ha : a.AnswersAs q b response :=
    (AnswersAs.opened (isFresh_new q usageId slot maxMark) b time actor draw).afterActions hsaves hlog
  have hmissing : ∀ storedName, b ≠ .missing storedName := fun storedName h => by simp [h] at hb
  have hgrades : b ≠ .manual → b.gradesLatest = true := fun hb' => by
    obtain rfl | rfl | rfl := hb
    · rfl
    · rfl
    · exact absurd rfl hb'
  obtain ⟨hkept, hstate, hfraction, -⟩ := ha.ends hmissing time' actor'
  rw [hstate, hfraction]
  refine ⟨hkept, fun hb' hr => ?_, fun hb' hr => ?_, fun hb' => ?_⟩
  · rw [Behaviour.ending_of_isGradable (hgrades hb') (ha.question.symm ▸ hr), ha.question]
    obtain rfl | rfl | rfl := hb
    · exact ⟨rfl, rfl⟩
    · exact ⟨rfl, rfl⟩
    · exact absurd rfl hb'
  · rw [Behaviour.ending_of_not_isGradable (hgrades hb') (ha.question.symm ▸ hr)]
    exact ⟨rfl, rfl⟩
  · rw [hb', Behaviour.ending, ha.question]
    exact ⟨rfl, rfl⟩

/-- An essay is saved, remarked on and saved again with other blanks around it, which is discarded.
It is the last response all the same, and it is left to a person. -/
theorem finish_counts_last_response_essay :
    let q : Question Float := .essay (Essay.new "q1" "Why is the sky blue?")
    let remark : Action :=
      ⟨gradeVars "Go on" (none : Option Float) (new q "u" 1 none), ⟨2500⟩, some "bob"⟩
    let log : List Action :=
      [⟨SortedMap.ofList [("answer", "Rayleigh")], ⟨1500⟩, some "ada"⟩, remark,
        ⟨SortedMap.ofList [("answer", " Rayleigh ")], ⟨3500⟩, some "ada"⟩]
    let a := ((new q "u" 1 none).opened
      ⟨.manual, SortedMap.empty, ⟨0⟩, none, ⟨0, 0⟩⟩).afterActions log
    a.steps.length = 3 ∧ lastResponse log = SortedMap.ofList [("answer", " Rayleigh ")] ∧
      (finish ⟨4500⟩ (some "ada") a).state.state = .needsGrading := by
  intro q remark log a
  have hlog : ∀ x ∈ log, x.vars.onlySaves = true ∨
      ∃ comment, ∀ a : Attempt Float, x.vars = gradeVars comment none a := by
    intro x hx
    simp only [log, List.mem_cons, List.not_mem_nil, or_false] at hx
    obtain rfl | rfl | rfl := hx
    · exact .inl (by decide)
    · exact .inr ⟨"Go on", fun _ => rfl⟩
    · exact .inl (by decide)
  have hlast : lastResponse log = SortedMap.ofList [("answer", " Rayleigh ")] := by decide +kernel
  obtain ⟨-, -, -, hmanual⟩ := finish_counts_last_response q "u" 1 none (.inr (.inr rfl)) ⟨0⟩ none
    ⟨0, 0⟩ log hlog ⟨4500⟩ (some "ada")
  refine ⟨by decide +kernel, hlast, ?_⟩
  rw [(hmanual rfl).2, hlast]
  decide +kernel

end Attempt
end Assessment
