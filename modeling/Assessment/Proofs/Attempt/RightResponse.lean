import Assessment.Proofs.Attempt.LastResponse
import Assessment.Proofs.Attempt.Resubmission
import Assessment.Proofs.Question.Right

/-!
# The right response ends an attempt as correct

An attempt says what a right answer to it is (`Attempt.rightResponse`).  Main result: under every
behaviour that grades, this response sent to an open attempt, and then finishing, end the attempt as
correct (`Attempt.right_response_graded_correct`).

Four behaviours save the response, or discard it because the attempt has the answer already.  Either
way the attempt gives this answer then (`Attempt.answersAs_of_rightResponse`), and finishing grades it.
The adaptive behaviour grades at once and grades nothing any more when it finishes, so there the
response must not be discarded.  It would be if it had been submitted just now; but an answer that can
be graded ends the attempt, and that is the invariant (`Attempt.Unanswered`).
-/

namespace Assessment

variable {ν : Type}

/-! ## Bare answers -/

namespace Vars

variable (answer : String)

lemma onlySaves_ofAnswer : (ofAnswer answer).onlySaves = true := by
  simp only [onlySaves, hasBehaviour_ofAnswer, Bool.or_self, Bool.not_false]

/-- Saying a certainty asks for nothing. -/
lemma onlySaves_insert_certainty (vars : Vars) (value : String) :
    Vars.onlySaves (vars.insert (Owner.behaviour.key "certainty") value) = vars.onlySaves := by
  have hother : ∀ name, Owner.behaviour.key name ≠ Owner.behaviour.key "certainty" →
      Vars.hasBehaviour (vars.insert (Owner.behaviour.key "certainty") value) name =
        vars.hasBehaviour name := fun name hne => by
    rw [hasBehaviour, behaviour?, SortedMap.get?_insert_of_ne _ hne]
    rfl
  rw [onlySaves, hother "comment" (by decide), hother "finish" (by decide),
    hother "submit" (by decide)]
  rfl

lemma hasLead_ofAnswer : (ofAnswer answer).hasLead "omact_" = false := by
  apply hasLead_eq_false
  intro key hkey
  obtain ⟨value, hvalue⟩ := SortedMap.mem_keys_iff.1 hkey
  rw [get?_ofAnswer] at hvalue
  split at hvalue
  · rename_i hfield
    rw [hfield]
    decide
  · cases hvalue

end Vars

namespace Attempt

/-! ## Recognised answers -/

/-- An attempt that was just submitted an answer has it as its response. -/
lemma get?_response_of_lastSubmitted {a : Attempt ν} {vars : Vars} {answer : String}
    (h : a.lastSubmitted vars = true) (hanswer : vars.get? answerField = some answer) :
    a.response.get? answerField = some answer := by
  obtain ⟨last, hlast, hsame⟩ := exists_of_lastSubmitted h
  have hfield : last.vars.questionPart.get? answerField = some answer := by
    rw [Vars.get?_questionPart _ (by decide), ← Vars.get?_submitted _ (by decide), hsame,
      Vars.get?_submitted _ (by decide), hanswer]
  obtain ⟨before, hsteps⟩ := List.getLast?_eq_some_iff.1 hlast
  have hresponse : a.response = last.vars.questionPart := by
    rw [response, latestFirst, hsteps, List.reverse_append, List.reverse_singleton,
      List.singleton_append, List.map_cons,
      List.find?_cons_of_pos (by simp [SortedMap.isEmpty_eq_false_of_get? hfield]), Option.getD_some]
  rw [hresponse, hfield]

lemma get?_response_keep (a : Attempt ν) {d : Draft ν} {answer : String}
    (h : d.vars.get? answerField = some answer) :
    (a.keep d).response.get? answerField = some answer := by
  have hfield : d.vars.questionPart.get? answerField = some answer := by
    rw [Vars.get?_questionPart _ (by decide), h]
  rw [response_keep, if_neg (by simp [SortedMap.isEmpty_eq_false_of_get? hfield]), hfield]

variable [Scalar ν]

/-- A save that has an answer gives it to the attempt, whether it is kept or not. -/
lemma answersAs_of_save {a : Attempt ν} {b : Behaviour} (hb : a.behaviour = some b)
    (hsaves : b.savesAnswers = true) (hopen : a.state.isFinished = false) {vars : Vars}
    (hvars : vars.onlySaves = true) {answer : String} (hanswer : vars.get? answerField = some answer)
    (time : Instant) (actor : Option String) :
    let first := act vars time actor a
    (first.result = .ok .kept ∨ first.result = .ok .discarded) ∧
      first.state.AnswersAs a.question b (Vars.ofAnswer answer) := by
  intro first
  have hbefore : a.AnswersAs a.question b a.response := ⟨rfl, hb, hopen, .refl _ _⟩
  have hafter := hbefore.save hsaves (x := ⟨vars, time, actor⟩) hvars
  have hfield : vars.questionPart.get? answerField = some answer := by
    rw [Vars.get?_questionPart _ (by decide), hanswer]
  rw [if_neg (by simp [SortedMap.isEmpty_eq_false_of_get? hfield])] at hafter
  refine ⟨?_, hafter.congr (a.question.sameAnswer_of_get?
    (hfield.trans (Vars.get?_ofAnswer_self answer).symm))⟩
  obtain ⟨-, hresult, -⟩ | ⟨-, -, hresult, -⟩ := act_of_onlySaves hb hsaves hvars time actor
  · exact .inr hresult
  · exact .inl hresult

/-- A save under certainty that says one: afterwards this is the latest certainty. -/
lemma behaviour?_certainty_of_save {a : Attempt ν} (hb : a.behaviour = some .certainty)
    (hopen : a.state.isFinished = false) {vars : Vars} (hvars : vars.onlySaves = true)
    {value : String} (hvalue : vars.behaviour? "certainty" = some value) (time : Instant)
    (actor : Option String) :
    (act vars time actor a).state.behaviour? "certainty" = some value := by
  obtain ⟨hwhy, -, hstate⟩ | ⟨-, -, -, d, hstate, hdvars, -⟩ :=
    act_of_onlySaves hb rfl hvars time actor
  · have hsame := hwhy.resolve_left (Bool.eq_false_iff.1 hopen)
    rw [hstate, beq_iff_eq.1 (Bool.and_eq_true_iff.1 hsame).2]
    exact hvalue
  · rw [hstate, behaviour?_keep, hdvars, hvalue, Option.some_or]

end Attempt

/-! ## Interactive tries -/

namespace Interactive

variable [Scalar ν] {a : Attempt ν}

/-- An open attempt that does not wait takes a bare answer, or it was submitted this one just now.
Either way the answer is its response then, and the tries that are left stay. -/
lemma answersAs_of_answer (hb : a.behaviour = some .interactive) (hopen : a.state.isFinished = false)
    (hretry : awaitsRetry a = false) (answer : String) (time : Instant) (actor : Option String) :
    let first := Attempt.act (Vars.ofAnswer answer) time actor a
    (first.result = .ok .kept ∨ first.result = .ok .discarded) ∧
      first.state.AnswersAs a.question .interactive (Vars.ofAnswer answer) ∧
      triesLeft first.state = triesLeft a := by
  intro first
  let d : Draft ν := Draft.new (Vars.ofAnswer answer) time actor
  have hrule : Behaviour.interactive.rule a d =
      .ok (Ruling.save (a.lastSubmitted (Vars.ofAnswer answer)) a d) := by
    have hasks : ∀ name, d.vars.hasBehaviour name = false := Vars.hasBehaviour_ofAnswer answer
    have hsame : sameness.holds a d = a.lastSubmitted (Vars.ofAnswer answer) :=
      Sameness.bySubmission_holds (Vars.hasLead_ofAnswer answer) a time actor
    rw [rule_eq, hasks, hasks, hasks, hasks, ← hsame]
    simp only [save, hretry, Bool.false_eq_true, if_false]
  cases hlast : a.lastSubmitted (Vars.ofAnswer answer) with
  | true =>
    have hdiscard : Ruling.save true a d = .discard := if_pos (Bool.or_true _)
    rw [hlast, hdiscard] at hrule
    obtain ⟨hresult, hstate, -⟩ := Attempt.act_of_discard hb hrule
    have hfield := Attempt.get?_response_of_lastSubmitted hlast (Vars.get?_ofAnswer_self answer)
    rw [show first.state = a from hstate]
    exact ⟨.inr hresult, ⟨rfl, hb, hopen, a.question.sameAnswer_of_get?
      (hfield.trans (Vars.get?_ofAnswer_self answer).symm)⟩, rfl⟩
  | false =>
    obtain ⟨d', hd', hvars, hopen'⟩ := Behaviour.save_of_open (d := d) hopen
    rw [hlast, hd'] at hrule
    obtain ⟨hresult, hstate⟩ := Attempt.act_of_keep hb hrule
    have hdvars : d'.vars = Vars.ofAnswer answer := hvars
    rw [show first.state = a.keep d' from hstate]
    refine ⟨.inl hresult, ⟨rfl, hb, by rw [Attempt.state_keep, hopen'], ?_⟩, ?_⟩
    · have hfield := a.get?_response_keep (hdvars ▸ Vars.get?_ofAnswer_self answer)
      exact a.question.sameAnswer_of_get? (hfield.trans (Vars.get?_ofAnswer_self answer).symm)
    · rw [triesLeft, Attempt.behaviour?_keep, hdvars, Vars.behaviour?_ofAnswer, Option.none_or]
      rfl

end Interactive

/-! ## Adaptive questions -/

namespace Adaptive

variable [Scalar ν] {a : Attempt ν} {d d' : Draft ν}

/-- An answer that can be graded is graded when it is kept. -/
lemma graded_of_submit (hr : a.question.isGradable d.vars.questionPart = true)
    (h : submit a d = .keep d') : d'.state = (a.question.grade d.vars.questionPart).2 ∧
      d'.fraction = some (a.question.grade d.vars.questionPart).1 := by
  unfold submit at h
  split_ifs at h
  cases h
  rw [Ruling.gradeDraft, if_pos hr]
  exact ⟨rfl, rfl⟩

/-- The answer that an open attempt was not submitted just now is graded at once. -/
lemma graded_of_answer {preferred : String} (hb : a.behaviour = some (.adaptive preferred))
    (hopen : a.state.isFinished = false) {answer : String}
    (hnew : a.lastSubmitted (Vars.ofAnswer answer) = false)
    (hr : a.question.isGradable (Vars.ofAnswer answer) = true) (time : Instant)
    (actor : Option String) :
    let first := Attempt.act (Vars.ofAnswer answer) time actor a
    first.result = .ok .kept ∧ first.state.behaviour = some (.adaptive preferred) ∧
      first.state.state = (a.question.grade (Vars.ofAnswer answer)).2 ∧
      first.state.fraction = some (a.question.grade (Vars.ofAnswer answer)).1 := by
  intro first
  let d : Draft ν := Draft.new (Vars.ofAnswer answer) time actor
  have hpart : d.vars.questionPart = Vars.ofAnswer answer := Vars.questionPart_ofAnswer answer
  have hsame : sameness.holds a d = false :=
    (Sameness.bySubmission_holds (Vars.hasLead_ofAnswer answer) a time actor).trans hnew
  obtain ⟨d', hd'⟩ := exists_of_submit (a := a) (d := d) (by rw [hopen, hsame]; rfl)
  have hrule : (Behaviour.adaptive preferred).rule a d = .ok (.keep d') := by
    have hasks : ∀ name, d.vars.hasBehaviour name = false := Vars.hasBehaviour_ofAnswer answer
    rw [rule_eq, hasks, hasks, hd']
    rfl
  obtain ⟨hresult, hstate⟩ := Attempt.act_of_keep hb hrule
  obtain ⟨hgraded, hfraction⟩ := graded_of_submit (hpart ▸ hr) hd'
  rw [hpart] at hgraded hfraction
  rw [show first.state = a.keep d' from hstate, Attempt.state_keep, Attempt.fraction_keep]
  exact ⟨hresult, hb, hgraded, hfraction⟩

end Adaptive

namespace Attempt

variable [Scalar ν]

/-- An adaptive attempt at a question that, as long as it is open, was not just submitted an answer
that can be graded.  Such an answer would have ended it. -/
structure Unanswered (a : Attempt ν) (q : Question ν) (preferred : String) : Prop where
  question : a.question = q
  behaviour : a.behaviour = some (.adaptive preferred)
  last : a.state.isFinished = false → ∀ vars : Vars, vars.hasBehaviour "comment" = false →
    q.isGradable vars.questionPart = true → a.lastSubmitted vars = false

namespace Unanswered

variable {a : Attempt ν} {q : Question ν} {preferred : String}

/-- An attempt that is started with no data was submitted nothing. -/
lemma opened (ha : a.IsFresh q) (preferred : String) (time : Instant) (actor : Option String)
    (draw : Draw) :
    (a.opened ⟨.adaptive preferred, SortedMap.empty, time, actor, draw⟩).Unanswered q preferred := by
  have hopened := isOpened_opened ha ⟨.adaptive preferred, SortedMap.empty, time, actor, draw⟩
  obtain ⟨first, hsteps, hvars⟩ := exists_first_vars ha
    ⟨.adaptive preferred, SortedMap.empty, time, actor, draw⟩
  refine ⟨hopened.question, hopened.behaviour, fun _ vars _ hr => ?_⟩
  refine Bool.eq_false_iff.2 fun hlast => ?_
  obtain ⟨last, hfirst, hsame⟩ := exists_of_lastSubmitted hlast
  rw [last?, hsteps, List.getLast?_singleton] at hfirst
  obtain rfl := Option.some.inj hfirst
  obtain ⟨answer, hanswer⟩ := Question.exists_answer_of_isGradable hr
  rw [Vars.get?_questionPart _ (by decide), ← Vars.get?_submitted _ (by decide), ← hsame, hvars,
    submitted_firstVars] at hanswer
  cases hanswer

/-- What leaves the attempt open is no finish, and if it is no comment, it cannot be graded. -/
lemma keep (ha : a.Unanswered q preferred) {x : Action} {d : Draft ν}
    (h : (Behaviour.adaptive preferred).rule a (Draft.new x.vars x.time x.actor) = .ok (.keep d)) :
    (a.keep d).Unanswered q preferred := by
  refine ⟨ha.question, ha.behaviour, fun hopen vars hcomment hr => ?_⟩
  refine Bool.eq_false_iff.2 fun hlast => ?_
  obtain ⟨last, hkept, hsame⟩ := exists_of_lastSubmitted hlast
  rw [last?_keep] at hkept
  obtain rfl := Option.some.inj hkept
  rw [state_keep] at hopen
  have hsent : x.vars.submitted = vars.submitted :=
    (Behaviour.rule_follows h).submitted.symm.trans hsame
  have hno : x.vars.hasBehaviour "comment" = false := by
    rw [Vars.hasBehaviour, ← x.vars.behaviour?_submitted "comment" (by decide), hsent,
      vars.behaviour?_submitted "comment" (by decide)]
    exact hcomment
  have hanswer : q.SameAnswer x.vars.questionPart vars.questionPart := by
    apply Question.sameAnswer_of_get?
    rw [Vars.get?_questionPart _ (by decide), ← Vars.get?_submitted _ (by decide), hsent,
      Vars.get?_submitted _ (by decide), Vars.get?_questionPart _ (by decide)]
  rw [Adaptive.rule_eq] at h
  split_ifs at h with hfinish hcomment'
  · have hends : (Adaptive.finish a (Draft.new x.vars x.time x.actor)).Ends a :=
      Behaviour.onFinish_ends (b := .adaptive preferred) (fun _ hb => by cases hb) a _
    rw [Except.ok.inj h] at hends
    exact absurd (hopen.symm.trans hends) Bool.false_ne_true
  · simp [Draft.new, hno] at hcomment'
  · have hr' : a.question.isGradable x.vars.questionPart = true := by
      rw [ha.question, hanswer.isGradable, hr]
    have hends : d.state.isFinished = true :=
      (congrArg State.isFinished (Adaptive.graded_of_submit hr' (Except.ok.inj h)).1).trans
        (Question.isFinished_grade hr')
    exact absurd (hopen.symm.trans hends) Bool.false_ne_true

/-- An adaptive attempt that was started with no data and sent any actions. -/
lemma afterActions (ha : a.Unanswered q preferred) (log : List Action) :
    (a.afterActions log).Unanswered q preferred :=
  afterActions_keeps (P := fun a => a.Unanswered q preferred)
    (fun _ _ _ _ _ ha hb hd => by
      obtain rfl := Option.some.inj (ha.behaviour.symm.trans hb)
      exact ha.keep hd) ha

end Unanswered
end Attempt

/-! ## The right response -/

section

variable [Scalar ν]

/-- The behaviours that grade answers by themselves, at once or in the end. -/
def Behaviour.grades : Behaviour → Bool
  | adaptive _ => true
  | b => b.gradesLatest

/-- What the right response earns under a behaviour when its raw fraction is `raw`: it is sent with high
certainty, and it is penalised for the tries that were counted. -/
def Behaviour.rewards : Behaviour → Attempt ν → ν → ν
  | certainty, _, raw => Certainty.high.adjust raw
  | interactive, a, raw => Interactive.penalised a raw (Interactive.triesLeft a)
  | _, _, raw => raw

namespace Attempt

/-- Sent to an open attempt that saves it, the right response is the one that the attempt gives then,
whether it was kept or not. -/
lemma answersAs_of_rightResponse {a : Attempt ν} {b : Behaviour} (hb : a.behaviour = some b)
    (hgrades : b.gradesLatest = true) (hactive : a.state.isActive = true)
    (hretry : b = .interactive → Interactive.awaitsRetry a = false) {answer : String}
    (hright : a.question.rightResponse = Vars.ofAnswer answer) (time : Instant)
    (actor : Option String) :
    let first := act a.rightResponse time actor a
    (first.result = .ok .kept ∨ first.result = .ok .discarded) ∧
      first.state.AnswersAs a.question b (Vars.ofAnswer answer) ∧
      ∀ raw, b.earned first.state raw = b.rewards a raw := by
  intro first
  have hopen := State.not_isFinished_of_isActive hactive
  have hvars : a.rightResponse = (Vars.ofAnswer answer).withBehaviour (b.rightResponse a) := by
    rw [rightResponse, hb, hright]
  have hfirst : ∀ {vars : Vars}, a.rightResponse = vars → first = act vars time actor a :=
    fun h => by rw [← h]
  have hfield := Vars.get?_ofAnswer_self answer
  cases b with
  | deferred | immediate =>
    rw [hfirst hvars]
    obtain ⟨hresult, hanswered⟩ :=
      answersAs_of_save hb rfl hopen (Vars.onlySaves_ofAnswer answer) hfield time actor
    exact ⟨hresult, hanswered, fun _ => rfl⟩
  | certainty =>
    have hsure : a.rightResponse =
        (Vars.ofAnswer answer).insert (Owner.behaviour.key "certainty") Certainty.high.text := by
      rw [hvars, Behaviour.rightResponse, if_pos hactive]
      rfl
    have hsaves := (Vars.onlySaves_insert_certainty (Vars.ofAnswer answer)
      Certainty.high.text).trans (Vars.onlySaves_ofAnswer answer)
    rw [hfirst hsure]
    obtain ⟨hresult, hanswered⟩ := answersAs_of_save hb rfl hopen hsaves
      ((SortedMap.get?_insert_of_ne _ (by decide) _).trans hfield) time actor
    have hcertainty := behaviour?_certainty_of_save hb hopen hsaves
      (SortedMap.get?_insert_self _ _ _) time actor
    refine ⟨hresult, hanswered, fun raw => ?_⟩
    rw [Behaviour.earned, hcertainty]
    rfl
  | interactive =>
    rw [hfirst hvars]
    obtain ⟨hresult, hanswered, hleft⟩ :=
      Interactive.answersAs_of_answer hb hopen (hretry rfl) answer time actor
    refine ⟨hresult, hanswered, fun raw => ?_⟩
    have hquestion : (act (Vars.ofAnswer answer) time actor a).state.question = a.question :=
      hanswered.question
    show Interactive.penalised (act (Vars.ofAnswer answer) time actor a).state raw
      (Interactive.triesLeft (act (Vars.ofAnswer answer) time actor a).state) = _
    rw [hleft, Interactive.penalised, Interactive.totalTries, hquestion]
    rfl
  | _ => cases hgrades

/-- Sent to an open adaptive attempt, the right response is graded at once, and finishing comes too
late. -/
lemma Unanswered.graded_of_rightResponse {a : Attempt ν} {q : Question ν} {preferred : String}
    (ha : a.Unanswered q preferred) (hopen : a.state.isFinished = false) {answer : String}
    (hright : q.rightResponse = Vars.ofAnswer answer)
    (hr : q.isGradable (Vars.ofAnswer answer) = true) (time time' : Instant)
    (actor actor' : Option String) :
    let first := act a.rightResponse time actor a
    let second := finish time' actor' first.state
    first.result = .ok .kept ∧ second.result = .ok .discarded ∧
      second.state.state = (q.grade (Vars.ofAnswer answer)).2 ∧
      second.state.fraction = some (q.grade (Vars.ofAnswer answer)).1 := by
  intro first second
  have hvars : a.rightResponse = Vars.ofAnswer answer := by
    rw [rightResponse, ha.behaviour, ha.question, hright]
    rfl
  have hnew : a.lastSubmitted (Vars.ofAnswer answer) = false :=
    ha.last hopen _ (Vars.hasBehaviour_ofAnswer answer "comment")
      ((congrArg q.isGradable (Vars.questionPart_ofAnswer answer)).trans hr)
  obtain ⟨hkept, hbehaviour, hstate, hfraction⟩ :=
    Adaptive.graded_of_answer ha.behaviour hopen hnew (ha.question ▸ hr) time actor
  rw [← hvars] at hkept hbehaviour hstate hfraction
  have hfinished : first.state.state.isFinished = true := by
    rw [hstate, hvars, ha.question, Question.isFinished_grade hr]
  obtain ⟨hdiscarded, hsame, -⟩ :=
    act_of_isFinished hbehaviour hfinished hasBehaviour_comment_finishVars time' actor'
  rw [show second.state = first.state from hsame, hstate, hfraction, hvars, ha.question]
  exact ⟨hkept, hdiscarded, rfl, rfl⟩

/-- The right response is graded as correct, among numbers of which one counts as correct.  Take a
statement, or a choice of which some answer earns enough to count as correct.  Start an attempt with no
data under a behaviour that grades, send it any actions, and let it be open and not wait for the learner
to ask to try again.  Send it its own right response, and then finish it.  Neither of the two fails, and
whether the first was kept or discarded, the attempt ends as correct.  It earns what the question gives
for the right response: under certainty that is adjusted for high certainty, and under the interactive
behaviour penalised for the tries that were counted, and both remember the fraction as the question
gives it. -/
theorem right_response_graded_correct (hone : State.correctAbove < (1.0 : ν)) {q : Question ν}
    (hq : q.HasRight) (usageId : String) (slot : Nat) (maxMark : Option ν) {b : Behaviour}
    (hgrades : b.grades = true) (time : Instant) (actor : Option String) (draw : Draw)
    (log : List Action) :
    let a := ((new q usageId slot maxMark).opened
      ⟨b, SortedMap.empty, time, actor, draw⟩).afterActions log
    a.state.isActive = true → (b = .interactive → Interactive.awaitsRetry a = false) →
    ∀ (time time' : Instant) (actor actor' : Option String),
      let first := act a.rightResponse time actor a
      let second := finish time' actor' first.state
      let raw := (q.grade q.rightResponse).1
      (first.result = .ok .kept ∨ first.result = .ok .discarded) ∧
        (second.result = .ok .kept ∨ second.result = .ok .discarded) ∧
        second.state.state = .gradedCorrect ∧
        second.state.fraction = some (b.rewards a raw) ∧
        (b.remembersRaw = true →
          second.state.behaviour? "_rawfraction" = some (Scalar.plain raw)) := by
  intro a hactive hretry time₁ time₂ actor₁ actor₂ first second raw
  have hfresh := isFresh_new q usageId slot maxMark
  have hopened := isOpened_opened hfresh ⟨b, SortedMap.empty, time, actor, draw⟩
  have hquestion : a.question = q := (question_afterActions _ log).trans hopened.question
  have hb : a.behaviour = some b := (behaviour_afterActions _ log).trans hopened.behaviour
  obtain ⟨answer, hright, hr, hcorrect⟩ := Question.exists_rightResponse hone hq
  rw [hright] at hr hcorrect
  have hraw : raw = (q.grade (Vars.ofAnswer answer)).1 := by rw [← hright]
  have hcases : (∃ preferred, b = .adaptive preferred) ∨ b.gradesLatest = true := by
    cases b with
    | adaptive preferred => exact .inl ⟨preferred, rfl⟩
    | _ => exact .inr hgrades
  rw [hraw]
  obtain ⟨preferred, rfl⟩ | hlatest := hcases
  · have hunanswered : a.Unanswered q preferred :=
      (Unanswered.opened hfresh preferred time actor draw).afterActions log
    obtain ⟨hkept, hdiscarded, hstate, hfraction⟩ := hunanswered.graded_of_rightResponse
      (State.not_isFinished_of_isActive hactive) hright hr time₁ time₂ actor₁ actor₂
    exact ⟨.inl hkept, .inr hdiscarded, hstate.trans hcorrect, hfraction, fun h => by cases h⟩
  · have hright' : a.question.rightResponse = Vars.ofAnswer answer := hquestion ▸ hright
    obtain ⟨hresult, hanswered, hrewards⟩ :=
      answersAs_of_rightResponse hb hlatest hactive hretry hright' time₁ actor₁
    rw [hquestion] at hanswered
    have hmissing : ∀ storedName, b ≠ .missing storedName := fun storedName h => by
      simp [h, Behaviour.gradesLatest] at hlatest
    obtain ⟨hkept, hstate, hfraction, hremembered⟩ := hanswered.ends hmissing time₂ actor₂
    rw [Behaviour.ending_of_isGradable hlatest (hanswered.question.symm ▸ hr), hanswered.question,
      hrewards] at hstate hfraction
    exact ⟨hresult, .inl hkept, hstate.trans hcorrect, hfraction, fun h => hremembered h hr⟩

/-- A choice answered wrongly, tried again and answered rightly, which is saved.  Its right response
repeats this and is discarded, and finishing earns it less the penalty for the first try. -/
theorem right_response_graded_correct_again :
    let q : Question (Exact .decimal) := .multiChoice
      { MultiChoice.new "q1" "Pick the prime"
          [⟨"Four", Exact.rational 0, none⟩, ⟨"Five", Exact.rational 1, none⟩] with
        penalty := Exact.rational (1 / 4), hints := ["It is odd"] }
    let log : List Action :=
      [⟨SortedMap.ofList [("answer", "0"), ("-submit", "1")], ⟨1500⟩, some "ada"⟩,
        ⟨SortedMap.ofList [("-tryagain", "1")], ⟨2500⟩, some "ada"⟩,
        ⟨SortedMap.ofList [("answer", "1")], ⟨3500⟩, some "ada"⟩]
    let a := ((new q "u" 1 none).opened
      ⟨.interactive, SortedMap.empty, ⟨0⟩, none, ⟨0, 0⟩⟩).afterActions log
    let first := act a.rightResponse ⟨4500⟩ (some "ada") a
    let second := finish ⟨5500⟩ (some "ada") first.state
    State.correctAbove < (1.0 : Exact .decimal) ∧ q.HasRight ∧ a.state.isActive = true ∧
      Interactive.awaitsRetry a = false ∧ first.result = .ok .discarded ∧
      second.state.state = .gradedCorrect ∧
      second.state.fraction = some (Exact.rational (3 / 4)) := by
  intro q log a first second
  have hone : State.correctAbove < (1.0 : Exact .decimal) := by decide +kernel
  have hq : q.HasRight := by
    refine ⟨by decide, ⟨"Five", Exact.rational 1, none⟩, ?_, by decide +kernel⟩
    exact List.mem_cons_of_mem _ List.mem_cons_self
  have hactive : a.state.isActive = true := by decide +kernel
  have hretry : Interactive.awaitsRetry a = false := by decide +kernel
  obtain ⟨-, -, hstate, hfraction, -⟩ := right_response_graded_correct hone hq "u" 1 none
    (b := .interactive) rfl ⟨0⟩ none ⟨0, 0⟩ log hactive (fun _ => hretry) ⟨4500⟩ ⟨5500⟩ (some "ada")
    (some "ada")
  have hrewards : Behaviour.interactive.rewards a (q.grade q.rightResponse).1 =
      Exact.rational (3 / 4) := by decide +kernel
  exact ⟨hone, hq, hactive, hretry, by decide +kernel, hstate,
    hfraction.trans (congrArg some hrewards)⟩

end Attempt
end
end Assessment
