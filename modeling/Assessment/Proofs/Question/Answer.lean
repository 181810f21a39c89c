import Assessment.Proofs.Attempt.History
import Assessment.Proofs.Data.SortedMap

/-!
# What a question reads of a response

A question reads nothing of a response but its answer.  An essay reads the text of the answer field
without the blanks at its ends, every other question the field as it is.  So two responses with the
same answer (`Question.SameAnswer`) are complete together, can be graded together, and earn the same.

A response that is discarded as a repetition has the answer of the one that it repeats
(`Question.sameAnswer_of_isSame`), so either can stand for the other.  What chance and the behaviour
write into a first step is cached and is no part of an answer (`Attempt.submitted_firstVars`).
-/

namespace Assessment

variable {ν : Type}

namespace Vars

/-- What is not cached was submitted as it is. -/
lemma get?_submitted (vars : Vars) {key : String} (h : isCachedKey key = false) :
    vars.submitted.get? key = vars.get? key := by
  rw [submitted, SortedMap.get?_filter, h]
  cases vars.get? key <;> rfl

/-- What is not the behaviour's is in the question's part as it is. -/
lemma get?_questionPart (vars : Vars) {key : String} (h : isBehaviourKey key = false) :
    vars.questionPart.get? key = vars.get? key := by
  rw [questionPart, SortedMap.get?_filter, h]
  cases vars.get? key <;> rfl

/-- The question's part holds nothing else. -/
lemma get?_of_get?_questionPart {vars : Vars} {key value : String}
    (h : vars.questionPart.get? key = some value) :
    isBehaviourKey key = false ∧ vars.get? key = some value := by
  rw [questionPart, SortedMap.get?_filter, Option.filter_eq_some_iff] at h
  exact ⟨by simpa using h.2, h.1⟩

end Vars

/-! ## The same answer -/

namespace Question

/-- Two responses that give a question the same answer. -/
def SameAnswer : Question ν → Vars → Vars → Prop
  | essay _, response, response' => Essay.written response = Essay.written response'
  | _, response, response' => response.get? answerField = response'.get? answerField

lemma SameAnswer.refl (q : Question ν) (response : Vars) : q.SameAnswer response response := by
  cases q <;> rfl

lemma SameAnswer.trans {q : Question ν} {response response' response'' : Vars}
    (h : q.SameAnswer response response') (h' : q.SameAnswer response' response'') :
    q.SameAnswer response response'' := by
  cases q <;> exact Eq.trans h h'

/-- Responses with the same answer field have the same answer. -/
lemma sameAnswer_of_get? (q : Question ν) {response response' : Vars}
    (h : response.get? answerField = response'.get? answerField) :
    q.SameAnswer response response' := by
  cases q with
  | essay q =>
    show Essay.written response = Essay.written response'
    rw [Essay.written, Essay.written, h]
  | _ => exact h

/-- A response that repeats another one has its answer. -/
lemma sameAnswer_of_isSame {q : Question ν} {response response' : Vars}
    (h : q.isSame response response' = true) : q.SameAnswer response response' := by
  have hfield : ∀ {previous current : Vars}, sameAnswers previous current = true →
      previous.get? answerField = current.get? answerField := by
    intro previous current hsame
    have hsubmitted : previous.submitted = current.submitted := by simpa [sameAnswers] using hsame
    rw [← previous.get?_submitted (by decide), hsubmitted, current.get?_submitted (by decide)]
  cases q with
  | essay q => simpa [isSame, SameAnswer] using h
  | _ => exact hfield h

namespace SameAnswer

variable {q : Question ν} {response response' : Vars}

lemma isComplete (h : q.SameAnswer response response') :
    q.isComplete response = q.isComplete response' := by
  cases q with
  | essay q =>
    have hwritten : Essay.written response = Essay.written response' := h
    simp only [Question.isComplete, hwritten]
  | _ =>
    have hfield : response.get? answerField = response'.get? answerField := h
    simp only [Question.isComplete, TrueFalse.judgement?, MultiChoice.chosen?,
      OpenQuestion.isComplete, hfield]

lemma isGradable (h : q.SameAnswer response response') :
    q.isGradable response = q.isGradable response' := by
  cases q with
  | essay q => rfl
  | _ => exact h.isComplete

lemma grade [Scalar ν] (h : q.SameAnswer response response') :
    q.grade response = q.grade response' := by
  cases q with
  | essay q | description q => rfl
  | trueFalse q =>
    have hread : TrueFalse.judgement? response = TrueFalse.judgement? response' := by
      rw [TrueFalse.judgement?, TrueFalse.judgement?, show response.get? answerField = _ from h]
    simp only [Question.grade, TrueFalse.fraction, hread]
  | multiChoice q =>
    have hread : q.chosen? response = q.chosen? response' := by
      rw [MultiChoice.chosen?, MultiChoice.chosen?, show response.get? answerField = _ from h]
    simp only [Question.grade, MultiChoice.fraction, hread]
  | openAnswer q =>
    have hread : OpenQuestion.fraction (ν := ν) response = OpenQuestion.fraction response' := by
      rw [OpenQuestion.fraction, OpenQuestion.fraction, show response.get? answerField = _ from h]
    simp only [Question.grade, hread]

end SameAnswer

/-- A response that can be graded has an answer. -/
lemma exists_answer_of_isGradable {q : Question ν} {response : Vars}
    (h : q.isGradable response = true) : ∃ answer, response.get? answerField = some answer := by
  cases hanswer : response.get? answerField with
  | some answer => exact ⟨answer, rfl⟩
  | none =>
    cases q with
    | trueFalse q =>
      simp [isGradable, Question.isComplete, TrueFalse.judgement?, hanswer] at h
    | multiChoice q => simp [isGradable, Question.isComplete, MultiChoice.chosen?, hanswer] at h
    | openAnswer q => simp [isGradable, Question.isComplete, OpenQuestion.isComplete, hanswer] at h
    | essay q | description q => cases h

/-! ## First steps -/

/-- What a question writes into a first step is cached. -/
lemma submitted_seed [Scalar ν] (q : Question ν) (draw : Draw) (vars : Vars) :
    (q.seed draw vars).submitted = vars.submitted := by
  cases q with
  | multiChoice q =>
    simp only [seed, MultiChoice.seed]
    split
    · rfl
    · exact Vars.submitted_cache ..
  | _ => rfl

end Question

/-- What a behaviour writes into a first step is cached. -/
lemma Behaviour.submitted_seed (b : Behaviour) (a : Attempt ν) (draw : Draw) (vars : Vars) :
    (b.seed a draw vars).submitted = vars.submitted := by
  cases b with
  | interactive =>
    simp only [seed, Interactive.seed]
    split
    · rfl
    · exact Vars.submitted_cache ..
  | adaptive preferred =>
    simp only [seed, Adaptive.seed]
    split
    · rfl
    · simp only [Vars.submitted_cache]
  | _ => rfl

namespace Attempt

/-- The response of an attempt with one step. -/
lemma response_of_singleton {a : Attempt ν} {first : Step ν} (h : a.steps = [first]) :
    a.response = first.vars.questionPart := by
  have hfind : a.response = ([first.vars.questionPart].find? fun vars => !vars.isEmpty).getD
      SortedMap.empty := by
    rw [response, latestFirst, h]
    rfl
  rw [hfind, List.find?_singleton]
  cases hempty : first.vars.questionPart.isEmpty with
  | false => rfl
  | true => exact (SortedMap.eq_empty_of_isEmpty hempty).symm

variable [Scalar ν]

/-- A first step submits what the attempt was started with. -/
lemma submitted_firstVars (a : Attempt ν) (b : Behaviour) (draw : Draw) (vars : Vars) :
    (a.firstVars b draw vars).submitted = vars.submitted := by
  rw [firstVars, Behaviour.submitted_seed, Question.submitted_seed]

/-- The first step of an attempt that was fresh. -/
lemma exists_first_vars {a : Attempt ν} {q : Question ν} (ha : a.IsFresh q) (o : Opening) :
    ∃ first, (a.opened o).steps = [first] ∧
      first.vars = a.firstVars o.behaviour o.draw o.vars := by
  rw [opened, (start_of_isFresh ha ..).2]
  exact ⟨_, by rw [record, ha.steps]; rfl, rfl⟩

/-- The first answer of an attempt is the one that it was started with. -/
lemma get?_response_opened {a : Attempt ν} {q : Question ν} (ha : a.IsFresh q) (o : Opening) :
    (a.opened o).response.get? answerField = o.vars.get? answerField := by
  obtain ⟨first, hsteps, hvars⟩ := exists_first_vars ha o
  rw [response_of_singleton hsteps, Vars.get?_questionPart _ (by decide),
    ← Vars.get?_submitted _ (by decide), hvars, submitted_firstVars,
    Vars.get?_submitted _ (by decide)]

end Attempt
end Assessment
