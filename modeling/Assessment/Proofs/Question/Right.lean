import Assessment.Proofs.Question.Answer

/-!
# The right response of a question

A question with an answer that counts as correct (`Question.HasRight`) offers one as its right
response, and nothing else with it (`Vars.ofAnswer`).  The offer is made apart from grading: a choice
names the place of the first such answer, and grading reads that place back and looks the answer up.
The two agree (`Question.exists_rightResponse`).
-/

namespace Assessment

/-! ## Bare answers -/

namespace Vars

/-- What a learner sends who answers and says nothing else. -/
def ofAnswer (answer : String) : Vars := SortedMap.ofList [(answerField, answer)]

variable (answer : String)

lemma get?_ofAnswer (key : String) :
    (ofAnswer answer).get? key = if key = answerField then some answer else none :=
  SortedMap.get?_singleton answerField key answer

lemma get?_ofAnswer_self : (ofAnswer answer).get? answerField = some answer :=
  (get?_ofAnswer answer answerField).trans (if_pos rfl)

/-- A bare answer says nothing to the behaviour. -/
lemma behaviour?_ofAnswer (name : String) : (ofAnswer answer).behaviour? name = none := by
  rw [behaviour?, get?_ofAnswer, if_neg]
  intro hkey
  have hchars := congrArg String.toList hkey
  simp [Owner.key, answerField] at hchars

lemma hasBehaviour_ofAnswer (name : String) : (ofAnswer answer).hasBehaviour name = false := by
  rw [hasBehaviour, behaviour?_ofAnswer]
  rfl

lemma questionPart_ofAnswer : (ofAnswer answer).questionPart = ofAnswer answer := by
  apply SortedMap.ext_get?
  intro key
  rw [questionPart, SortedMap.get?_filter, get?_ofAnswer]
  split
  · rename_i hfield
    rw [hfield]
    rfl
  · rfl

end Vars

/-! ## The right response -/

variable {ν : Type} [Scalar ν]

namespace Question

/-- Whether the question has an answer that counts as correct: every statement has, and a choice among
answers that are no more than the numbers that are read, if one of them earns enough. -/
def HasRight : Question ν → Prop
  | trueFalse _ => True
  | multiChoice q =>
    q.choices.length ≤ Number.max64 ∧ ∃ choice ∈ q.choices, State.correctAbove < choice.fraction
  | _ => False

end Question

/-- The first answer that counts as correct is at its place. -/
lemma MultiChoice.exists_right {q : MultiChoice ν}
    (h : ∃ choice ∈ q.choices, State.correctAbove < choice.fraction) :
    ∃ place choice, q.right? = some (place, choice) ∧ q.choices[place]? = some choice ∧
      State.correctAbove < choice.fraction := by
  obtain ⟨choice, hmem, hright⟩ := h
  obtain ⟨place, hplace⟩ := List.mem_iff_getElem?.1 hmem
  have hzip : (choice, place) ∈ q.choices.zipIdx := List.mem_zipIdx_iff_getElem?.2 hplace
  cases hfind : q.choices.zipIdx.find? fun c => State.correctAbove < c.1.fraction with
  | none =>
    have hno := List.find?_eq_none.1 hfind _ hzip
    simp [hright] at hno
  | some c =>
    refine ⟨c.2, c.1, by rw [right?, hfind]; rfl, ?_, ?_⟩
    · exact List.mem_zipIdx_iff_getElem?.1 (List.mem_of_find?_eq_some hfind)
    · simpa using List.find?_some hfind

lemma State.ofFraction_of_correctAbove {fraction : ν} (h : State.correctAbove < fraction) :
    State.ofFraction fraction = .gradedCorrect :=
  if_pos h

namespace Question

/-- The right response is an answer that can be graded, and it is graded as correct. -/
lemma exists_rightResponse (hone : State.correctAbove < (1.0 : ν)) {q : Question ν}
    (hq : q.HasRight) :
    ∃ answer, q.rightResponse = Vars.ofAnswer answer ∧
      q.isGradable q.rightResponse = true ∧ (q.grade q.rightResponse).2 = .gradedCorrect := by
  cases q with
  | trueFalse q =>
    have hread : TrueFalse.judgement? q.rightResponse = some q.rightAnswer := by
      rw [TrueFalse.judgement?, TrueFalse.rightResponse, ← Vars.ofAnswer, Vars.get?_ofAnswer_self]
      cases q.rightAnswer <;> rfl
    refine ⟨_, rfl, ?_, ?_⟩
    · exact congrArg Option.isSome hread
    · have hfraction : q.fraction q.rightResponse = 1.0 := by
        rw [TrueFalse.fraction, hread, if_pos (beq_self_eq_true _)]
      show State.ofFraction (q.fraction q.rightResponse) = _
      rw [hfraction]
      exact State.ofFraction_of_correctAbove hone
  | multiChoice q =>
    obtain ⟨place, choice, hright, hplace, hcorrect⟩ := MultiChoice.exists_right hq.2
    have hresponse : q.rightResponse = Vars.ofAnswer place.repr := by
      rw [MultiChoice.rightResponse, hright]
      rfl
    have hlt : place < q.choices.length := (List.getElem?_eq_some_iff.1 hplace).1
    have hchosen : q.chosen? q.rightResponse = some choice := by
      rw [MultiChoice.chosen?, hresponse, Vars.get?_ofAnswer_self, Option.bind_some,
        Number.readNat?_repr (Nat.le_trans (Nat.le_of_lt hlt) hq.1), Option.bind_some, hplace]
    refine ⟨place.repr, hresponse, ?_, ?_⟩
    · exact congrArg Option.isSome hchosen
    · have hfraction : q.fraction q.rightResponse = choice.fraction := by
        rw [MultiChoice.fraction, hchosen]
      show State.ofFraction (q.fraction q.rightResponse) = _
      rw [hfraction]
      exact State.ofFraction_of_correctAbove hcorrect
  | _ => exact hq.elim

end Question
end Assessment
