import Assessment.Proofs.Attempt.Finish
import Assessment.Proofs.Attempt.Repeat
import Assessment.Proofs.Attempt.Tries
import Assessment.Proofs.Question.Answer

/-!
# How an attempt ends

Finishing an open attempt is kept, and the state and the fraction that it leads to are a function of
the question, of the latest response and of what the behaviour remembers (`Behaviour.ending`,
`Attempt.finish_of_open`).  Of the response only the answer counts (`Behaviour.ending_congr`), so an
attempt ends as any response with the same answer says (`Attempt.AnswersAs`).
-/

namespace Assessment

variable {ν : Type} [Scalar ν]

namespace Behaviour

/-- What finishing an attempt makes of a raw fraction. -/
def earned : Behaviour → Attempt ν → ν → ν
  | certainty, a, raw =>
    (((a.behaviour? "certainty").bind Certainty.read?).getD Certainty.assumed).adjust raw
  | interactive, a, raw => Interactive.penalised a raw (Interactive.triesLeft a)
  | _, _, raw => raw

/-- The behaviours that remember the raw fraction of what they grade. -/
def remembersRaw : Behaviour → Bool
  | certainty | interactive => true
  | _ => false

/-- The behaviours that grade the latest response when an attempt is finished. -/
def gradesLatest : Behaviour → Bool
  | deferred | immediate | certainty | interactive => true
  | _ => false

/-- The state and the fraction that finishing an attempt leads to when `response` is its latest
response. -/
def ending (b : Behaviour) (a : Attempt ν) (response : Vars) : State × Option ν :=
  match b with
  | deferred | immediate | certainty | interactive =>
    if a.question.isGradable response then
      ((a.question.grade response).2, some (b.earned a (a.question.grade response).1))
    else (.gaveUp, none)
  | manual => (if a.question.isComplete response then .needsGrading else .gaveUp, none)
  | information => (.finished, none)
  | adaptive _ | missing _ => (.gaveUp, none)

/-- A response that can be graded leads to its grade. -/
lemma ending_of_isGradable {b : Behaviour} (hb : b.gradesLatest = true) {a : Attempt ν}
    {response : Vars} (hr : a.question.isGradable response = true) : b.ending a response =
      ((a.question.grade response).2, some (b.earned a (a.question.grade response).1)) := by
  cases b with
  | deferred | immediate | certainty | interactive => exact if_pos hr
  | _ => cases hb

/-- A response that cannot be graded leads to giving up. -/
lemma ending_of_not_isGradable {b : Behaviour} (hb : b.gradesLatest = true) {a : Attempt ν}
    {response : Vars} (hr : a.question.isGradable response = false) :
    b.ending a response = (.gaveUp, none) := by
  cases b with
  | deferred | immediate | certainty | interactive => exact if_neg (Bool.eq_false_iff.1 hr)
  | _ => cases hb

/-- Responses with the same answer lead to the same end. -/
lemma ending_congr (b : Behaviour) {a : Attempt ν} {response response' : Vars}
    (h : a.question.SameAnswer response response') : b.ending a response = b.ending a response' := by
  cases b <;> simp only [ending, h.isComplete, h.isGradable, h.grade]

variable {a : Attempt ν} {d : Draft ν}

/-- A draft that is graded if a response can be graded, and given up otherwise. -/
lemma exists_of_gradeOr {response : Vars} {earned : ν} (graded : Draft ν) (hd : d.fraction = none)
    (hstate : graded.state = (a.question.grade response).2) (hfraction : graded.fraction = some earned) :
    ∃ d', (if a.question.isGradable response = true then Ruling.keep graded
        else .keep (d.withState .gaveUp)) = .keep d' ∧
      ((d'.state, d'.fraction) = if a.question.isGradable response = true then
        ((a.question.grade response).2, some earned) else (.gaveUp, none)) ∧
      (a.question.isGradable response = true → d' = graded) := by
  split_ifs with hr
  · exact ⟨graded, rfl, by rw [hstate, hfraction], fun _ => rfl⟩
  · exact ⟨_, rfl, congrArg (Prod.mk State.gaveUp) hd, fun hr' => absurd hr' hr⟩

/-- A grade at a certainty is adjusted to it, or to the one that has to be assumed. -/
lemma Certainty.grade_eq (a : Attempt ν) (response : Vars) (certainty : Option Certainty)
    (d : Draft ν) : (Certainty.grade a response certainty d).state = (a.question.grade response).2 ∧
      (Certainty.grade a response certainty d).fraction =
        some ((certainty.getD Certainty.assumed).adjust (a.question.grade response).1) ∧
      (Certainty.grade a response certainty d).vars.behaviour? "_rawfraction" =
        some (Scalar.plain (a.question.grade response).1) := by
  unfold Certainty.grade
  cases certainty <;> exact ⟨rfl, rfl, Vars.behaviour?_cache_self _ "rawfraction" _⟩

/-- Finishing an open attempt leads to the end of its latest response. -/
lemma onFinish_of_open {b : Behaviour} (hb : ∀ storedName, b ≠ .missing storedName)
    (ha : a.state.isFinished = false) (hd : d.fraction = none) :
    ∃ d', b.onFinish a d = .keep d' ∧ (d'.state, d'.fraction) = b.ending a a.response ∧
      (b.remembersRaw = true → a.question.isGradable a.response = true →
        d'.vars.behaviour? "_rawfraction" = some (Scalar.plain (a.question.grade a.response).1)) := by
  have hopen : ¬ a.state.isFinished = true := by simp [ha]
  cases b with
  | deferred | immediate =>
    simp only [onFinish, Ruling.gradeLatest, if_neg hopen]
    obtain ⟨d', hd', hends, -⟩ :=
      exists_of_gradeOr (d.graded (a.question.grade a.response)) hd rfl rfl
    exact ⟨d', hd', hends, fun hraw => by cases hraw⟩
  | certainty =>
    simp only [onFinish, Certainty.finish, if_neg hopen]
    obtain ⟨hstate, hfraction, hraw⟩ := Certainty.grade_eq a a.response
      ((a.behaviour? "certainty").bind Certainty.read?) d
    obtain ⟨d', hd', hends, hgraded⟩ := exists_of_gradeOr _ hd hstate hfraction
    exact ⟨d', hd', hends, fun _ hr => hgraded hr ▸ hraw⟩
  | interactive =>
    simp only [onFinish, Interactive.finish, if_neg hopen]
    let raw := (a.question.grade a.response).1
    obtain ⟨d', hd', hends, hgraded⟩ := exists_of_gradeOr
      ((d.cache .behaviour "rawfraction" (Scalar.plain raw)).graded
        (Interactive.penalised a raw (Interactive.triesLeft a), (a.question.grade a.response).2))
      hd rfl rfl
    exact ⟨d', hd', hends, fun _ hr => hgraded hr ▸ Vars.behaviour?_cache_self _ "rawfraction" _⟩
  | manual | information | adaptive preferred =>
    simp only [onFinish, Adaptive.finish, if_neg hopen]
    exact ⟨_, rfl, congrArg (Prod.mk _) hd, fun hraw => by cases hraw⟩
  | missing storedName => exact absurd rfl (hb storedName)

end Behaviour

namespace Attempt

/-- Finishing an open attempt is kept and leads to the end of its latest response, of which the
behaviour remembers the raw fraction if it adjusts fractions. -/
lemma finish_of_open {a : Attempt ν} {b : Behaviour} (hb : a.behaviour = some b)
    (hmissing : ∀ storedName, b ≠ .missing storedName) (ha : a.state.isFinished = false)
    (time : Instant) (actor : Option String) :
    let ended := (finish time actor a).state
    (finish time actor a).result = .ok .kept ∧
      ended.state = (b.ending a a.response).1 ∧ ended.fraction = (b.ending a a.response).2 ∧
      (b.remembersRaw = true → a.question.isGradable a.response = true →
        ended.behaviour? "_rawfraction" = some (Scalar.plain (a.question.grade a.response).1)) := by
  obtain ⟨d, hd, hends, hraw⟩ := Behaviour.onFinish_of_open hmissing ha
    (d := Draft.new finishVars time actor) rfl
  have hrule := b.rule_finishVars hmissing a time actor
  rw [hd] at hrule
  obtain ⟨hresult, hstate⟩ := act_of_keep hb hrule
  have hended : (finish time actor a).state = a.keep d := hstate
  simp only [hended, state_keep, fraction_keep, behaviour?_keep, ← hends]
  exact ⟨hresult, trivial, trivial, fun hremembers hr => by rw [hraw hremembers hr, Option.some_or]⟩

/-- An open attempt at a question under a behaviour, whose response gives the same answer as
`response`. -/
structure AnswersAs (a : Attempt ν) (q : Question ν) (b : Behaviour) (response : Vars) : Prop where
  question : a.question = q
  behaviour : a.behaviour = some b
  unfinished : a.state.isFinished = false
  answer : q.SameAnswer a.response response

namespace AnswersAs

variable {a : Attempt ν} {q : Question ν} {b : Behaviour} {response response' : Vars}

omit [Scalar ν] in
/-- An answer stands for any other that is the same. -/
lemma congr (ha : a.AnswersAs q b response) (h : q.SameAnswer response response') :
    a.AnswersAs q b response' :=
  ⟨ha.question, ha.behaviour, ha.unfinished, ha.answer.trans h⟩

/-- Finishing leads to the end of the response. -/
lemma ends (ha : a.AnswersAs q b response) (hmissing : ∀ storedName, b ≠ .missing storedName)
    (time : Instant) (actor : Option String) :
    let ended := (finish time actor a).state
    (finish time actor a).result = .ok .kept ∧
      ended.state = (b.ending a response).1 ∧ ended.fraction = (b.ending a response).2 ∧
      (b.remembersRaw = true → q.isGradable response = true →
        ended.behaviour? "_rawfraction" = some (Scalar.plain (q.grade response).1)) := by
  have hanswer : a.question.SameAnswer a.response response := ha.question.symm ▸ ha.answer
  rw [← b.ending_congr hanswer, ← ha.answer.isGradable, ← ha.answer.grade, ← ha.question]
  exact finish_of_open ha.behaviour hmissing ha.unfinished time actor

end AnswersAs

end Attempt
end Assessment
