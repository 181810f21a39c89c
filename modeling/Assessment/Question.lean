import Assessment.Behaviour.Kind
import Assessment.Question.Description
import Assessment.Question.Essay
import Assessment.Question.MultiChoice
import Assessment.Question.Open
import Assessment.Question.TrueFalse

/-!
# Questions

The types of questions are a closed family.  This module says what each of them does with a response;
when a response is graded is up to the behaviour of the attempt.
-/

namespace Assessment

/-- A question definition. -/
inductive Question (ν : Type)
  | trueFalse (q : TrueFalse ν)
  | multiChoice (q : MultiChoice ν)
  | essay (q : Essay ν)
  | description (q : Description)
  | openAnswer (q : OpenQuestion ν)

namespace Question

variable {ν : Type}

/-- The id of a question. -/
def id : Question ν → String
  | trueFalse q => q.id
  | multiChoice q => q.id
  | essay q => q.id
  | description q => q.id
  | openAnswer q => q.id

/-- The name of the type of a question. -/
def typeName : Question ν → String
  | trueFalse _ => "truefalse"
  | multiChoice _ => "multichoice"
  | essay _ => "essay"
  | description _ => "description"
  | openAnswer _ => "raw"

/-- The name of a question. -/
def name : Question ν → String
  | trueFalse q => q.name
  | multiChoice q => q.name
  | essay q => q.name
  | description q => q.name
  | openAnswer q => q.id

/-- The hints shown between tries. -/
def hints : Question ν → List String
  | trueFalse q => q.hints
  | multiChoice q => q.hints
  | essay _ | description _ | openAnswer _ => []

/-- What the question takes out of a form. -/
def expected : Question ν → Expected
  | trueFalse _ => .answer .bool
  | multiChoice _ => .answer .int
  | essay _ => .answer .cleanHtml
  | description _ => .fields SortedMap.empty
  | openAnswer _ => .every

/-- Whether a response answers the whole question. -/
def isComplete : Question ν → Vars → Bool
  | trueFalse _, response => (TrueFalse.judgement? response).isSome
  | multiChoice q, response => (q.chosen? response).isSome
  | essay _, response => Essay.written response != ""
  | description _, _ => false
  | openAnswer _, response => OpenQuestion.isComplete response

/-- Whether a response can be graded without a person. -/
def isGradable : Question ν → Vars → Bool
  | essay _, _ => false
  | q, response => q.isComplete response

/-- Whether two responses are the same answer. -/
def isSame : Question ν → Vars → Vars → Bool
  | essay _, previous, current => Essay.written previous == Essay.written current
  | _, previous, current => sameAnswers previous current

variable [Scalar ν]

/-- The marks of an attempt unless it is given others. -/
def defaultMark : Question ν → ν
  | trueFalse q => q.defaultMark
  | multiChoice q => q.defaultMark
  | essay q => q.defaultMark
  | description _ => 0.0
  | openAnswer q => q.defaultMark

/-- The least fraction that a response can earn. -/
def minFraction : Question ν → ν
  | multiChoice q => q.minFraction
  | _ => 0.0

/-- What each extra try costs. -/
def penalty : Question ν → ν
  | trueFalse q => q.penalty
  | multiChoice q => q.penalty
  | essay _ | description _ | openAnswer _ => 0.0

/-- The first step of an attempt remembers what chance gave it. -/
def seed : Question ν → Draw → Vars → Vars
  | multiChoice q, draw, vars => q.seed draw vars
  | _, _, vars => vars

/-- The fraction and the state that a response earns. -/
def grade : Question ν → Vars → ν × State
  | trueFalse q, response =>
    let fraction := q.fraction response
    (fraction, .ofFraction fraction)
  | multiChoice q, response =>
    let fraction := q.fraction response
    (fraction, .ofFraction fraction)
  | essay _, _ => (0.0, .needsGrading)
  | description _, _ => (0.0, .finished)
  | openAnswer _, response =>
    let fraction := OpenQuestion.fraction response
    (fraction, .ofFraction fraction)

/-- A response that is right, as far as there is one. -/
def rightResponse : Question ν → Vars
  | trueFalse q => q.rightResponse
  | multiChoice q => q.rightResponse
  | essay _ | description _ => SortedMap.empty
  | openAnswer _ => SortedMap.ofList [(answerField, "1")]

/-- A response in words. -/
def summarise : Question ν → Vars → Option String
  | trueFalse _, response => (TrueFalse.judgement? response).map TrueFalse.label
  | multiChoice q, response => (q.chosen? response).map Choice.text
  | essay _, response => Essay.written? response
  | description _, _ | openAnswer _, _ => none

/-- The question in words. -/
def summary : Question ν → Option String
  | trueFalse q => some q.text
  | multiChoice q => some q.summary
  | essay q => some q.text
  | description q => some q.text
  | openAnswer _ => none

/-- The right answer in words. -/
def rightSummary : Question ν → Option String
  | trueFalse q => some (TrueFalse.label q.rightAnswer)
  | multiChoice q => q.right?.map fun right => right.2.text
  | essay _ | description _ | openAnswer _ => none

/-- The behaviour of a new attempt.  Most questions honour what the usage prefers; essays are graded
by a person and descriptions are only read. -/
def pickBehaviour (q : Question ν) (registry : Registry) (preferred : String) :
    Except Fault Behaviour :=
  match q with
  | essay _ => registry.make "manualgraded" preferred
  | description _ => registry.make "informationitem" preferred
  | _ => registry.makeArchetypal preferred

end Question
end Assessment
