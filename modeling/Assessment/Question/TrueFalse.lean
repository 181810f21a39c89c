import Assessment.Question.Response
import Assessment.State

/-!
# True or false

A statement to be judged.  The answer is `1` for true and `0` for false.
-/

namespace Assessment

/-- A statement that is true or false. -/
structure TrueFalse (ν : Type) where
  id : String
  name : String
  text : String
  defaultMark : ν
  /-- What each extra try costs. -/
  penalty : ν
  rightAnswer : Bool
  hints : List String

namespace TrueFalse

variable {ν : Type} [Scalar ν]

/-- A statement with the usual mark, named by its id, without hints. -/
def new (id text : String) (rightAnswer : Bool) : TrueFalse ν where
  id := id
  name := id
  text := text
  defaultMark := 1.0
  penalty := 1.0
  rightAnswer := rightAnswer
  hints := []

/-- The judgement in a response. -/
def judgement? (response : Vars) : Option Bool :=
  match response.get? answerField with
  | some "1" => some true
  | some "0" => some false
  | _ => none

/-- The words for a judgement. -/
def label (value : Bool) : String := if value then "True" else "False"

/-- The whole fraction for the right judgement and nothing otherwise. -/
def fraction (q : TrueFalse ν) (response : Vars) : ν :=
  if judgement? response == some q.rightAnswer then 1.0 else 0.0

/-- The response that judges rightly. -/
def rightResponse (q : TrueFalse ν) : Vars :=
  SortedMap.ofList [(answerField, if q.rightAnswer then "1" else "0")]

end TrueFalse
end Assessment
