import Assessment.Question.Response
import Assessment.State

/-!
# Open questions

A question that takes every field submitted under its name and reads its answer as the fraction it
earns.  Everything else about it is what questions do when they have nothing special to say.
-/

namespace Assessment

/-- A question that takes all its fields as they come. -/
structure OpenQuestion (ν : Type) where
  id : String
  defaultMark : ν

namespace OpenQuestion

variable {ν : Type} [Scalar ν]

/-- Whether a response has an answer. -/
def isComplete (response : Vars) : Bool := (response.get? answerField).any (· != "")

/-- The fraction that a response claims, and nothing when it claims no number. -/
def fraction (response : Vars) : ν :=
  ((response.get? answerField).bind Scalar.read?).getD 0.0

end OpenQuestion
end Assessment
