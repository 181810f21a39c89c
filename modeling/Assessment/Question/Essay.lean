import Assessment.Question.Response
import Assessment.State
import Assessment.Text.Blank

/-!
# Essays

A free text that a person has to grade.  Blanks at its ends do not count.
-/

namespace Assessment

/-- A question answered by a free text. -/
structure Essay (ν : Type) where
  id : String
  name : String
  text : String
  defaultMark : ν
  /-- What graders are told. -/
  graderInfo : Option String

namespace Essay

variable {ν : Type} [Scalar ν]

/-- An essay with the usual mark, named by its id. -/
def new (id text : String) : Essay ν where
  id := id
  name := id
  text := text
  defaultMark := 1.0
  graderInfo := none

/-- The text of a response; a response without one has the empty text. -/
def written (response : Vars) : String := Text.trim ((response.get? answerField).getD "")

/-- The text of a response, if anything is written. -/
def written? (response : Vars) : Option String :=
  if written response == "" then none else some (written response)

end Essay
end Assessment
