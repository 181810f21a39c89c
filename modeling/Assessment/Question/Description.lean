/-!
# Descriptions

A text shown among the questions.  It takes no answer and carries no marks.
-/

namespace Assessment

/-- A text to read. -/
structure Description where
  id : String
  name : String
  text : String
  deriving DecidableEq

/-- A text named by its id. -/
def Description.new (id text : String) : Description := ⟨id, id, text⟩

end Assessment
