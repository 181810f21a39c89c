import Assessment.Data.SortedMap
import Assessment.Fault
import Assessment.Scalar
import Assessment.Text.Basic
import Assessment.Text.Blank
import Assessment.Text.Digit
import Assessment.Text.Script

/-!
# Submitted fields

A question and its behaviour say which fields they expect and of which kind each is.  A submitted
value is brought into the normal form of its kind by `FieldKind.clean`, or refused; nothing is
coerced silently.
-/

namespace Assessment

/-- The kinds of submitted values. -/
inductive FieldKind
  | bool
  | int
  | number
  | text
  | cleanHtml
  | sequence
  deriving Repr, DecidableEq

/-- Field names with the kind of each. -/
abbrev Fields := SortedMap String FieldKind

namespace FieldKind

/-- Every kind. -/
def all : List FieldKind := [bool, int, number, text, cleanHtml, sequence]

/-- The name of a kind. -/
def name : FieldKind → String
  | bool => "bool"
  | int => "int"
  | number => "number"
  | text => "text"
  | cleanHtml => "clean_html"
  | sequence => "sequence"

/-- The kind of this name. -/
def ofName? (s : String) : Option FieldKind := all.find? fun kind => kind.name == s

/-- Whether a text without blanks at its ends lists whole numbers, separated by commas with blanks
around them. -/
def isNumberList (s : String) : Bool :=
  (Text.pieces ',' s.toList).all fun piece =>
    let digits := Text.trimChars piece
    !digits.isEmpty && digits.all Text.isDigit

/-- The normal form of a text of a kind, if the text is of that kind. -/
def normal? (ν : Type) [Scalar ν] (kind : FieldKind) (raw : String) : Option String :=
  let trimmed := Text.trim raw
  match kind with
  | bool =>
    if ["1", "true", "yes", "on"].contains (Text.lower trimmed) then some "1"
    else if ["", "0", "false", "no", "off"].contains (Text.lower trimmed) then some "0"
    else none
  | int => (Number.readInt64? trimmed).map toString
  | number => ((Scalar.read? trimmed : Option ν).filter Scalar.isFinite).map Scalar.plain
  | text => some trimmed
  | cleanHtml => some (Text.withoutScripts trimmed)
  | sequence => if trimmed == "" || isNumberList trimmed then some trimmed else none

/-- The normal form of the value submitted for `field`. -/
def clean (ν : Type) [Scalar ν] (kind : FieldKind) (field raw : String) : Except Fault String :=
  match kind.normal? ν raw with
  | some value => .ok value
  | none => .error (.badValue field kind.name raw)

end FieldKind
end Assessment
