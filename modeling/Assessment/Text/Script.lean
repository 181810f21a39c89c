import Assessment.Text.Blank
import Assessment.Text.Word

/-!
# Script elements

A script element is a start tag `<script …>` and everything up to and including the next end tag
`</script>`.  Tag names are compared without regard to case; the name of the start tag ends where no
word character follows, and the end tag may hold blanks before its `>`.  `withoutScripts` removes the
elements of a text from left to right in one pass.
-/

namespace Assessment
namespace Text

/-- Whether `c` is the lower case letter `l` in some case; the long s is a form of `s`. -/
def isLetter (l c : Char) : Bool := c.toLower == l || (l == 's' && c == 'ſ')

/-- What follows a word at the beginning of a text, compared without regard to case. -/
def afterWord? : List Char → List Char → Option (List Char)
  | [], cs => some cs
  | _ :: _, [] => none
  | l :: ls, c :: cs => if isLetter l c then afterWord? ls cs else none

/-- What follows the first `>`. -/
def afterAngle? : List Char → Option (List Char)
  | [] => none
  | c :: cs => if c == '>' then some cs else afterAngle? cs

/-- Whether a word ends before the rest of a text. -/
def endsWord : List Char → Bool
  | [] => true
  | c :: _ => !isWord c

/-- What follows a start tag of a script element at the beginning of a text. -/
def afterScriptStart? (cs : List Char) : Option (List Char) :=
  match afterWord? "<script".toList cs with
  | some rest => if endsWord rest then afterAngle? rest else none
  | none => none

/-- What follows an end tag of a script element at the beginning of a text. -/
def afterScriptEnd? (cs : List Char) : Option (List Char) :=
  match afterWord? "</script".toList cs with
  | some rest =>
    match rest.dropWhile isBlank with
    | '>' :: more => some more
    | _ => none
  | none => none

/-- What follows the first end tag of a script element. -/
def afterFirstScriptEnd? : List Char → Option (List Char)
  | [] => none
  | c :: cs =>
    match afterScriptEnd? (c :: cs) with
    | some rest => some rest
    | none => afterFirstScriptEnd? cs

/-- What follows a script element at the beginning of a text. -/
def afterScript? (cs : List Char) : Option (List Char) :=
  (afterScriptStart? cs).bind afterFirstScriptEnd?

/-- The text without its script elements, the first `skip` characters being part of one. -/
def dropScripts : Nat → List Char → List Char
  | _, [] => []
  | skip + 1, _ :: cs => dropScripts skip cs
  | 0, c :: cs =>
    match afterScript? (c :: cs) with
    | some rest => dropScripts (cs.length - rest.length) cs
    | none => c :: dropScripts 0 cs

/-- The text without its script elements. -/
def withoutScripts (s : String) : String := String.ofList (dropScripts 0 s.toList)

end Text
end Assessment
