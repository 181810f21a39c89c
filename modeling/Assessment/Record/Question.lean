import Assessment.Question
import Assessment.Record.Document

/-!
# Stored forms of questions

A stored question names its type beside its fields.  Marks, penalties and hints may be left out.  The
open questions have no stored form.
-/

namespace Assessment

open Document

variable {ν : Type} [Scalar ν]

/-- The document of an answer on offer. -/
def Choice.encode (c : Choice ν) : Document :=
  .object
    [("text", .text c.text), ("fraction", ofNumber c.fraction), ("feedback", ofText? c.feedback)]

/-- The answer on offer in a document. -/
def Choice.decode? (d : Document) : Option (Choice ν) := do
  let v ← RecordView.of? ["text", "fraction", "feedback"] d
  return {
    text := ← v.required "text" text?
    fraction := ← v.required "fraction" number?
    feedback := ← v.optional "feedback" text? }

/-- The document of a list of texts. -/
def Document.ofTextList (texts : List String) : Document := .list (texts.map .text)

namespace TrueFalse

/-- The names of the stored fields, in order. -/
def fieldNames : List String :=
  ["_id", "name", "question_text", "default_mark", "penalty", "right_answer", "hints"]

/-- The stored fields. -/
def encode (q : TrueFalse ν) : List (String × Document) :=
  [("_id", .text q.id), ("name", .text q.name), ("question_text", .text q.text),
   ("default_mark", ofNumber q.defaultMark), ("penalty", ofNumber q.penalty),
   ("right_answer", .bool q.rightAnswer), ("hints", ofTextList q.hints)]

/-- The question in stored fields. -/
def decode? (v : RecordView) : Option (TrueFalse ν) := do
  return {
    id := ← v.required "_id" text?
    name := ← v.required "name" text?
    text := ← v.required "question_text" text?
    defaultMark := ← v.defaulted "default_mark" 1.0 number?
    penalty := ← v.defaulted "penalty" MultiChoice.usualPenalty number?
    rightAnswer := ← v.required "right_answer" bool?
    hints := ← v.defaulted "hints" [] (list? text?) }

end TrueFalse

namespace MultiChoice

/-- The names of the stored fields, in order. -/
def fieldNames : List String :=
  ["_id", "name", "question_text", "default_mark", "penalty", "shuffle_answers", "answers", "hints"]

/-- The stored fields. -/
def encode (q : MultiChoice ν) : List (String × Document) :=
  [("_id", .text q.id), ("name", .text q.name), ("question_text", .text q.text),
   ("default_mark", ofNumber q.defaultMark), ("penalty", ofNumber q.penalty),
   ("shuffle_answers", .bool q.shuffle), ("answers", .list (q.choices.map Choice.encode)),
   ("hints", ofTextList q.hints)]

/-- The question in stored fields. -/
def decode? (v : RecordView) : Option (MultiChoice ν) := do
  return {
    id := ← v.required "_id" text?
    name := ← v.required "name" text?
    text := ← v.required "question_text" text?
    defaultMark := ← v.defaulted "default_mark" 1.0 number?
    penalty := ← v.defaulted "penalty" usualPenalty number?
    shuffle := ← v.defaulted "shuffle_answers" true bool?
    choices := ← v.required "answers" (list? Choice.decode?)
    hints := ← v.defaulted "hints" [] (list? text?) }

end MultiChoice

namespace Essay

/-- The names of the stored fields, in order. -/
def fieldNames : List String := ["_id", "name", "question_text", "default_mark", "grader_info"]

/-- The stored fields. -/
def encode (q : Essay ν) : List (String × Document) :=
  [("_id", .text q.id), ("name", .text q.name), ("question_text", .text q.text),
   ("default_mark", ofNumber q.defaultMark), ("grader_info", ofText? q.graderInfo)]

/-- The question in stored fields. -/
def decode? (v : RecordView) : Option (Essay ν) := do
  return {
    id := ← v.required "_id" text?
    name := ← v.required "name" text?
    text := ← v.required "question_text" text?
    defaultMark := ← v.defaulted "default_mark" 1.0 number?
    graderInfo := ← v.optional "grader_info" text? }

end Essay

namespace Description

/-- The names of the stored fields, in order. -/
def fieldNames : List String := ["_id", "name", "question_text"]

/-- The stored fields. -/
def encode (q : Description) : List (String × Document) :=
  [("_id", .text q.id), ("name", .text q.name), ("question_text", .text q.text)]

/-- The question in stored fields. -/
def decode? (v : RecordView) : Option Description := do
  return {
    id := ← v.required "_id" text?
    name := ← v.required "name" text?
    text := ← v.required "question_text" text? }

end Description

namespace Question

/-- The stored fields of a question, for the types that have a stored form. -/
def storedFields? : Question ν → Option (List (String × Document))
  | trueFalse q => some q.encode
  | multiChoice q => some q.encode
  | essay q => some q.encode
  | description q => some q.encode
  | openAnswer _ => none

/-- The document of a question: its type and its fields. -/
def encode? (q : Question ν) : Option Document :=
  q.storedFields?.map fun fields => .object (("qtype", .text q.typeName) :: fields)

/-- The question of a type in a record of that type. -/
def ofFields? (typeName : String) (record : Document) : Option (Question ν) :=
  if typeName == "truefalse" then do
    return trueFalse (← TrueFalse.decode? (← RecordView.of? TrueFalse.fieldNames record))
  else if typeName == "multichoice" then do
    return multiChoice (← MultiChoice.decode? (← RecordView.of? MultiChoice.fieldNames record))
  else if typeName == "essay" then do
    return essay (← Essay.decode? (← RecordView.of? Essay.fieldNames record))
  else if typeName == "description" then do
    return description (← Description.decode? (← RecordView.of? Description.fieldNames record))
  else none

/-- The question in a document.  In a list the type comes first. -/
def decode? : Document → Option (Question ν)
  | .object fields => do
    let typeName ← (Document.find? "qtype" fields).bind text?
    ofFields? typeName (.object (fields.filter fun f => f.1 != "qtype"))
  | .list (tag :: items) => do
    let typeName ← text? tag
    ofFields? typeName (.list items)
  | _ => none

end Question
end Assessment
