import Assessment.Record.Document
import Assessment.Record.Rows
import Assessment.Usage.Submission

/-!
# Stored forms of rows, submissions and identities

Each record has an encoder and a decoder beside it.  Dates are stored as milliseconds; a date beyond
the calendar is refused.
-/

namespace Assessment

namespace Document

/-- The document of a point in time. -/
def ofInstant (t : Instant) : Document :=
  .object [("$date", .object [("$numberLong", .text (toString t.millis))])]

/-- A point in time within the calendar. -/
def instant? : Document → Option Instant
  | .object [("$date", .object [("$numberLong", .text s)])] =>
    (Number.readInt64? s).bind Instant.ofStoredMillis?
  | _ => none

/-- A state under its stored name. -/
def state? (d : Document) : Option State := (name? d).bind State.ofName?

end Document

open Document in
/-- The document of the row of a usage. -/
def UsageRow.encode (r : UsageRow) : Document :=
  .object
    [("_id", .text r.id), ("owning_plugin", .text r.plugin), ("context", .text r.context),
     ("preferred_behaviour", .text r.preferred)]

open Document in
/-- The row of a usage in a document. -/
def UsageRow.decode? (d : Document) : Option UsageRow := do
  let v ← RecordView.of? ["_id", "owning_plugin", "context", "preferred_behaviour"] d
  return {
    id := ← v.required "_id" text?
    plugin := ← v.required "owning_plugin" text?
    context := ← v.required "context" text?
    preferred := ← v.required "preferred_behaviour" text? }

section

variable {ν : Type} [Scalar ν]

open Document in
/-- The document of the row of an attempt. -/
def AttemptRow.encode (r : AttemptRow ν) : Document :=
  .object
    [("_id", .text r.id), ("usage_id", .text r.usageId), ("slot", ofNat r.slot),
     ("question_id", .text r.questionId), ("behaviour", .text r.behaviour),
     ("max_mark", ofNumber r.maxMark), ("min_fraction", ofNumber r.minFraction),
     ("flagged", .bool r.flagged), ("question_summary", ofText? r.questionSummary),
     ("right_answer_summary", ofText? r.rightAnswerSummary),
     ("response_summary", ofText? r.responseSummary), ("time_modified", ofInstant r.modified)]

open Document in
/-- The row of an attempt in a document. -/
def AttemptRow.decode? (d : Document) : Option (AttemptRow ν) := do
  let v ← RecordView.of?
    ["_id", "usage_id", "slot", "question_id", "behaviour", "max_mark", "min_fraction", "flagged",
     "question_summary", "right_answer_summary", "response_summary", "time_modified"] d
  return {
    id := ← v.required "_id" text?
    usageId := ← v.required "usage_id" text?
    slot := ← v.required "slot" (nat? Number.max32)
    questionId := ← v.required "question_id" text?
    behaviour := ← v.required "behaviour" text?
    maxMark := ← v.required "max_mark" number?
    minFraction := ← v.required "min_fraction" number?
    flagged := ← v.defaulted "flagged" false bool?
    questionSummary := ← v.optional "question_summary" text?
    rightAnswerSummary := ← v.optional "right_answer_summary" text?
    responseSummary := ← v.optional "response_summary" text?
    modified := ← v.required "time_modified" instant? }

open Document in
/-- The document of the row of a step. -/
def StepRow.encode (r : StepRow ν) : Document :=
  .object
    [("_id", .text r.id), ("attempt_id", .text r.attemptId), ("sequence_number", ofNat r.index),
     ("state", .text r.state.name), ("fraction", ofNumber? r.fraction),
     ("timestamp", ofInstant r.time), ("actor_id", ofText? r.actor)]

open Document in
/-- The row of a step in a document. -/
def StepRow.decode? (d : Document) : Option (StepRow ν) := do
  let v ← RecordView.of?
    ["_id", "attempt_id", "sequence_number", "state", "fraction", "timestamp", "actor_id"] d
  return {
    id := ← v.required "_id" text?
    attemptId := ← v.required "attempt_id" text?
    index := ← v.required "sequence_number" (nat? Number.max32)
    state := ← v.required "state" state?
    fraction := ← v.optional "fraction" number?
    time := ← v.required "timestamp" instant?
    actor := ← v.optional "actor_id" text? }

end

open Document in
/-- The document of the row of a variable. -/
def VarRow.encode (r : VarRow) : Document :=
  .object [("step_id", .text r.stepId), ("name", .text r.name), ("value", .text r.value)]

open Document in
/-- The row of a variable in a document. -/
def VarRow.decode? (d : Document) : Option VarRow := do
  let v ← RecordView.of? ["step_id", "name", "value"] d
  return {
    stepId := ← v.required "step_id" text?
    name := ← v.required "name" text?
    value := ← v.required "value" text? }

open Document in
/-- The document of a submission. -/
def Submission.encode (s : Submission) : Document :=
  .object
    [("data", ofTexts s.vars),
     ("sequence_check", match s.sequenceCheck with
      | some n => ofNat n
      | none => .null),
     ("flagged", match s.flagged with
      | some b => .bool b
      | none => .null)]

open Document in
/-- The submission in a document. -/
def Submission.decode? (d : Document) : Option Submission := do
  let v ← RecordView.of? ["data", "sequence_check", "flagged"] d
  return {
    vars := ← v.required "data" texts?
    sequenceCheck := ← v.namedOptional "sequence_check" (nat? Number.max64)
    flagged := ← v.namedOptional "flagged" bool? }

namespace UsageId

/-- The document of an identity: which kind it is, and its text. -/
def encode (id : UsageId) : Document :=
  .object
    [("kind", .text (if id.isStored then "stored" else "ephemeral")), ("value", .text id.text)]

/-- The identity in a document.  A list says the kind by a text only. -/
def decode? (d : Document) : Option UsageId := do
  let v ← RecordView.of? ["kind", "value"] d
  let kind ← v.required "kind" (if v.named then Document.name? else Document.text?)
  let value ← v.required "value" Document.text?
  if kind == "stored" then some (.stored value)
  else if kind == "ephemeral" then some (.ephemeral value)
  else none

end UsageId
end Assessment
