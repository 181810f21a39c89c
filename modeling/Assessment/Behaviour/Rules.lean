import Assessment.Behaviour.Adaptive
import Assessment.Behaviour.Certainty
import Assessment.Behaviour.Interactive

/-!
# The rules of the behaviours

Everything that a behaviour decides about an attempt, for each behaviour of the family: how it rules
on an action (`Behaviour.rule`), which fields it expects, what it seeds into the first step, and what
it adds to the least fraction, to a right answer and to the data of a resumed attempt.
-/

namespace Assessment

namespace Behaviour

variable {ν : Type}

/-- How the behaviour recognises a repeated submission. -/
def sameness : Behaviour → Sameness
  | interactive => Interactive.sameness
  | adaptive _ => Adaptive.sameness
  | _ => .byAnswer

/-- Whether a draft repeats what the attempt has recorded. -/
def isSame [Scalar ν] : Behaviour → Attempt ν → Draft ν → Bool
  | certainty, a, d => Certainty.isSame a d
  | b, a, d => b.sameness.holds a d

/-- The behaviour's form fields at this point of the attempt. -/
def expected (b : Behaviour) (a : Attempt ν) : Fields :=
  match b with
  | immediate | adaptive _ =>
    if a.state.isActive then SortedMap.ofList [("submit", .bool)] else SortedMap.empty
  | certainty =>
    if a.state.isActive then SortedMap.ofList [("certainty", .int), ("submit", .bool)]
    else SortedMap.empty
  | interactive =>
    if Interactive.awaitsRetry a then SortedMap.ofList [("tryagain", .bool)]
    else if a.state.isActive then SortedMap.ofList [("submit", .bool)]
    else SortedMap.empty
  | information =>
    if a.state == .todo then SortedMap.ofList [("seen", .bool)] else SortedMap.empty
  | deferred | manual | missing _ => SortedMap.empty

/-- The hint to show at this point of the attempt. -/
def hint? : Behaviour → Attempt ν → Option String
  | interactive, a => Interactive.hint? a
  | _, _ => none

/-- The behaviour's part of a right answer. -/
def rightResponse : Behaviour → Attempt ν → Vars
  | certainty, a =>
    if a.state.isActive then SortedMap.ofList [("certainty", Certainty.high.text)]
    else SortedMap.empty
  | _, _ => SortedMap.empty

/-- The behaviour's variables that a resumed attempt begins with. -/
def resumeVars : Behaviour → Attempt ν → Vars
  | certainty, a =>
    match a.behaviour? "certainty" with
    | some value => SortedMap.ofList [("certainty", value)]
    | none => SortedMap.empty
  | _, _ => SortedMap.empty

/-- The variables that an attempt resuming `a` begins with: those of the first step, with the latest
answer and the behaviour's part put in. -/
def resumeData (b : Behaviour) (a : Attempt ν) : Except Fault Vars := do
  let first ← a.step? 0
  return Vars.withBehaviour (first.vars.union a.response) (b.resumeVars a)

/-- What the first step remembers.  A step that remembers it already is left as it is. -/
def seed : Behaviour → Attempt ν → Draw → Vars → Vars
  | interactive, a, _, vars => Interactive.seed a vars
  | adaptive preferred, _, draw, vars => Adaptive.seed preferred draw vars
  | _, _, _, vars => vars

variable [Scalar ν]

/-- The least fraction of an attempt at a question. -/
def minFraction : Behaviour → Question ν → ν
  | certainty, q => Certainty.high.adjust q.minFraction
  | information, _ => 0.0
  | _, q => q.minFraction

/-! ## Ruling on actions -/

/-- Saving an answer without submitting it. -/
def onSave : Behaviour → Attempt ν → Draft ν → Ruling ν
  | certainty, a, d => Certainty.save a d
  | interactive, a, d => Interactive.save a d
  | b, a, d => Ruling.save (b.isSame a d) a d

/-- Finishing the attempt. -/
def onFinish : Behaviour → Attempt ν → Draft ν → Ruling ν
  | deferred, a, d | immediate, a, d => Ruling.gradeLatest a d
  | certainty, a, d => Certainty.finish a d
  | interactive, a, d => Interactive.finish a d
  | manual, a, d =>
    if a.state.isFinished then .discard
    else .keep (d.withState (if a.question.isComplete a.response then .needsGrading else .gaveUp))
  | information, a, d => if a.state.isFinished then .discard else .keep (d.withState .finished)
  | adaptive _, a, d => Adaptive.finish a d
  | missing _, _, _ => .discard

/-- A person's comment.  An information item takes no mark. -/
def onComment : Behaviour → Attempt ν → Draft ν → Except Fault (Ruling ν)
  | information, a, d =>
    if (Ruling.markText? d).isSome then .error .informationGraded else Ruling.comment a d
  | _, a, d => Ruling.comment a d

/-- Submitting an answer to a behaviour that grades at once. -/
def onSubmit (a : Attempt ν) (d : Draft ν) : Ruling ν :=
  if a.state.isFinished then .discard else .keep (Ruling.gradeDraft .invalid a d)

/-- Marking an information item as seen. -/
def onSeen (a : Attempt ν) (d : Draft ν) : Ruling ν :=
  if a.state == .todo then .keep (d.withState .complete) else .discard

/-- How a behaviour rules on an action.  A comment goes before everything else, and finishing before
the behaviour's own actions; the adaptive behaviour lets finishing go first. -/
def rule (b : Behaviour) (a : Attempt ν) (d : Draft ν) : Except Fault (Ruling ν) :=
  let asks := Ruling.asks d
  match b with
  | deferred | manual =>
    if asks "comment" then b.onComment a d
    else if asks "finish" then .ok (b.onFinish a d)
    else .ok (b.onSave a d)
  | immediate =>
    if asks "comment" then b.onComment a d
    else if asks "finish" then .ok (b.onFinish a d)
    else if asks "submit" then .ok (onSubmit a d)
    else .ok (b.onSave a d)
  | certainty =>
    if asks "comment" then b.onComment a d
    else if asks "finish" then .ok (b.onFinish a d)
    else if asks "submit" then .ok (Certainty.submit a d)
    else .ok (b.onSave a d)
  | interactive =>
    if asks "comment" then b.onComment a d
    else if asks "finish" then .ok (b.onFinish a d)
    else if asks "tryagain" then .ok (Interactive.retry a d)
    else if asks "submit" then .ok (Interactive.submit a d)
    else .ok (b.onSave a d)
  | information =>
    if asks "comment" then b.onComment a d
    else if asks "finish" then .ok (b.onFinish a d)
    else if asks "seen" then .ok (onSeen a d)
    else .ok .discard
  | adaptive _ =>
    if asks "finish" then .ok (b.onFinish a d)
    else if asks "comment" then b.onComment a d
    else .ok (Adaptive.submit a d)
  | missing _ => if asks "comment" then b.onComment a d else .ok .discard

end Behaviour
end Assessment
