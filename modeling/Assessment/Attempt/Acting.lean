import Assessment.Behaviour.Rules

/-!
# Starting, acting and replaying

An attempt is started once, with a behaviour that it keeps.  From then on every action is put to the
behaviour: `act` appends the step that the behaviour keeps and nothing else, and an action that is
discarded or refused leaves the attempt as it was.  `replay` feeds the history of one attempt through
a fresh one: the first step with everything it remembers, every later step with what was submitted.
-/

namespace Assessment

/-- What became of an action. -/
inductive Outcome
  | kept
  | discarded
  deriving Repr, DecidableEq

/-- The name of an outcome. -/
def Outcome.name : Outcome → String
  | kept => "keep"
  | discarded => "discard"

namespace Attempt

variable {ν : Type} [Scalar ν]

/-- The first draft of an attempt: the variables it is started with and what the question and the
behaviour have to remember. -/
def firstDraft (a : Attempt ν) (b : Behaviour) (vars : Vars) (time : Instant)
    (actor : Option String) (draw : Draw) : Draft ν :=
  (Draft.new (b.seed a draw (a.question.seed draw vars)) time actor).withState .todo

/-- Starts the attempt with a behaviour and the variables of its first step. -/
def start (b : Behaviour) (vars : Vars) (time : Instant) (actor : Option String) (draw : Draw) :
    Op Fault (Attempt ν) Unit := fun a =>
  if a.steps.isEmpty then
    let started : Attempt ν :=
      { a with
        minFraction := some (b.minFraction a.question)
        questionSummary := a.question.summary
        rightAnswerSummary := a.question.rightSummary
        behaviour := some b }
    ⟨.ok (), started.record (a.firstDraft b vars time actor draw),
      [.notice (.stepAdded a.slot 0), .tally (.started b.name)]⟩
  else ⟨.error .alreadyStarted, a, []⟩

/-- Starts the attempt with the behaviour that its question picks. -/
def startPreferred (registry : Registry) (preferred : String) (time : Instant)
    (actor : Option String) (draw : Draw) : Op Fault (Attempt ν) Unit := fun a =>
  match a.question.pickBehaviour registry preferred with
  | .error e => ⟨.error e, a, []⟩
  | .ok b => start b SortedMap.empty time actor draw a

/-- The variables that an attempt resuming this one begins with. -/
def resumeData (a : Attempt ν) : Except Fault Vars := do
  let b ← a.behaviourOr
  b.resumeData a

/-- Starts the attempt where another one stands, under the behaviour of that one. -/
def startFrom (prior : Attempt ν) (time : Instant) (actor : Option String) (draw : Draw) :
    Op Fault (Attempt ν) Unit := fun a =>
  match prior.behaviour, prior.resumeData with
  | some b, .ok vars => start b vars time actor draw a
  | none, _ => ⟨.error .notStarted, a, []⟩
  | _, .error e => ⟨.error e, a, []⟩

/-- The attempt with a draft that its behaviour keeps.  A summary replaces the one before it. -/
def keep (a : Attempt ν) (d : Draft ν) : Attempt ν :=
  ({ a with responseSummary := d.summary.or a.responseSummary } : Attempt ν).record d

/-- Puts an action to the behaviour. -/
def act (vars : Vars) (time : Instant) (actor : Option String) :
    Op Fault (Attempt ν) Outcome := fun a =>
  match a.behaviour with
  | none => ⟨.error .notStarted, a, []⟩
  | some b =>
    match b.rule a (Draft.new vars time actor) with
    | .error e => ⟨.error e, a, []⟩
    | .ok .discard => ⟨.ok .discarded, a, [.tally (.acted b.name false)]⟩
    | .ok (.keep d) =>
      ⟨.ok .kept, a.keep d,
        [.tally (.acted b.name true), .notice (.stepAdded a.slot a.steps.length),
         .notice (.attemptModified a.slot)]⟩

/-- What finishing an attempt submits. -/
def finishVars : Vars := SortedMap.ofList [("-finish", "1")]

/-- Finishes the attempt. -/
def finish (time : Instant) (actor : Option String) : Op Fault (Attempt ν) Outcome :=
  act finishVars time actor

/-- What a grader's comment submits; a mark is out of the attempt's own marks. -/
def gradeVars (comment : String) (mark : Option ν) (a : Attempt ν) : Vars :=
  match mark with
  | none => SortedMap.ofList [("-comment", comment)]
  | some mark =>
    SortedMap.ofList [("-comment", comment), ("-mark", Scalar.plain mark),
      ("-maxmark", Scalar.plain a.maxMark)]

/-- Records a grader's comment, and a mark if there is one. -/
def grade (comment : String) (mark : Option ν) (time : Instant) (actor : Option String) :
    Op Fault (Attempt ν) Outcome := fun a => act (gradeVars comment mark a) time actor a

/-- Feeds back what a step of a history submitted. -/
def replayStep (step : Step ν) : Op Fault (Attempt ν) Unit := fun a =>
  let r := act step.vars.submitted step.time step.actor a
  ⟨r.result.map fun _ => (), r.state, r.events⟩

/-- Replays the history of `donor` through its behaviour.  The attempt must not be started yet. -/
def replay (donor : Attempt ν) (draw : Draw) : Op Fault (Attempt ν) Unit :=
  match donor.behaviour, donor.steps with
  | none, _ => Op.fail .notStarted
  | some b, steps =>
    if b.canRegrade then
      match steps with
      | [] => Op.fail .notStarted
      | first :: rest =>
        Op.bind (start b first.vars first.time first.actor draw) fun _ =>
          Op.forEach replayStep rest
    else Op.fail (.cannotRegrade b.name)

/-- A right answer, with the behaviour's part. -/
def rightResponse (a : Attempt ν) : Vars :=
  match a.behaviour with
  | some b => a.question.rightResponse.withBehaviour (b.rightResponse a)
  | none => a.question.rightResponse

/-- The hint to show at this point. -/
def hint? (a : Attempt ν) : Option String := a.behaviour.bind fun b => b.hint? a

end Attempt
end Assessment
