import Assessment.Attempt.Acting
import Assessment.Usage.Changes

/-!
# Usages

A usage is a set of attempts that belong together, such as one learner's quiz.  Its attempts are kept
by slot.  An operation on one slot runs on the attempt there; what the attempt reports is noted in
the usage's unsaved changes, if the attempt tells them (`Usage.onSlot`).  Who an attempt tells is
settled when it comes into the usage, and again when the usage begins to keep track of its changes
(`Usage.tracking`).
-/

namespace Assessment

/-- The identity of a usage: the id of its stored row, or a token until it is saved. -/
inductive UsageId
  | stored (id : String)
  | ephemeral (token : String)
  deriving Repr, DecidableEq

namespace UsageId

/-- The text of an identity. -/
def text : UsageId → String
  | stored id => id
  | ephemeral token => token

/-- Whether the usage has a stored row. -/
def isStored : UsageId → Bool
  | stored _ => true
  | ephemeral _ => false

end UsageId

/-- A set of attempts that belong together. -/
structure Usage (ν : Type) where
  id : UsageId
  /-- What the usage was made by. -/
  plugin : String
  context : String
  /-- The behaviour that new attempts get unless their question picks another. -/
  preferred : String
  attempts : SortedMap Nat (Attempt ν)
  registry : Registry
  /-- What has changed since the last save; nothing while the usage keeps no track. -/
  pending : Option Changes

namespace Usage

variable {ν : Type}

/-- The attempt in a slot. -/
def attempt? (u : Usage ν) (slot : Nat) : Except Fault (Attempt ν) :=
  match u.attempts.get? slot with
  | some a => .ok a
  | none => .error (.unknownSlot slot)

/-- The slots in order. -/
def slots (u : Usage ν) : List Nat := u.attempts.keys

/-- A usage without attempts that keeps track of nothing.  Its preferred behaviour has to be one that
usages can prefer. -/
def new (token plugin context preferred : String) (registry : Registry) : Except Fault (Usage ν) := do
  let _ ← registry.makeArchetypal preferred
  return {
    id := .ephemeral token
    plugin := plugin
    context := context
    preferred := preferred
    attempts := SortedMap.empty
    registry := registry
    pending := none }

/-- Who is told when the usage itself changes: its unsaved changes, if it keeps track of them. -/
def observer (u : Usage ν) : Observer := if u.pending.isSome then .changes else .nobody

/-- The usage with other unsaved changes, or keeping no track of them.  Its attempts follow. -/
def tracking (u : Usage ν) (pending : Option Changes) : Usage ν :=
  let u := { u with pending := pending }
  { u with attempts := u.attempts.map fun a => a.observedBy u.observer }

/-- The usage with the changes noted that events tell of. -/
def noting (u : Usage ν) (events : List Event) : Usage ν :=
  { u with pending := u.pending.map fun changes => changes.noteAll events }

/-- Does an operation on the attempt in a slot. -/
def onSlot {α : Type} (slot : Nat) (op : Op Fault (Attempt ν) α) : Op Fault (Usage ν) α := fun u =>
  match u.attempts.get? slot with
  | none => ⟨.error (.unknownSlot slot), u, []⟩
  | some a =>
    let r := op a
    ⟨r.result,
      ({ u with attempts := u.attempts.insert slot r.state } : Usage ν).noting
        (a.observer.heard r.events),
      r.events⟩

/-- Reports a notice and notes it. -/
def notify (n : Notice) : Op Fault (Usage ν) Unit := fun u =>
  ⟨.ok (), u.noting [.notice n], [.notice n]⟩

/-- Prefers another behaviour from now on. -/
def setPreferred (name : String) : Op Fault (Usage ν) Unit := fun u =>
  match u.registry.makeArchetypal name with
  | .error e => ⟨.error e, u, []⟩
  | .ok _ => notify .usageModified { u with preferred := name }

variable [Scalar ν]

/-- The first slot after those in use. -/
def nextSlot (u : Usage ν) : Nat :=
  match u.attempts.lastKey? with
  | some last => last + 1
  | none => 1

/-- Adds an attempt at a question in the next slot. -/
def add (question : Question ν) (maxMark : Option ν) : Op Fault (Usage ν) Nat := fun u =>
  let slot := u.nextSlot
  let a := (Attempt.new question u.id.text slot maxMark).observedBy u.observer
  let r := notify (.attemptAdded slot) { u with attempts := u.attempts.insert slot a }
  ⟨.ok slot, r.state, r.events⟩

/-- The marks of all attempts.  An attempt that is not graded counts nothing; one that waits for a
grader makes the total unknown. -/
def totalMark (u : Usage ν) : Option ν :=
  let add (total : Option ν) (a : Attempt ν) : Option ν :=
    total.bind fun t =>
      if a.state == .needsGrading then none
      else some (t + match a.mark with
        | some m => m
        | none => 0.0)
  u.attempts.values.foldl add (some 0.0)

/-! ## Operations on one slot -/

/-- Starts the attempt in a slot. -/
def start (slot : Nat) (time : Instant) (actor : Option String) (draw : Draw) :
    Op Fault (Usage ν) Unit := fun u =>
  onSlot slot (Attempt.startPreferred u.registry u.preferred time actor draw) u

/-- Starts every attempt, in the order of the slots, up to the first that cannot be started. -/
def startAll (time : Instant) (actor : Option String) (draws : Nat → Draw) :
    Op Fault (Usage ν) Unit := fun u =>
  Op.forEach (fun slot => start slot time actor (draws slot)) u.slots u

/-- Starts the attempt in a slot where another attempt stands. -/
def startFrom (slot : Nat) (prior : Attempt ν) (time : Instant) (actor : Option String)
    (draw : Draw) : Op Fault (Usage ν) Unit :=
  onSlot slot (Attempt.startFrom prior time actor draw)

/-- Puts an action to the attempt in a slot. -/
def act (slot : Nat) (vars : Vars) (time : Instant) (actor : Option String) :
    Op Fault (Usage ν) Outcome :=
  onSlot slot (Attempt.act vars time actor)

/-- Finishes the attempt in a slot. -/
def finish (slot : Nat) (time : Instant) (actor : Option String) : Op Fault (Usage ν) Outcome :=
  onSlot slot (Attempt.finish time actor)

/-- Finishes every attempt, in the order of the slots, up to the first that is refused. -/
def finishAll (time : Instant) (actor : Option String) : Op Fault (Usage ν) Unit := fun u =>
  Op.forEach (fun slot => Op.bind (finish slot time actor) fun _ => Op.pure ()) u.slots u

/-- Records a grader's comment on the attempt in a slot. -/
def grade (slot : Nat) (comment : String) (mark : Option ν) (time : Instant)
    (actor : Option String) : Op Fault (Usage ν) Outcome :=
  onSlot slot (Attempt.grade comment mark time actor)

/-- Sets or lowers the flag of the attempt in a slot. -/
def setFlag (slot : Nat) (flagged : Bool) : Op Fault (Usage ν) Unit :=
  onSlot slot (Attempt.setFlag flagged)

/-! ## Replaying -/

/-- A fresh attempt in place of one that is to be replayed: it keeps the id and the flag. -/
def successor (u : Usage ν) (slot : Nat) (old : Attempt ν) (maxMark : Option ν) : Attempt ν :=
  { Attempt.new old.question u.id.text slot (some (maxMark.getD old.maxMark)) with
    id := old.id
    flagged := old.flagged }

/-- The notices of an attempt that takes the place of another. -/
def replacementNotices (slot : Nat) (steps : Nat) : List Notice :=
  .stepsDeleted slot :: (List.range steps).map (.stepAdded slot) ++ [.attemptModified slot]

/-- Replays the attempt in a slot against its question, perhaps out of other marks, and puts the
result in its place.  An attempt that cannot be replayed stays as it is. -/
def regrade (slot : Nat) (maxMark : Option ν) (draw : Draw) : Op Fault (Usage ν) Unit := fun u =>
  match u.attempts.get? slot with
  | none => ⟨.error (.unknownSlot slot), u, []⟩
  | some old =>
    let r := Attempt.replay old draw (u.successor slot old maxMark)
    let tallies := (r.events.filterMap Event.tally?).map Event.tally
    match r.result with
    | .error e => ⟨.error e, u, tallies ++ [.tally (.regraded false)]⟩
    | .ok () =>
      let notices := (replacementNotices slot r.state.steps.length).map Event.notice
      ⟨.ok (),
        ({ u with attempts := u.attempts.insert slot (r.state.observedBy u.observer) } :
          Usage ν).noting notices,
        tallies ++ notices ++ [.tally (.regraded true)]⟩

/-- The first attempt with a behaviour that cannot replay. -/
def notReplayable? (u : Usage ν) : Option Behaviour :=
  u.attempts.values.findSome? fun a =>
    a.behaviour.bind fun b => if b.canRegrade then none else some b

/-- Replays every started attempt.  A behaviour that cannot replay is refused before anything is
done; otherwise the attempts are replayed in the order of the slots, up to the first that fails. -/
def regradeAll (draws : Nat → Draw) : Op Fault (Usage ν) Unit := fun u =>
  match u.notReplayable? with
  | some b => ⟨.error (.cannotRegrade b.name), u, []⟩
  | none =>
    let started := u.slots.filter fun slot =>
      (u.attempts.get? slot).any fun a => !a.steps.isEmpty
    Op.forEach (fun slot => regrade slot none (draws slot)) started u

end Usage
end Assessment
