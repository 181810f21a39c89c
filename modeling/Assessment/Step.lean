import Assessment.Fault
import Assessment.Instant
import Assessment.State
import Assessment.Vars

/-!
# Steps and drafts

A *step* is one recorded action on an attempt.  Once it is recorded it is read-only: `Step.setState`,
`Step.setFraction` and `Step.setCached` refuse to touch it.  A *draft* is a step on which a behaviour
is still ruling; `Draft.record` turns it into a recorded step without an id.
-/

namespace Assessment

/-- One action on an attempt, with the state it led to. -/
structure Step (ν : Type) where
  /-- The id of the stored row, if there is one. -/
  id : Option String
  state : State
  fraction : Option ν
  time : Instant
  actor : Option String
  vars : Vars
  readOnly : Bool

/-- A step that is being ruled on. -/
structure Draft (ν : Type) where
  state : State
  fraction : Option ν
  time : Instant
  actor : Option String
  vars : Vars
  /-- The summary of the response, when the ruling makes one. -/
  summary : Option String

variable {ν : Type}

namespace Draft

/-- A draft of an action, with nothing ruled yet.  Its time is cut to milliseconds. -/
def new (vars : Vars) (time : Instant) (actor : Option String) : Draft ν where
  state := .unprocessed
  fraction := none
  time := time.cut
  actor := actor
  vars := vars
  summary := none

/-- The draft with a state. -/
def withState (d : Draft ν) (state : State) : Draft ν := { d with state := state }

/-- The draft with a state and a fraction. -/
def graded (d : Draft ν) (grade : ν × State) : Draft ν :=
  { d with fraction := some grade.1, state := grade.2 }

/-- The draft with the cached variable `_name` of an owner set. -/
def cache (d : Draft ν) (owner : Owner) (name value : String) : Draft ν :=
  { d with vars := d.vars.cache owner name value }

/-- The draft with the summary of its response. -/
def summarised (d : Draft ν) (summary : Option String) : Draft ν := { d with summary := summary }

/-- The step that a draft is recorded as. -/
def record (d : Draft ν) : Step ν where
  id := none
  state := d.state
  fraction := d.fraction
  time := d.time
  actor := d.actor
  vars := d.vars
  readOnly := true

end Draft

namespace Step

/-- A step that is not recorded yet. -/
def new (vars : Vars) (time : Instant) (actor : Option String) : Step ν where
  id := none
  state := .unprocessed
  fraction := none
  time := time.cut
  actor := actor
  vars := vars
  readOnly := false

/-- A step that changes, unless it is recorded. -/
def amend (s : Step ν) (f : Step ν → Except Fault (Step ν)) : Except Fault (Step ν) :=
  if s.readOnly then .error .recordedStep else f s

/-- The step with another state. -/
def setState (s : Step ν) (state : State) : Except Fault (Step ν) :=
  s.amend fun s => .ok { s with state := state }

/-- The step with another fraction. -/
def setFraction (s : Step ν) (fraction : Option ν) : Except Fault (Step ν) :=
  s.amend fun s => .ok { s with fraction := fraction }

/-- The step with a cached variable, whose name has to begin with `_` so that it is never taken for
something submitted. -/
def setCached (s : Step ν) (owner : Owner) (name value : String) : Except Fault (Step ν) :=
  s.amend fun s =>
    if name.toList.head? == some '_' then
      .ok { s with vars := s.vars.insert (owner.key name) value }
    else .error (.notCached name)

end Step
end Assessment
