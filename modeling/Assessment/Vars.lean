import Assessment.Data.SortedMap

/-!
# Step variables

A step of an attempt carries named texts.  A name that begins with `-` belongs to the behaviour, any
other to the question; a name that begins with `_` after that optional `-` is *cached*, which means
that the question or the behaviour wrote it and nobody submitted it.  `Vars.submitted` is what was
submitted, `Vars.questionPart` the question's part of it together with the question's cached values.
-/

namespace Assessment

/-- Named texts. -/
abbrev Vars := SortedMap String String

/-- The two owners of variables. -/
inductive Owner
  | question
  | behaviour
  deriving Repr, DecidableEq

/-- The stored name of a variable. -/
def Owner.key : Owner → String → String
  | .question, name => name
  | .behaviour, name => "-" ++ name

/-- Whether a stored name belongs to the behaviour. -/
def isBehaviourKey (key : String) : Bool := key.toList.head? == some '-'

/-- A stored name without the mark of its owner. -/
def bareName (key : String) : List Char :=
  match key.toList with
  | '-' :: rest => rest
  | cs => cs

/-- Whether a stored name is cached. -/
def isCachedKey (key : String) : Bool := (bareName key).head? == some '_'

namespace Vars

/-- The question's variables, submitted and cached. -/
def questionPart (vars : Vars) : Vars := vars.filter fun key _ => !isBehaviourKey key

/-- The behaviour's variables, without the mark of their owner. -/
def behaviourPart (vars : Vars) : Vars :=
  SortedMap.ofList (vars.entries.filterMap fun e =>
    if isBehaviourKey e.1 then some (String.ofList (bareName e.1), e.2) else none)

/-- What was submitted: every variable that is not cached.  This is what a replay feeds back. -/
def submitted (vars : Vars) : Vars := vars.filter fun key _ => !isCachedKey key

/-- The value of a question variable. -/
def question? (vars : Vars) (name : String) : Option String := vars.get? (Owner.question.key name)

/-- The value of a behaviour variable. -/
def behaviour? (vars : Vars) (name : String) : Option String := vars.get? (Owner.behaviour.key name)

/-- Whether there is a behaviour variable of this name. -/
def hasBehaviour (vars : Vars) (name : String) : Bool := (vars.behaviour? name).isSome

/-- The variables with the cached variable `_name` of an owner set. -/
def cache (vars : Vars) (owner : Owner) (name value : String) : Vars :=
  vars.insert (owner.key ("_" ++ name)) value

/-- The variables with those of a behaviour put in under its mark. -/
def withBehaviour (vars behaviourVars : Vars) : Vars :=
  vars.insertAll (behaviourVars.entries.map fun e => (Owner.behaviour.key e.1, e.2))

end Vars
end Assessment
