import Assessment.Data.SortedMap
import Assessment.Fault

/-!
# Behaviours and their registry

A behaviour decides how an attempt reacts to each action.  The behaviours are a closed family; what
each of them does is in the modules beside this one.  A *registry* says which behaviours are on offer
under which names; history stored under a name that is not on offer gets the missing behaviour, which
keeps the name and lets a person comment, nothing else.
-/

namespace Assessment

/-- A behaviour of an attempt. -/
inductive Behaviour
  /-- Answers are only saved until the attempt is finished, then graded once. -/
  | deferred
  /-- One submission, graded at once. -/
  | immediate
  /-- One submission, graded at once, with a certainty that moves the fraction. -/
  | certainty
  /-- Several tries with hints between them; later tries earn less. -/
  | interactive
  /-- Answers wait for a person to grade them. -/
  | manual
  /-- Something to read; the learner marks it as seen. -/
  | information
  /-- The question is asked about every new submission.  `preferred` is what the usage prefers. -/
  | adaptive (preferred : String)
  /-- Stands in for a behaviour stored under a name that is not on offer. -/
  | missing (storedName : String)
  deriving Repr, DecidableEq

namespace Behaviour

/-- The name under which a behaviour is stored. -/
def name : Behaviour → String
  | deferred => "deferredfeedback"
  | immediate => "immediatefeedback"
  | certainty => "immediatecbm"
  | interactive => "interactive"
  | manual => "manualgraded"
  | information => "informationitem"
  | adaptive _ => "adaptive"
  | missing storedName => storedName

/-- Whether a usage can prefer the behaviour. -/
def isArchetypal : Behaviour → Bool
  | deferred | immediate | certainty | interactive => true
  | manual | information | adaptive _ | missing _ => false

/-- Whether stored history can be replayed through the behaviour. -/
def canRegrade : Behaviour → Bool
  | missing _ => false
  | _ => true

end Behaviour

/-- What a registry has on offer under a name: a behaviour that may depend on what the usage
prefers. -/
inductive Factory
  | deferred
  | immediate
  | certainty
  | interactive
  | manual
  | information
  | adaptive
  | missing
  deriving Repr, DecidableEq

/-- The behaviour made for a usage that prefers `preferred`. -/
def Factory.make (preferred : String) : Factory → Behaviour
  | deferred => .deferred
  | immediate => .immediate
  | certainty => .certainty
  | interactive => .interactive
  | manual => .manual
  | information => .information
  | adaptive => .adaptive preferred
  | missing => .missing preferred

/-- The behaviours on offer, by name. -/
abbrev Registry := SortedMap String Factory

namespace Registry

/-- A name that a behaviour can be registered under. -/
def isValidName (name : String) : Bool :=
  name != "" && name.toList.all fun c => c.isLower || c.isDigit

/-- Puts a behaviour on offer. -/
def register (registry : Registry) (name : String) (factory : Factory) : Except Fault Registry :=
  if !isValidName name then .error (.badBehaviourName name)
  else if registry.contains name then .error (.duplicateBehaviour name)
  else .ok (registry.insert name factory)

/-- The built-in behaviours under their own names. -/
def builtIn : List (String × Factory) :=
  [("deferredfeedback", .deferred), ("immediatefeedback", .immediate),
   ("immediatecbm", .certainty), ("interactive", .interactive), ("manualgraded", .manual),
   ("informationitem", .information), ("adaptive", .adaptive)]

/-- The registry with every built-in behaviour. -/
def standard : Registry := SortedMap.ofList builtIn

/-- The behaviour registered under a name. -/
def make (registry : Registry) (name preferred : String) : Except Fault Behaviour :=
  match registry.get? name with
  | some factory => .ok (factory.make preferred)
  | none => .error (.unknownBehaviour name)

/-- The behaviour registered under a name, provided that a usage can prefer it. -/
def makeArchetypal (registry : Registry) (name : String) : Except Fault Behaviour := do
  let behaviour ← registry.make name name
  if behaviour.isArchetypal then .ok behaviour else .error (.notArchetypal name)

/-- The behaviour for stored history: never fails, so that history stays readable. -/
def makeOrMissing (registry : Registry) (name preferred : String) : Behaviour :=
  match registry.get? name with
  | some factory => factory.make preferred
  | none => .missing name

/-- The names that a usage can prefer. -/
def archetypalNames (registry : Registry) : List String :=
  (registry.entries.filter fun e => (e.2.make e.1).isArchetypal).map Prod.fst

end Registry
end Assessment
