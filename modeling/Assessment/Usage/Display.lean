import Assessment.Text.Quoted
import Assessment.Usage.Basic

/-!
# Diagnostic displays

The text that logs and debuggers show of a usage, an attempt or a registry: the name of the structure
and its main fields.
-/

namespace Assessment

namespace Display

/-- A structure with its fields. -/
def structureText (name : String) (fields : List (String × String)) : String :=
  name ++ " \x7b " ++ ", ".intercalate (fields.map fun f => f.1 ++ ": " ++ f.2) ++ " \x7d"

/-- A text that may be missing. -/
def optionalText : Option String → String
  | some s => "Some(" ++ Text.quoted s ++ ")"
  | none => "None"

end Display

open Display

/-- The display of an attempt. -/
def Attempt.display {ν : Type} [Scalar ν] (a : Attempt ν) : String :=
  structureText "Attempt"
    [("id", optionalText a.id), ("usage_id", Text.quoted a.usageId), ("slot", a.slot.repr),
     ("question", Text.quoted a.question.id),
     ("behaviour", optionalText (a.behaviour.map Behaviour.name)),
     ("max_mark", Scalar.full a.maxMark), ("steps", a.steps.length.repr),
     ("state", a.state.display)]

/-- The display of an identity. -/
def UsageId.display : UsageId → String
  | .stored id => "Stored(" ++ Text.quoted id ++ ")"
  | .ephemeral token => "Ephemeral(" ++ Text.quoted token ++ ")"

/-- The display of a usage with its attempts by slot. -/
def Usage.display {ν : Type} [Scalar ν] (u : Usage ν) : String :=
  let attempts := u.attempts.entries.map fun e => e.1.repr ++ ": " ++ e.2.display
  structureText "Usage"
    [("id", u.id.display), ("owning_plugin", Text.quoted u.plugin),
     ("context", Text.quoted u.context), ("preferred_behaviour", Text.quoted u.preferred),
     ("attempts", "\x7b" ++ ", ".intercalate attempts ++ "\x7d")]

/-- The display of a registry: the names on offer. -/
def Registry.display (registry : Registry) : String :=
  structureText "BehaviourRegistry"
    [("behaviours", "[" ++ ", ".intercalate (registry.keys.map Text.quoted) ++ "]")]

end Assessment
