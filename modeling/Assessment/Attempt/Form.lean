import Assessment.Attempt.Acting

/-!
# Reading an attempt's form fields

A page posts the fields of all its attempts in one flat form.  An attempt finds its own by their stem
and takes those that its behaviour and its question expect, each in the normal form of its kind.  A
question that takes everything gets the fields of its stem as they are, except reserved names.
-/

namespace Assessment

/-- Field names of a form with the posted values. -/
abbrev Form := SortedMap String String

namespace Attempt

variable {ν : Type}

/-- The expected fields that were posted under `stem`, in normal form and named as variables. -/
def takeFields (ν : Type) [Scalar ν] (stem lead : String) (form : Form) :
    List (String × FieldKind) → Except Fault (List (String × String))
  | [] => .ok []
  | (name, kind) :: rest =>
    let field := stem ++ lead ++ name
    match form.get? field with
    | none => takeFields ν stem lead form rest
    | some raw => do
      let value ← kind.clean ν field raw
      let more ← takeFields ν stem lead form rest
      return (lead ++ name, value) :: more

/-- Whether a name under the stem is kept from a question that takes every field. -/
def isReserved (name : String) : Bool :=
  match name.toList with
  | [] => true
  | c :: _ => c == '-' || c == '_' || c == ':'

/-- The fields posted under `stem` whose names are not reserved. -/
def takeAll (stem : String) (form : Form) : List (String × String) :=
  form.entries.filterMap fun e =>
    (Text.afterPrefix? stem e.1).bind fun name =>
      if isReserved name then none else some (name, e.2)

/-- The variables that a form submits to the attempt. -/
def readForm [Scalar ν] (a : Attempt ν) (form : Form) : Except Fault Vars := do
  let behaviourPart ← match a.behaviour with
    | some b => takeFields ν a.stem "-" form (b.expected a).entries
    | none => .ok []
  let questionPart ← match a.question.expected with
    | .fields fields => takeFields ν a.stem "" form fields.entries
    | .every => .ok (takeAll a.stem form)
  return SortedMap.ofList (behaviourPart ++ questionPart)

end Attempt
end Assessment
