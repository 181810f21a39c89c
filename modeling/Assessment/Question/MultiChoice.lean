import Assessment.Draw
import Assessment.Question.Response
import Assessment.State

/-!
# Multiple choice

One of several answers is chosen.  The answer field holds the place of the chosen answer in the
definition; the order in which the answers are shown belongs to the attempt and is cached as
`_order`.
-/

namespace Assessment

/-- An answer on offer, with the fraction it earns. -/
structure Choice (ν : Type) where
  text : String
  fraction : ν
  feedback : Option String

/-- A question with answers to choose from. -/
structure MultiChoice (ν : Type) where
  id : String
  name : String
  text : String
  defaultMark : ν
  /-- What each extra try costs. -/
  penalty : ν
  /-- Whether each attempt shows the answers in an order of its own. -/
  shuffle : Bool
  choices : List (Choice ν)
  hints : List String

namespace MultiChoice

variable {ν : Type} [Scalar ν]

/-- The usual cost of an extra try. -/
def usualPenalty : ν := 0.3333333

/-- A question with the usual mark and penalty, named by its id, shown in the order of its
definition. -/
def new (id text : String) (choices : List (Choice ν)) : MultiChoice ν where
  id := id
  name := id
  text := text
  defaultMark := 1.0
  penalty := usualPenalty
  shuffle := false
  choices := choices
  hints := []

/-- The answer chosen in a response. -/
def chosen? (q : MultiChoice ν) (response : Vars) : Option (Choice ν) :=
  ((response.get? answerField).bind (Number.readNat? Number.max64)).bind (q.choices[·]?)

/-- The fraction of the chosen answer. -/
def fraction (q : MultiChoice ν) (response : Vars) : ν :=
  match q.chosen? response with
  | some choice => choice.fraction
  | none => 0.0

/-- The least fraction on offer, at most zero. -/
def minFraction (q : MultiChoice ν) : ν :=
  q.choices.foldl (fun least choice => Scalar.least least choice.fraction) 0.0

/-- The place and the answer of the first answer that counts as correct. -/
def right? (q : MultiChoice ν) : Option (Nat × Choice ν) :=
  (q.choices.zipIdx.find? fun c => State.correctAbove < c.1.fraction).map fun c => (c.2, c.1)

/-- The response that chooses the first correct answer. -/
def rightResponse (q : MultiChoice ν) : Vars :=
  match q.right? with
  | some (place, _) => SortedMap.ofList [(answerField, place.repr)]
  | none => SortedMap.empty

/-- The order in which an attempt shows the answers. -/
def order (q : MultiChoice ν) (draw : Draw) : List Nat :=
  if q.shuffle then draw.order q.choices.length else List.range q.choices.length

/-- The first step of an attempt remembers the order, unless it does so already. -/
def seed (q : MultiChoice ν) (draw : Draw) (vars : Vars) : Vars :=
  if (vars.question? "_order").isSome then vars
  else vars.cache .question "order" (",".intercalate ((q.order draw).map Nat.repr))

/-- The question with the answers on offer. -/
def summary (q : MultiChoice ν) : String :=
  q.text ++ ": " ++ "; ".intercalate (q.choices.map Choice.text)

end MultiChoice
end Assessment
