import Assessment.Op
import Assessment.Question
import Assessment.Store.Failure

/-!
# Question banks

A bank gives the current definition of a question by its id.  It holds its questions in memory, or
keeps them on a server; a server that cannot be reached fails every look-up.
-/

namespace Assessment

/-- Where questions are kept. -/
inductive Bank (ν : Type)
  | memory (questions : SortedMap String (Question ν))
  | unreachable

namespace Bank

variable {ν σ : Type}

/-- The question with an id. -/
def question (bank : Bank ν) (id : String) : Op Failure σ (Question ν) :=
  match bank with
  | memory questions =>
    match questions.get? id with
    | some q => Op.pure q
    | none => Op.fail (.ofFault (.questionNotFound id))
  | unreachable => fun s =>
    ⟨.error (.unreachable ("Failed to query question " ++ id)), s,
      [.tally (.stored "load_question" false)]⟩

/-- Stores a question on a server that cannot be reached. -/
def saveUnreachable (id : String) : Op Failure σ Unit := fun s =>
  ⟨.error (.unreachable ("Failed to save question " ++ id)), s,
    [.tally (.stored "save_question" false)]⟩

end Bank
end Assessment
