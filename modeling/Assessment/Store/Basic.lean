import Assessment.Store.Load
import Assessment.Store.Save

/-!
# Stores

A store keeps usages as rows.  It holds them in memory, or on a server; this module says what a store
does while its server cannot be reached: every operation that needs the server fails, a failed save is
undone, and what needs no server still works.
-/

namespace Assessment

/-- Where a store keeps its rows. -/
inductive Backend
  | memory
  | unreachable
  deriving Repr, DecidableEq

/-- Stored usages, and the ids for new rows. -/
structure Store (ν : Type) where
  backend : Backend
  tables : Tables ν
  supply : Supply

namespace Store

variable {ν : Type}

/-- A store without rows, from whose generator nothing has been drawn. -/
def empty [IdSource] (backend : Backend) : Store ν := ⟨backend, Tables.empty, ⟨0⟩⟩

/-- Fails to reach the server, which is counted. -/
def unreached {σ α : Type} (operation doing : String) : Op Failure σ α := fun s =>
  ⟨.error (.unreachable doing), s, [.tally (.stored operation false)]⟩

/-- The usage with an id. -/
def load (usageId : String) (bank : Bank ν) (registry : Registry) : Op Failure (Store ν) (Usage ν) :=
  fun s =>
    match s.backend with
    | .unreachable => unreached "load_usage" "Failed to query question usage" s
    | .memory =>
      match s.tables.usages.find? fun u => u.id == usageId with
      | none => ⟨.error (.ofText ("Question usage " ++ usageId ++ " not found")), s, []⟩
      | some row =>
        let rows := s.tables.rowsOf row
        Usage.assemble row rows.attempts rows.steps rows.vars bank registry s

/-- Saves a usage: everything of one that is not stored yet, and otherwise what has changed. -/
def save : Op Failure (Usage ν × Store ν) Unit := fun us =>
  let u := us.1
  let s := us.2
  let r := Usage.prepare (u, s.supply)
  let u' := r.state.1
  let s' : Store ν := { s with supply := r.state.2 }
  match r.result with
  | .error e =>
    ⟨.error ((Failure.ofFault e).within "Failed to prepare usage for saving"), (u', s'), r.events⟩
  | .ok plan =>
    match s.backend with
    | .memory =>
      ⟨.ok (), (u'.settle, { s' with tables := s'.tables.apply plan.write }), r.events⟩
    | .unreachable =>
      if plan.write.isEmpty then ⟨.ok (), (u'.settle, s'), r.events⟩
      else
        ⟨.error (.unreachable "Failed to start transaction"), (u'.abort plan, s'),
          r.events ++ [.tally (.stored "save_usage" false)]⟩

/-- Deletes a usage with everything that belongs to it. -/
def delete (usageId : String) : Op Failure (Store ν) Unit := fun s =>
  match s.backend with
  | .memory => ⟨.ok (), { s with tables := s.tables.delete usageId }, []⟩
  | .unreachable => unreached "delete_usage" "Failed to start transaction" s

/-- How many steps are stored of a usage. -/
def stepCount (s : Store ν) (usageId : String) : Nat := s.tables.stepCount usageId

/-- Changes the marks of a slot in stored usages without loading them.  The value is the number of
attempts changed. -/
def setMaxMark (usageIds : List String) (slot : Nat) (maxMark : ν) : Op Failure (Store ν) Nat :=
  fun s =>
    match s.backend with
    | .memory =>
      ⟨.ok (s.tables.attempts.filter (Tables.inSlot usageIds slot)).length,
        { s with tables := s.tables.setMaxMark usageIds slot maxMark },
        [.tally (.stored "set_max_mark" true)]⟩
    | .unreachable => unreached "set_max_mark" "Failed to update attempt max marks" s

end Store

/-- Counts some work as an operation on the store. -/
def trackStored {ε σ α : Type} (operation : String) (work : Op ε σ α) : Op ε σ α := fun s =>
  let r := work s
  ⟨r.result, r.state, r.events ++ [.tally (.stored operation r.result.isOk)]⟩

end Assessment
