import Assessment.Store.Basic

/-!
# Regrading stored usages

Regrading a stored usage loads it, replays its started attempts against the current definitions of
their questions, and saves the result; the report compares each slot before and after.  Several usages
are regraded in batches, and one that fails does not stop the others.
-/

namespace Assessment

/-- A slot before and after regrading. -/
structure SlotRegrade (ν : Type) where
  slot : Nat
  oldState : State
  newState : State
  oldMark : Option ν
  newMark : Option ν

/-- The regraded slots of a usage. -/
structure UsageRegrade (ν : Type) where
  usageId : String
  slots : List (SlotRegrade ν)

/-- What became of several usages. -/
structure RegradeReport (ν : Type) where
  regraded : List (UsageRegrade ν)
  /-- The usages that failed, each with the message. -/
  failed : List (String × String)

variable {ν : Type} [Scalar ν]

/-- Whether regrading changed the outcome of a slot. -/
def SlotRegrade.changed (r : SlotRegrade ν) : Bool :=
  r.oldState != r.newState || !(r.oldMark == r.newMark)

/-- The report of a slot that has an attempt before and after. -/
def SlotRegrade.of (slot : Nat) (old new : Attempt ν) : SlotRegrade ν where
  slot := slot
  oldState := old.state
  newState := new.state
  oldMark := old.mark
  newMark := new.mark

/-- The report of the started attempts of a usage before and after. -/
def UsageRegrade.compare (usageId : String) (old new : Usage ν) : UsageRegrade ν where
  usageId := usageId
  slots := (old.attempts.values.filter fun a => !a.steps.isEmpty).filterMap fun a =>
    (new.attempts.get? a.slot).map fun b => SlotRegrade.of a.slot a b

namespace Store

/-- Regrades a stored usage. -/
def regrade (usageId : String) (bank : Bank ν) (registry : Registry) (draws : Nat → Draw) :
    Op Failure (Store ν) (UsageRegrade ν) :=
  Op.bind
    (Op.mapFailure (Failure.within ("Failed to load usage " ++ usageId))
      (load usageId bank registry)) fun old => fun s =>
  let replayed := Usage.regradeAll draws old
  match replayed.result with
  | .error e =>
    ⟨.error ((Failure.ofFault e).within ("Failed to regrade usage " ++ usageId)), s,
      replayed.events⟩
  | .ok () =>
    let saved := save (replayed.state, s)
    ⟨(saved.result.mapError (Failure.within ("Failed to save regraded usage " ++ usageId))).map
        fun _ => UsageRegrade.compare usageId old replayed.state,
      saved.state.2, replayed.events ++ saved.events⟩

/-- Pieces of a list with `size` members each, the last one perhaps with fewer. -/
def chunks {α : Type} (size : Nat) : Nat → List α → List (List α)
  | 0, _ => []
  | fuel + 1, xs => if xs.isEmpty then [] else xs.take size :: chunks size fuel (xs.drop size)

/-- The batches of a list; a batch has at least one member. -/
def batches {α : Type} (size : Nat) (xs : List α) : List (List α) :=
  chunks (max size 1) xs.length xs

/-- Regrades the usages of a batch, adding to a report. -/
def regradeBatch (bank : Bank ν) (registry : Registry) (draws : Nat → Draw) :
    List String → RegradeReport ν → Op Failure (Store ν) (RegradeReport ν)
  | [], report => Op.pure report
  | usageId :: rest, report => fun s =>
    let r := regrade usageId bank registry draws s
    let report := match r.result with
      | .ok regraded => { report with regraded := report.regraded ++ [regraded] }
      | .error f => { report with failed := report.failed ++ [(usageId, f.message)] }
    let more := regradeBatch bank registry draws rest report r.state
    ⟨more.result, more.state, r.events ++ more.events⟩

/-- Regrades usages in batches.  One that fails is reported and does not stop the others. -/
def regradeAll (size : Nat) (usageIds : List String) (bank : Bank ν) (registry : Registry)
    (draws : Nat → Draw) : Op Failure (Store ν) (RegradeReport ν) :=
  (batches size usageIds).foldl
    (fun op batch => Op.bind op (regradeBatch bank registry draws batch)) (Op.pure ⟨[], []⟩)

/-- Changes the marks of a slot in several stored usages, in batches.  Marks have to be finite and not
negative. -/
def setMaxMarkAll (size : Nat) (usageIds : List String) (slot : Nat) (maxMark : ν) :
    Op Failure (Store ν) Nat :=
  if !Scalar.isFinite maxMark || decide (maxMark < 0.0) then
    Op.fail (.ofText ("Max mark must be a non-negative number, got " ++ Scalar.plain maxMark))
  else
    (batches size usageIds).foldl
      (fun op batch => Op.bind op fun count =>
        Op.bind (setMaxMark batch slot maxMark) fun more => Op.pure (count + more))
      (Op.pure 0)

end Store
end Assessment
