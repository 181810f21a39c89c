import Assessment.Data.SortedSet
import Assessment.Event

/-!
# Unsaved changes

A stored usage keeps track of what has changed since it was saved.  The notices of its operations are
folded into a `Changes`; a save takes the changes, and a save that did not go through puts them back.
An attempt that was added since the last save will be written in full, so its own changes are not
kept.
-/

namespace Assessment

/-- The place of a step in a usage. -/
structure StepPlace where
  slot : Nat
  index : Nat
  deriving Repr, DecidableEq

namespace StepPlace

instance : Ord StepPlace := ⟨compareLex (compareOn StepPlace.slot) (compareOn StepPlace.index)⟩

instance : Std.TransOrd StepPlace :=
  inferInstanceAs (Std.TransCmp (compareLex (compareOn StepPlace.slot) (compareOn StepPlace.index)))

instance : Std.LawfulEqOrd StepPlace where
  compare_self := Ordering.then_eq_eq.2 ⟨Std.ReflCmp.compare_self, Std.ReflCmp.compare_self⟩
  eq_of_compare := by
    intro a b h
    have h' := Ordering.then_eq_eq.1 h
    have h1 : a.slot = b.slot := Std.LawfulEqOrd.eq_of_compare h'.1
    have h2 : a.index = b.index := Std.LawfulEqOrd.eq_of_compare h'.2
    cases a; cases b; simp_all

end StepPlace

/-- What has changed since the last save. -/
structure Changes where
  usageModified : Bool
  attemptsAdded : SortedSet Nat
  attemptsModified : SortedSet Nat
  /-- The attempts whose stored steps go before their steps are written again. -/
  stepsDeleted : SortedSet Nat
  stepsAdded : SortedSet StepPlace
  deriving DecidableEq

namespace Changes

/-- No changes. -/
def none : Changes where
  usageModified := false
  attemptsAdded := SortedMap.empty
  attemptsModified := SortedMap.empty
  stepsDeleted := SortedMap.empty
  stepsAdded := SortedMap.empty

instance : Inhabited Changes := ⟨none⟩

/-- Whether there is nothing to save. -/
def isEmpty (c : Changes) : Bool :=
  !c.usageModified && c.attemptsAdded.isEmpty && c.attemptsModified.isEmpty
    && c.stepsDeleted.isEmpty && c.stepsAdded.isEmpty

/-- The slots whose stored attempt has to be updated, attempts that are not stored yet excluded. -/
def slotsToUpdate (c : Changes) : SortedSet Nat :=
  ((c.attemptsModified.join c.stepsDeleted).join
    (SortedSet.ofList (c.stepsAdded.toList.map StepPlace.slot))).keep
      fun slot => !c.attemptsAdded.has slot

/-- The changes together with one that a notice tells of. -/
def note (c : Changes) : Notice → Changes
  | .usageModified => { c with usageModified := true }
  | .attemptAdded slot =>
    { c with
      attemptsAdded := c.attemptsAdded.add slot
      attemptsModified := c.attemptsModified.keep (· != slot) }
  | .attemptModified slot =>
    if c.attemptsAdded.has slot then c
    else { c with attemptsModified := c.attemptsModified.add slot }
  | .stepsDeleted slot =>
    if c.attemptsAdded.has slot then c
    else
      { c with
        stepsAdded := c.stepsAdded.keep fun place => place.slot != slot
        stepsDeleted := c.stepsDeleted.add slot }
  | .stepAdded slot index =>
    if c.attemptsAdded.has slot then c
    else { c with stepsAdded := c.stepsAdded.add ⟨slot, index⟩ }

/-- The changes together with those that events tell of. -/
def noteAll (c : Changes) (events : List Event) : Changes :=
  (events.filterMap Event.notice?).foldl note c

/-- The changes together with those that a save took and did not store. -/
def restore (c taken : Changes) : Changes where
  usageModified := c.usageModified || taken.usageModified
  attemptsAdded := c.attemptsAdded.join taken.attemptsAdded
  attemptsModified := c.attemptsModified.join taken.attemptsModified
  stepsDeleted := c.stepsDeleted.join taken.stepsDeleted
  stepsAdded := c.stepsAdded.join taken.stepsAdded

end Changes
end Assessment
