import Assessment.Data.SortedMap

/-!
# Sorted sets

A finite set as a map to the one-point type, hence again the sorted list of its members.
-/

namespace Assessment

/-- A finite set with its members in increasing order. -/
abbrev SortedSet (κ : Type) [Ord κ] := SortedMap κ Unit

namespace SortedSet

variable {κ : Type} [Ord κ]

/-- The members in order. -/
def toList (s : SortedSet κ) : List κ := s.keys

/-- Whether `k` is a member. -/
def has (s : SortedSet κ) (k : κ) : Bool := s.contains k

/-- The members that satisfy a predicate. -/
def keep (p : κ → Bool) (s : SortedSet κ) : SortedSet κ := s.filter fun k _ => p k

section Lawful

variable [Std.TransOrd κ] [Std.LawfulEqOrd κ]

/-- The set with `k` as a member. -/
def add (s : SortedSet κ) (k : κ) : SortedSet κ := s.insert k ()

/-- The set of the members of a list. -/
def ofList (ks : List κ) : SortedSet κ := ks.foldl add SortedMap.empty

/-- The members of either set. -/
def join (s t : SortedSet κ) : SortedSet κ := t.toList.foldl add s

@[simp] theorem has_add [DecidableEq κ] (s : SortedSet κ) (k k' : κ) :
    has (add s k) k' = (k' == k || has s k') := by
  simp only [has, add, SortedMap.contains, SortedMap.get?_insert]
  by_cases h : k' = k <;> simp [h]

omit [Std.TransOrd κ] in
@[simp] theorem has_keep (p : κ → Bool) (s : SortedSet κ) (k : κ) :
    has (keep p s) k = (has s k && p k) := by
  simp only [has, keep, SortedMap.contains, SortedMap.get?_filter]
  cases s.get? k <;> cases p k <;> simp [Option.filter]

end Lawful

end SortedSet
end Assessment
