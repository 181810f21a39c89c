/-!
# Fresh ids

Ids come from a generator, and nothing here depends on which one it is: a generator is any two sequences
of texts with the laws of `IdSource`.  A supply is a generator together with the number of ids that have
been drawn from it, so that no id is handed out twice.
-/

namespace Assessment

/-- A generator of ids.  What is drawn has two spellings: rows go by the long one, and a usage that is
not stored yet goes by the short one. -/
class IdSource where
  /-- The id that a row is given, by how many ids were drawn before. -/
  rowId : Nat → String
  /-- The token of a usage that is not stored yet, by how many ids were drawn before. -/
  token : Nat → String
  /-- Ids never repeat. -/
  rowId_inj : ∀ {m n : Nat}, rowId m = rowId n → m = n
  /-- In the name of a field a colon ends the id of the usage, so no id has one. -/
  colon_notMem_rowId : ∀ n : Nat, ':' ∉ (rowId n).toList
  colon_notMem_token : ∀ n : Nat, ':' ∉ (token n).toList

/-- A supply of ids. -/
structure Supply where
  /-- Where the ids come from. -/
  [source : IdSource]
  /-- How many ids have been drawn. -/
  issued : Nat

namespace Supply

/-- The id of a row, by how many ids were drawn before. -/
def rowId (s : Supply) (n : Nat) : String := s.source.rowId n

/-- The supply after one id. -/
def next (s : Supply) : Supply := { s with issued := s.issued + 1 }

/-- An id for a row. -/
def takeRowId (s : Supply) : String × Supply := (s.rowId s.issued, s.next)

/-- A token for a usage. -/
def takeToken (s : Supply) : String × Supply := (s.source.token s.issued, s.next)

end Supply
end Assessment
