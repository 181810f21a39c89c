/-!
# Cases, pieces and prefixes

The operations on text that names and lists need: `lower` for names that may be written in either
case, `pieces` for lists with a separator, `splitFirst` and `splitLast` for the first and the last
separator alone, and `afterPrefix?` for names that begin with a mark.  A cut text is never empty
(`pieces_ne_nil`): without a separator it is one piece.
-/

namespace Assessment
namespace Text

/-- The lower case of a character, as far as it is in ASCII: that of the ASCII letters and of the
Kelvin sign, which is a `K`.  Every other character is kept. -/
def lowerChar (c : Char) : Char := if c == '\u212a' then 'k' else c.toLower

/-- A text with its ASCII letters in lower case.  It is an ASCII name exactly when the text is that
name in some case. -/
def lower (s : String) : String :=
  String.ofList (s.toList.map lowerChar)

/-- The pieces of a text between the characters equal to `sep`, empty pieces included. -/
def pieces (sep : Char) : List Char → List (List Char)
  | [] => [[]]
  | c :: rest =>
    if c = sep then [] :: pieces sep rest
    else match pieces sep rest with
      | [] => [[c]]
      | p :: ps => (c :: p) :: ps

theorem pieces_ne_nil (sep : Char) (cs : List Char) : pieces sep cs ≠ [] := by
  cases cs with
  | nil => simp [pieces]
  | cons c rest =>
    rw [pieces]
    split
    · simp
    · split <;> simp

/-- What stands before and after the first character equal to `sep`; without one it is the whole
text and nothing. -/
def splitFirst (sep : Char) (cs : List Char) : List Char × Option (List Char) :=
  match cs.dropWhile (· != sep) with
  | _ :: rest => (cs.takeWhile (· != sep), some rest)
  | [] => (cs, none)

/-- What stands before and after the last character equal to `sep`; without one it is nothing and the
whole text. -/
def splitLast (sep : Char) (cs : List Char) : Option (List Char) × List Char :=
  match splitFirst sep cs.reverse with
  | (after, some before) => (some before.reverse, after.reverse)
  | (_, none) => (none, cs)

theorem splitFirst_of_notMem {sep : Char} {cs : List Char} (h : sep ∉ cs) :
    splitFirst sep cs = (cs, none) := by
  have hd : cs.dropWhile (· != sep) = [] := by
    induction cs with
    | nil => rfl
    | cons c rest ih =>
      have hc : c ≠ sep := fun heq => h (by simp [heq])
      simpa [List.dropWhile_cons, hc] using ih fun hm => h (List.mem_cons_of_mem _ hm)
  simp [splitFirst, hd]

theorem splitLast_of_notMem {sep : Char} {cs : List Char} (h : sep ∉ cs) :
    splitLast sep cs = (none, cs) := by
  have hr : sep ∉ cs.reverse := by simpa using h
  simp [splitLast, splitFirst_of_notMem hr]

/-- The rest of `s` after `lead`, when `s` begins with it. -/
def afterPrefix? (lead s : String) : Option String :=
  if lead.toList.isPrefixOf s.toList then some (String.ofList (s.toList.drop lead.toList.length))
  else none

end Text
end Assessment
