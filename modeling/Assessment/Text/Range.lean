/-!
# Character ranges

Tables of the Unicode standard are lists of inclusive code point ranges.  Membership is a linear
scan; the callers answer ASCII themselves, so the scan is reached by other characters only.
-/

namespace Assessment
namespace Text

/-- Whether the code point of `c` lies in one of the inclusive ranges. -/
def inRanges (ranges : List (Nat × Nat)) (c : Char) : Bool :=
  ranges.any fun r => r.1 ≤ c.toNat && c.toNat ≤ r.2

theorem inRanges_nil (c : Char) : inRanges [] c = false := rfl

theorem inRanges_cons (r : Nat × Nat) (ranges : List (Nat × Nat)) (c : Char) :
    inRanges (r :: ranges) c = ((r.1 ≤ c.toNat && c.toNat ≤ r.2) || inRanges ranges c) := rfl

end Text
end Assessment
