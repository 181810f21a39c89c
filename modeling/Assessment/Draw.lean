/-!
# Chance

Starting an attempt may draw a seed and an order of the answers.  A draw is passed in, so that
starting is a function; `Draw.order` gives a permutation of the answers for every draw.
-/

namespace Assessment

/-- What chance gives to an attempt that starts. -/
structure Draw where
  /-- A seed for a question that works with randomness of its own. -/
  seed : UInt32
  /-- Which of the remaining answers comes next, over and over. -/
  choices : Nat

namespace Draw

/-- A list in the order that a number chooses: the number's remainder picks a member, and its
quotient goes on with the others. -/
def arrange : Nat → Nat → List Nat → List Nat
  | 0, _, _ => []
  | fuel + 1, code, left =>
    match left[code % left.length]? with
    | none => []
    | some a => a :: arrange fuel (code / left.length) (left.erase a)

/-- An order of the numbers below `n`. -/
def order (draw : Draw) (n : Nat) : List Nat := arrange n draw.choices (List.range n)

theorem arrange_perm (fuel code : Nat) (left : List Nat) (h : left.length = fuel) :
    (arrange fuel code left).Perm left := by
  induction fuel generalizing code left with
  | zero => simp [arrange, List.eq_nil_of_length_eq_zero h]
  | succ fuel ih =>
    have hpos : 0 < left.length := by omega
    have hlt : code % left.length < left.length := Nat.mod_lt _ hpos
    rw [arrange, List.getElem?_eq_getElem hlt]
    have hmem : left[code % left.length] ∈ left := List.getElem_mem hlt
    have hlen : (left.erase left[code % left.length]).length = fuel := by
      rw [List.length_erase_of_mem hmem]
      omega
    exact ((ih _ _ hlen).cons _).trans (List.perm_cons_erase hmem).symm

/-- Every draw gives an order of all the numbers below `n`. -/
theorem order_perm (draw : Draw) (n : Nat) : (draw.order n).Perm (List.range n) :=
  arrange_perm n _ _ (by simp)

end Draw
end Assessment
