/-!
# Sorted maps

A finite map as the list of its entries in increasing order of their keys.  The order is part of the
type, so two maps with the same look-ups are equal (`ext_get?`), and a listing of a map needs no
sorting.  Each operation is described through `get?`.
-/

namespace Assessment

/-- A map from `κ` to `α`: its entries, each key once, in increasing order. -/
structure SortedMap (κ : Type) [Ord κ] (α : Type) where
  /-- The entries in order. -/
  entries : List (κ × α)
  sorted : entries.Pairwise fun a b => compare a.1 b.1 = .lt

namespace SortedMap

variable {κ : Type} [Ord κ] {α β : Type}

instance [DecidableEq κ] [DecidableEq α] : DecidableEq (SortedMap κ α) := fun a b =>
  if h : a.entries = b.entries then isTrue (by cases a; cases b; cases h; rfl)
  else isFalse fun hab => h (hab ▸ rfl)

/-- The map without entries. -/
def empty : SortedMap κ α := ⟨[], List.Pairwise.nil⟩

instance : EmptyCollection (SortedMap κ α) := ⟨empty⟩

instance : Inhabited (SortedMap κ α) := ⟨empty⟩

/-- The value under a key in a list of entries. -/
def find (k : κ) : List (κ × α) → Option α
  | [] => none
  | e :: rest => if compare k e.1 = .eq then some e.2 else find k rest

/-- The value under a key. -/
def get? (m : SortedMap κ α) (k : κ) : Option α := find k m.entries

/-- Whether there is an entry under a key. -/
def contains (m : SortedMap κ α) (k : κ) : Bool := (m.get? k).isSome

/-- The keys in order. -/
def keys (m : SortedMap κ α) : List κ := m.entries.map Prod.fst

/-- The values in the order of their keys. -/
def values (m : SortedMap κ α) : List α := m.entries.map Prod.snd

/-- The number of entries. -/
def size (m : SortedMap κ α) : Nat := m.entries.length

/-- Whether the map has no entries. -/
def isEmpty (m : SortedMap κ α) : Bool := m.entries.isEmpty

/-- The greatest key. -/
def lastKey? (m : SortedMap κ α) : Option κ := m.keys.getLast?

/-- The least key. -/
def firstKey? (m : SortedMap κ α) : Option κ := m.keys.head?

/-- Puts an entry at its place in a list of entries. -/
def place (k : κ) (a : α) : List (κ × α) → List (κ × α)
  | [] => [(k, a)]
  | e :: rest =>
    match compare k e.1 with
    | .lt => (k, a) :: e :: rest
    | .eq => (k, a) :: rest
    | .gt => e :: place k a rest

theorem of_mem_place {k : κ} {a : α} {l : List (κ × α)} {x : κ × α} (h : x ∈ place k a l) :
    x = (k, a) ∨ x ∈ l := by
  induction l with
  | nil => simpa [place] using h
  | cons e rest ih =>
    rw [place] at h
    split at h
    · simpa using h
    · rcases List.mem_cons.1 h with h | h
      · exact .inl h
      · exact .inr (List.mem_cons_of_mem _ h)
    · rcases List.mem_cons.1 h with h | h
      · exact .inr (h ▸ List.mem_cons_self)
      · exact (ih h).imp_right (List.mem_cons_of_mem _)

section Lawful

variable [Std.TransOrd κ] [Std.LawfulEqOrd κ]

theorem pairwise_place (k : κ) (a : α) {l : List (κ × α)}
    (h : l.Pairwise fun a b => compare a.1 b.1 = .lt) :
    (place k a l).Pairwise fun a b => compare a.1 b.1 = .lt := by
  induction l with
  | nil => simp [place]
  | cons e rest ih =>
    obtain ⟨he, hrest⟩ := List.pairwise_cons.1 h
    rw [place]
    split
    · rename_i hlt
      refine List.pairwise_cons.2 ⟨fun x hx => ?_, h⟩
      rcases List.mem_cons.1 hx with rfl | hx
      · exact hlt
      · exact Std.TransCmp.lt_trans hlt (he x hx)
    · rename_i heq
      have hk : k = e.1 := Std.LawfulEqOrd.eq_of_compare heq
      exact List.pairwise_cons.2 ⟨fun x hx => hk ▸ he x hx, hrest⟩
    · rename_i hgt
      refine List.pairwise_cons.2 ⟨fun x hx => ?_, ih hrest⟩
      rcases of_mem_place hx with rfl | hx
      · exact Std.OrientedCmp.lt_of_gt hgt
      · exact he x hx

/-- The map with `a` under `k`. -/
def insert (m : SortedMap κ α) (k : κ) (a : α) : SortedMap κ α :=
  ⟨place k a m.entries, pairwise_place k a m.sorted⟩

/-- The map of a list of entries; the last of several entries under one key is kept. -/
def ofList (l : List (κ × α)) : SortedMap κ α :=
  l.foldl (fun m e => m.insert e.1 e.2) empty

/-- The map with the entries of a list put in one after the other. -/
def insertAll (m : SortedMap κ α) (l : List (κ × α)) : SortedMap κ α :=
  l.foldl (fun m e => m.insert e.1 e.2) m

/-- The first map with the entries of the second put in. -/
def union (m n : SortedMap κ α) : SortedMap κ α := m.insertAll n.entries

end Lawful

/-- The entries that satisfy a predicate. -/
def filter (p : κ → α → Bool) (m : SortedMap κ α) : SortedMap κ α :=
  ⟨m.entries.filter fun e => p e.1 e.2, m.sorted.sublist List.filter_sublist⟩

/-- The map without the entry under a key. -/
def erase [BEq κ] (m : SortedMap κ α) (k : κ) : SortedMap κ α := m.filter fun k' _ => k' != k

/-- The map with a function applied to every value. -/
def map (f : α → β) (m : SortedMap κ α) : SortedMap κ β :=
  ⟨m.entries.map fun e => (e.1, f e.2), by
    rw [List.pairwise_map]
    exact m.sorted⟩

/-! ## Look-ups -/

@[simp] theorem get?_empty (k : κ) : (empty : SortedMap κ α).get? k = none := rfl

theorem find_map (f : α → β) (k : κ) (l : List (κ × α)) :
    find k (l.map fun e => (e.1, f e.2)) = (find k l).map f := by
  induction l with
  | nil => rfl
  | cons e rest ih =>
    simp only [List.map_cons, find]
    split
    · rfl
    · exact ih

@[simp] theorem get?_map (f : α → β) (m : SortedMap κ α) (k : κ) :
    (m.map f).get? k = (m.get? k).map f :=
  find_map f k m.entries

@[simp] theorem keys_map (f : α → β) (m : SortedMap κ α) : (m.map f).keys = m.keys := by
  simp [keys, map, Function.comp_def]

section Lawful

variable [Std.TransOrd κ] [Std.LawfulEqOrd κ]

omit [Std.TransOrd κ] in
theorem find_eq_some_iff {k : κ} {a : α} {l : List (κ × α)}
    (h : l.Pairwise fun a b => compare a.1 b.1 = .lt) : find k l = some a ↔ (k, a) ∈ l := by
  induction l with
  | nil => simp [find]
  | cons e rest ih =>
    obtain ⟨he, hrest⟩ := List.pairwise_cons.1 h
    rw [find]
    split
    · rename_i heq
      have hk : k = e.1 := Std.LawfulEqOrd.eq_of_compare heq
      constructor
      · intro hs
        obtain rfl := Option.some.inj hs
        exact hk ▸ List.mem_cons_self
      · intro hm
        rcases List.mem_cons.1 hm with hm | hm
        · exact congrArg (fun x => some x.2) hm.symm
        · have := he _ hm
          rw [← hk] at this
          simp at this
    · rename_i hne
      rw [ih hrest, List.mem_cons]
      constructor
      · exact .inr
      · rintro (hm | hm)
        · exact absurd (by rw [← hm]; simp) hne
        · exact hm

omit [Std.TransOrd κ] in
theorem get?_eq_some_iff {m : SortedMap κ α} {k : κ} {a : α} :
    m.get? k = some a ↔ (k, a) ∈ m.entries :=
  find_eq_some_iff m.sorted

omit [Std.TransOrd κ] in
theorem find_place (k k' : κ) (a : α) (l : List (κ × α)) :
    find k' (place k a l) = if compare k' k = .eq then some a else find k' l := by
  induction l with
  | nil => simp [place, find]
  | cons e rest ih =>
    rw [place]
    split
    · simp only [find]
    · rename_i heq
      have hk : k = e.1 := Std.LawfulEqOrd.eq_of_compare heq
      simp only [find, ← hk]
      split <;> simp_all
    · rename_i hgt
      simp only [find, ih]
      split
      · rename_i heq
        have hk : k' = e.1 := Std.LawfulEqOrd.eq_of_compare heq
        rw [if_neg]
        intro hc
        have hk' : k' = k := Std.LawfulEqOrd.eq_of_compare hc
        rw [← hk', hk] at hgt
        simp at hgt
      · rfl

theorem get?_insert [DecidableEq κ] (m : SortedMap κ α) (k k' : κ) (a : α) :
    (m.insert k a).get? k' = if k' = k then some a else m.get? k' := by
  have h := find_place k k' a m.entries
  simpa [get?, insert] using h

@[simp] theorem get?_insert_self (m : SortedMap κ α) (k : κ) (a : α) :
    (m.insert k a).get? k = some a := by
  have h := find_place k k a m.entries
  simpa [get?, insert] using h

theorem get?_insert_of_ne (m : SortedMap κ α) {k k' : κ} (h : k' ≠ k) (a : α) :
    (m.insert k a).get? k' = m.get? k' := by
  have h' := find_place k k' a m.entries
  simpa [get?, insert, h] using h'

omit [Std.TransOrd κ] in
theorem get?_filter (p : κ → α → Bool) (m : SortedMap κ α) (k : κ) :
    (m.filter p).get? k = (m.get? k).filter (p k) := by
  apply Option.ext
  intro a
  rw [get?_eq_some_iff, Option.filter_eq_some_iff, get?_eq_some_iff]
  simp [filter]

/-- Two maps with the same look-ups are equal. -/
theorem ext_get? {m n : SortedMap κ α} (h : ∀ k, m.get? k = n.get? k) : m = n := by
  have key : ∀ {l l' : List (κ × α)}, l.Pairwise (fun a b => compare a.1 b.1 = .lt) →
      l'.Pairwise (fun a b => compare a.1 b.1 = .lt) → (∀ x, x ∈ l ↔ x ∈ l') → l = l' := by
    intro l
    induction l with
    | nil =>
      intro l' _ _ hm
      cases l' with
      | nil => rfl
      | cons e _ => exact absurd ((hm e).2 List.mem_cons_self) List.not_mem_nil
    | cons e rest ih =>
      intro l' hl hl' hm
      cases l' with
      | nil => exact absurd ((hm e).1 List.mem_cons_self) List.not_mem_nil
      | cons e' rest' =>
        obtain ⟨he, hrest⟩ := List.pairwise_cons.1 hl
        obtain ⟨he', hrest'⟩ := List.pairwise_cons.1 hl'
        have hee : e = e' := by
          rcases List.mem_cons.1 ((hm e).1 List.mem_cons_self) with h1 | h1
          · exact h1
          · rcases List.mem_cons.1 ((hm e').2 List.mem_cons_self) with h2 | h2
            · exact h2.symm
            · have := Std.TransCmp.lt_trans (he e' h2) (he' e h1)
              simp at this
        subst hee
        congr 1
        refine ih hrest hrest' fun x => ⟨fun hx => ?_, fun hx => ?_⟩
        · rcases List.mem_cons.1 ((hm x).1 (List.mem_cons_of_mem _ hx)) with rfl | h1
          · have := he _ hx
            simp at this
          · exact h1
        · rcases List.mem_cons.1 ((hm x).2 (List.mem_cons_of_mem _ hx)) with rfl | h1
          · have := he' _ hx
            simp at this
          · exact h1
  have := key m.sorted n.sorted fun x => by
    rw [← get?_eq_some_iff (k := x.1) (a := x.2), ← get?_eq_some_iff (k := x.1) (a := x.2), h]
  cases m; cases n; cases this; rfl

end Lawful

end SortedMap
end Assessment
