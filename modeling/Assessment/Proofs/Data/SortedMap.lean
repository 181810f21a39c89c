import Assessment.Data.SortedSet
import Mathlib.Data.List.Induction
import Mathlib.Tactic.Common

/-!
# Laws of sorted maps and sets

Membership of keys and values through look-ups, and the equations between maps that proofs about
usages need.  Every equation is proved by `SortedMap.ext_get?`.
-/

namespace Assessment

variable {κ : Type} [Ord κ] {α β γ : Type}

namespace SortedMap

lemma eq_empty_of_isEmpty {m : SortedMap κ α} (h : m.isEmpty = true) : m = empty := by
  obtain ⟨entries, sorted⟩ := m
  obtain rfl : entries = [] := List.isEmpty_iff.1 h
  rfl

lemma isEmpty_eq_false_of_get? {m : SortedMap κ α} {k : κ} {a : α} (h : m.get? k = some a) :
    m.isEmpty = false := by
  refine Bool.eq_false_iff.2 fun hempty => ?_
  rw [eq_empty_of_isEmpty hempty] at h
  cases h

lemma map_map (f : α → β) (g : β → γ) (m : SortedMap κ α) : (m.map f).map g = m.map (g ∘ f) := by
  simp [map, Function.comp_def]

@[simp] lemma map_id (m : SortedMap κ α) : m.map (fun a => a) = m := by
  simp [map]

variable [Std.LawfulEqOrd κ]

lemma mem_keys_iff {m : SortedMap κ α} {k : κ} : k ∈ m.keys ↔ ∃ a, m.get? k = some a := by
  simp only [keys, List.mem_map, get?_eq_some_iff]
  constructor
  · rintro ⟨e, he, rfl⟩
    exact ⟨e.2, he⟩
  · rintro ⟨a, ha⟩
    exact ⟨_, ha, rfl⟩

lemma mem_values_iff {m : SortedMap κ α} {a : α} : a ∈ m.values ↔ ∃ k, m.get? k = some a := by
  simp only [values, List.mem_map, get?_eq_some_iff]
  constructor
  · rintro ⟨e, he, rfl⟩
    exact ⟨e.1, he⟩
  · rintro ⟨k, hk⟩
    exact ⟨_, hk, rfl⟩

lemma nodup_keys (m : SortedMap κ α) : m.keys.Nodup := by
  refine (List.pairwise_map.2 (m.sorted.imp fun {a b} h hab => ?_))
  rw [hab] at h
  simp at h

variable [Std.TransOrd κ]

/-- Putting in what is there already changes nothing. -/
lemma insert_of_get? {m : SortedMap κ α} {k : κ} {a : α} (h : m.get? k = some a) :
    m.insert k a = m := by
  classical
  apply ext_get?
  intro k'
  rw [get?_insert]
  split
  · rename_i hk
    rw [hk, h]
  · rfl

/-- What is looked up after putting in a value is this value, or was there before. -/
lemma get?_insert_cases {m : SortedMap κ α} {k k' : κ} {a b : α}
    (h : (m.insert k a).get? k' = some b) : (k' = k ∧ b = a) ∨ k' ≠ k ∧ m.get? k' = some b := by
  by_cases hk : k' = k
  · subst hk
    rw [get?_insert_self] at h
    exact .inl ⟨rfl, (Option.some.inj h).symm⟩
  · rw [get?_insert_of_ne _ hk] at h
    exact .inr ⟨hk, h⟩

lemma mem_keys_insert {m : SortedMap κ α} {k k' : κ} {a : α} :
    k' ∈ (m.insert k a).keys ↔ k' = k ∨ k' ∈ m.keys := by
  rw [mem_keys_iff, mem_keys_iff]
  by_cases hk : k' = k
  · subst hk
    simp
  · simp [get?_insert_of_ne _ hk, hk]

/-- Mapping goes along with putting in. -/
lemma map_insert (f : α → β) (m : SortedMap κ α) (k : κ) (a : α) :
    (m.insert k a).map f = (m.map f).insert k (f a) := by
  classical
  apply ext_get?
  intro k'
  rw [get?_map, get?_insert, get?_insert, get?_map]
  split <;> rfl

/-- Two maps that look up the same keys have the same keys. -/
lemma keys_eq_of_isSome {m : SortedMap κ α} {n : SortedMap κ β}
    (h : ∀ k, (m.get? k).isSome = (n.get? k).isSome) : m.keys = n.keys := by
  have hblank : m.map (fun _ => ()) = n.map fun _ => () := by
    apply ext_get?
    intro k
    have hk := h k
    rw [get?_map, get?_map]
    cases hm : m.get? k <;> cases hn : n.get? k <;> simp_all
  have hkeys := congrArg keys hblank
  rwa [keys_map, keys_map] at hkeys

/-! ## Maps with related values -/

/-- Two maps with the same keys and related values. -/
def Matches (r : α → β → Prop) (m : SortedMap κ α) (n : SortedMap κ β) : Prop :=
  ∀ k, Option.Rel r (m.get? k) (n.get? k)

namespace Matches

variable {r : α → β → Prop} {m : SortedMap κ α} {n : SortedMap κ β} {k : κ} {a : α} {b : β}

omit [Std.LawfulEqOrd κ] [Std.TransOrd κ] in
lemma refl {r : α → α → Prop} (hr : ∀ a, r a a) (m : SortedMap κ α) : m.Matches r m := by
  intro k
  cases m.get? k with
  | none => exact .none
  | some a => exact .some (hr a)

omit [Std.LawfulEqOrd κ] [Std.TransOrd κ] in
lemma get?_eq_some (h : m.Matches r n) (ha : m.get? k = some a) : ∃ b, n.get? k = some b ∧ r a b := by
  have hk := h k
  rw [ha] at hk
  generalize n.get? k = x at hk
  cases hk with
  | some hab => exact ⟨_, rfl, hab⟩

omit [Std.LawfulEqOrd κ] [Std.TransOrd κ] in
lemma of_get?_eq_some (h : m.Matches r n) (hb : n.get? k = some b) :
    ∃ a, m.get? k = some a ∧ r a b := by
  have hk := h k
  rw [hb] at hk
  generalize m.get? k = x at hk
  cases hk with
  | some hab => exact ⟨_, rfl, hab⟩

lemma keys_eq (h : m.Matches r n) : m.keys = n.keys := by
  apply keys_eq_of_isSome
  intro k
  have hk := h k
  generalize m.get? k = x at hk
  generalize n.get? k = y at hk
  cases hk <;> rfl

omit [Std.LawfulEqOrd κ] [Std.TransOrd κ] in
lemma map_right (h : m.Matches r n) {f : β → β} (hf : ∀ a b, r a b → r a (f b)) :
    m.Matches r (n.map f) := by
  intro k
  have hk := h k
  rw [get?_map]
  generalize m.get? k = x at hk ⊢
  generalize n.get? k = y at hk ⊢
  cases hk with
  | none => exact .none
  | some hab => exact .some (hf _ _ hab)

lemma insert (h : m.Matches r n) (ha : m.get? k = some a) (hab : r a b) : m.Matches r (n.insert k b) := by
  classical
  intro k'
  rw [get?_insert]
  split
  · rename_i hk
    rw [hk, ha]
    exact .some hab
  · exact h k'

end Matches

/-! ## Maps of lists -/

lemma ofList_append_singleton (l : List (κ × α)) (e : κ × α) :
    ofList (l ++ [e]) = (ofList l).insert e.1 e.2 := by
  simp [ofList]

lemma map_ofList (f : α → β) (l : List (κ × α)) :
    (ofList l).map f = ofList (l.map fun e => (e.1, f e.2)) := by
  induction l using List.reverseRecOn with
  | nil => rfl
  | append_singleton l e ih =>
    rw [ofList_append_singleton, map_insert, ih, List.map_append, List.map_singleton,
      ofList_append_singleton]

/-- What is looked up in the map of a list is in the list. -/
lemma mem_of_get?_ofList {l : List (κ × α)} {k : κ} {a : α} (h : (ofList l).get? k = some a) :
    (k, a) ∈ l := by
  classical
  induction l using List.reverseRecOn with
  | nil => simp [ofList] at h
  | append_singleton l e ih =>
    rw [ofList_append_singleton, get?_insert] at h
    split at h
    · rename_i hk
      cases h
      simp [hk]
    · exact List.mem_append_left _ (ih h)

/-- Every key of a list can be looked up in its map. -/
lemma exists_get?_ofList {l : List (κ × α)} {e : κ × α} (h : e ∈ l) :
    ∃ a, (ofList l).get? e.1 = some a := by
  classical
  induction l using List.reverseRecOn with
  | nil => cases h
  | append_singleton l e' ih =>
    rw [ofList_append_singleton, get?_insert]
    split
    · exact ⟨e'.2, rfl⟩
    · rename_i hk
      rcases List.mem_append.1 h with h | h
      · exact ih h
      · exact absurd (congrArg Prod.fst (List.mem_singleton.1 h)) hk

/-- A list that gives no key two values is looked up by membership. -/
lemma get?_ofList_eq_some_iff {l : List (κ × α)}
    (hl : ∀ k a b, (k, a) ∈ l → (k, b) ∈ l → a = b) {k : κ} {a : α} :
    (ofList l).get? k = some a ↔ (k, a) ∈ l := by
  refine ⟨mem_of_get?_ofList, fun h => ?_⟩
  obtain ⟨b, hb⟩ := exists_get?_ofList h
  rw [hb, hl k a b h (mem_of_get?_ofList hb)]

/-- The map of a list that holds what a map looks up is this map. -/
lemma ofList_eq {l : List (κ × α)} {m : SortedMap κ α}
    (h : ∀ k a, (k, a) ∈ l ↔ m.get? k = some a) : ofList l = m := by
  apply ext_get?
  intro k
  apply Option.ext
  intro a
  rw [get?_ofList_eq_some_iff fun k a b ha hb => Option.some.inj (((h k a).1 ha).symm.trans
    ((h k b).1 hb)), h]

/-- The map of the entries of a map is this map. -/
lemma ofList_entries (m : SortedMap κ α) : ofList m.entries = m :=
  ofList_eq fun _ _ => get?_eq_some_iff.symm

/-! ## Entries put in -/

lemma get?_singleton [DecidableEq κ] (k k' : κ) (a : α) :
    (ofList [(k, a)]).get? k' = if k' = k then some a else none := by
  rw [ofList, List.foldl_cons, List.foldl_nil, get?_insert, get?_empty]

lemma get?_insertAll (m : SortedMap κ α) (l : List (κ × α)) (k : κ) :
    (m.insertAll l).get? k = ((ofList l).get? k).or (m.get? k) := by
  classical
  induction l using List.reverseRecOn with
  | nil => rfl
  | append_singleton l e ih =>
    have happend : m.insertAll (l ++ [e]) = (m.insertAll l).insert e.1 e.2 := by simp [insertAll]
    rw [happend, ofList_append_singleton, get?_insert, get?_insert, ih]
    split <;> rfl

/-- The entries of the second map go before those of the first. -/
lemma get?_union (m n : SortedMap κ α) (k : κ) :
    (m.union n).get? k = (n.get? k).or (m.get? k) := by
  rw [union, get?_insertAll, ofList_entries]

end SortedMap

/-! ## Sets -/

namespace SortedSet

@[simp] lemma has_empty (k : κ) : has (SortedMap.empty : SortedSet κ) k = false := rfl

variable [Std.LawfulEqOrd κ]

lemma has_iff_mem_toList {s : SortedSet κ} {k : κ} : has s k = true ↔ k ∈ toList s := by
  rw [toList, SortedMap.mem_keys_iff]
  simp [has, SortedMap.contains, Option.isSome_iff_exists]

variable [Std.TransOrd κ]

/-- Two sets with the same members are equal. -/
lemma ext_has {s t : SortedSet κ} (h : ∀ k, has s k = has t k) : s = t := by
  apply SortedMap.ext_get?
  intro k
  have hk := h k
  simp only [has, SortedMap.contains] at hk
  cases hs : SortedMap.get? s k <;> cases ht : SortedMap.get? t k <;> simp_all

lemma has_foldl_add (s : SortedSet κ) (ks : List κ) (k : κ) :
    has (ks.foldl add s) k = true ↔ has s k = true ∨ k ∈ ks := by
  classical
  induction ks generalizing s with
  | nil => simp
  | cons k' rest ih =>
    rw [List.foldl_cons, ih, has_add, List.mem_cons, Bool.or_eq_true, beq_iff_eq]
    tauto

@[simp] lemma has_join (s t : SortedSet κ) (k : κ) :
    has (join s t) k = (has s k || has t k) := by
  rw [Bool.eq_iff_iff, join, has_foldl_add, Bool.or_eq_true, has_iff_mem_toList (s := t)]

lemma has_ofList {ks : List κ} {k : κ} : has (ofList ks) k = true ↔ k ∈ ks := by
  rw [ofList, has_foldl_add]
  simp [has, SortedMap.contains]

/-- The members of a list in order, each once, are the keys of any map that has just these keys. -/
lemma toList_ofList {ks : List κ} {m : SortedMap κ α} (h : ∀ k, k ∈ ks ↔ k ∈ m.keys) :
    toList (ofList ks) = m.keys := by
  have hset : ofList ks = m.map fun _ => () := ext_has fun k => by
    rw [Bool.eq_iff_iff, has_ofList, h, has_iff_mem_toList, toList, SortedMap.keys_map]
  rw [hset, toList, SortedMap.keys_map]

lemma isEmpty_iff {s : SortedSet κ} : s.isEmpty = true ↔ ∀ k, has s k = false := by
  constructor
  · intro h k
    rw [SortedMap.eq_empty_of_isEmpty h, has_empty]
  · intro h
    have hempty : s = SortedMap.empty := ext_has h
    rw [hempty]
    rfl

lemma empty_join (t : SortedSet κ) : join SortedMap.empty t = t :=
  ext_has fun k => by rw [has_join, has_empty, Bool.false_or]

end SortedSet
end Assessment
