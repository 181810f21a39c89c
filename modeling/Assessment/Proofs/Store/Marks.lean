import Assessment.Command.Ids
import Assessment.Proofs.Store.Batching

/-!
# Setting marks in batches

The marks of a slot are set in several stored usages batch by batch, and the counts of the batches are
added up (`Store.setMaxMarkAll_counts`).  Which rows are changed, and how, does not depend on the
batches.  The count does: an attempt is counted once for every batch that lists its usage
(`Store.listings`).  So the count is that of the attempts changed exactly if no usage with such an
attempt is listed in two batches, and this is so for lists without repetitions.
-/

namespace Assessment

variable {ν : Type}

/-! ## One batch after another -/

namespace Tables

@[simp] lemma inSlot_iff {ids : List String} {slot : Nat} {a : AttemptRow ν} :
    inSlot ids slot a = true ↔ a.slot = slot ∧ a.usageId ∈ ids := by
  simp [inSlot]

/-- Marks that were set leave every row in its slot and its usage. -/
lemma countP_inSlot_setMaxMark (t : Tables ν) (ids ids' : List String) (slot : Nat) (m : ν) :
    (t.setMaxMark ids slot m).attempts.countP (inSlot ids' slot) =
      t.attempts.countP (inSlot ids' slot) := by
  have hsame : ∀ a : AttemptRow ν,
      inSlot ids' slot (if inSlot ids slot a then { a with maxMark := m } else a) =
        inSlot ids' slot a := fun a => by
    split <;> rfl
  simp only [setMaxMark, List.countP_map, Function.comp_def, hsame]

/-- Marks set in one list of usages and then in another are set in both. -/
lemma setMaxMark_setMaxMark (t : Tables ν) (ids ids' : List String) (slot : Nat) (m : ν) :
    (t.setMaxMark ids slot m).setMaxMark ids' slot m = t.setMaxMark (ids ++ ids') slot m := by
  simp only [setMaxMark, List.map_map]
  congr 1
  refine List.map_congr_left fun a _ => ?_
  by_cases hslot : a.slot = slot <;> by_cases h : a.usageId ∈ ids <;>
    by_cases h' : a.usageId ∈ ids' <;> simp [inSlot, hslot, h, h']

lemma setMaxMark_nil (t : Tables ν) (slot : Nat) (m : ν) : t.setMaxMark [] slot m = t := by
  simp [setMaxMark, inSlot]

end Tables

namespace Store

/-- In how many batches the usage of an attempt in a slot is listed. -/
def listings (batches : List (List String)) (slot : Nat) (a : AttemptRow ν) : Nat :=
  batches.countP fun batch => Tables.inSlot batch slot a

/-- The marks set in some batches, after what was counted before. -/
lemma setMaxMark_batches (slot : Nat) (m : ν) (batches : List (List String))
    {op : Op Failure (Store ν) Nat} {s : Store ν} {count : Nat} (hop : (op s).result = .ok count)
    (hbackend : (op s).state.backend = .memory) :
    let run := batches.foldl (fun op batch => Op.bind op fun count =>
      Op.bind (setMaxMark batch slot m) fun more => Op.pure (count + more)) op s
    run.result = .ok (count + (batches.map fun batch =>
      (op s).state.tables.attempts.countP (Tables.inSlot batch slot)).sum) ∧
    run.state =
      { (op s).state with tables := (op s).state.tables.setMaxMark batches.flatten slot m } := by
  induction batches generalizing op count with
  | nil => simp [hop, Tables.setMaxMark_nil]
  | cons batch rest ih =>
    let next : Op Failure (Store ν) Nat := Op.bind op fun count =>
      Op.bind (setMaxMark batch slot m) fun more => Op.pure (count + more)
    have hset : (setMaxMark batch slot m (op s).state).result =
        .ok ((op s).state.tables.attempts.countP (Tables.inSlot batch slot)) ∧
        (setMaxMark batch slot m (op s).state).state =
          { (op s).state with tables := (op s).state.tables.setMaxMark batch slot m } := by
      simp [setMaxMark, hbackend, List.countP_eq_length_filter]
    have hnext : (next s).result =
        .ok (count + (op s).state.tables.attempts.countP (Tables.inSlot batch slot)) ∧
        (next s).state =
          { (op s).state with tables := (op s).state.tables.setMaxMark batch slot m } := by
      simp only [next, Op.bind_of_ok hop, Op.bind_of_ok hset.1]
      exact ⟨rfl, hset.2⟩
    obtain ⟨hresult, hstate⟩ := ih hnext.1 (by rw [hnext.2]; exact hbackend)
    rw [hnext.2] at hresult hstate
    simp only [Tables.countP_inSlot_setMaxMark, Tables.setMaxMark_setMaxMark] at hresult hstate
    exact ⟨by rw [List.map_cons, List.sum_cons, ← Nat.add_assoc]; exact hresult, hstate⟩

/-! ## Counting by rows -/

/-- One more batch counts each of its attempts once more. -/
lemma sum_listings_cons (batch : List String) (rest : List (List String)) (slot : Nat)
    (rows : List (AttemptRow ν)) :
    (rows.map (listings (batch :: rest) slot)).sum =
      rows.countP (Tables.inSlot batch slot) + (rows.map (listings rest slot)).sum := by
  induction rows with
  | nil => rfl
  | cons a rows ih =>
    rw [List.map_cons, List.sum_cons, ih, List.map_cons, List.sum_cons, List.countP_cons, listings,
      List.countP_cons, ← listings]
    omega

/-- The counts of the batches add up to the numbers of times that the attempts are listed. -/
lemma sum_countP_inSlot (batches : List (List String)) (slot : Nat) (rows : List (AttemptRow ν)) :
    (batches.map fun batch => rows.countP (Tables.inSlot batch slot)).sum =
      (rows.map (listings batches slot)).sum := by
  induction batches with
  | nil =>
    have hnone : listings [] slot = fun _ : AttemptRow ν => 0 := rfl
    simp [hnone]
  | cons batch rest ih => rw [List.map_cons, List.sum_cons, ih, sum_listings_cons]

/-- The attempts in some list are those listed in a batch of it. -/
lemma listings_pos {batches : List (List String)} {slot : Nat} {a : AttemptRow ν} :
    0 < listings batches slot a ↔ Tables.inSlot batches.flatten slot a = true := by
  rw [listings, List.countP_pos_iff, Tables.inSlot_iff, List.mem_flatten]
  simp only [Tables.inSlot_iff]
  constructor
  · rintro ⟨batch, hbatch, hslot, hmem⟩
    exact ⟨hslot, batch, hbatch, hmem⟩
  · rintro ⟨hslot, batch, hbatch, hmem⟩
    exact ⟨batch, hbatch, hslot, hmem⟩

/-- In batches without repetitions an attempt is listed once at most. -/
lemma listings_le_one {batches : List (List String)} (h : batches.flatten.Nodup) (slot : Nat)
    (a : AttemptRow ν) : listings batches slot a ≤ 1 := by
  induction batches with
  | nil => exact Nat.zero_le 1
  | cons batch rest ih =>
    rw [List.flatten_cons, List.nodup_append] at h
    obtain ⟨-, hrest, hapart⟩ := h
    rw [listings, List.countP_cons, ← listings]
    split
    · rename_i hin
      have hzero : ¬0 < listings rest slot a := fun hpos =>
        hapart _ (Tables.inSlot_iff.1 hin).2 _ (Tables.inSlot_iff.1 (listings_pos.1 hpos)).2 rfl
      omega
    · exact ih hrest

/-- Numbers that are at least one add up to at least how many they are, and to just that if each is
one. -/
lemma length_le_sum {α : Type} {f : α → Nat} {xs : List α} (h : ∀ x ∈ xs, 1 ≤ f x) :
    xs.length ≤ (xs.map f).sum ∧ ((xs.map f).sum = xs.length ↔ ∀ x ∈ xs, f x = 1) := by
  induction xs with
  | nil => simp
  | cons x xs ih =>
    obtain ⟨hx, hxs⟩ := List.forall_mem_cons.1 h
    obtain ⟨hle, hiff⟩ := ih hxs
    rw [List.map_cons, List.sum_cons, List.length_cons, List.forall_mem_cons, ← hiff]
    omega

/-- Attempts that are not listed add nothing. -/
lemma sum_listings (batches : List (List String)) (slot : Nat) (rows : List (AttemptRow ν)) :
    (rows.map (listings batches slot)).sum =
      ((rows.filter (Tables.inSlot batches.flatten slot)).map (listings batches slot)).sum := by
  induction rows with
  | nil => rfl
  | cons a rows ih =>
    rw [List.map_cons, List.sum_cons, ih, List.filter_cons]
    split
    · rw [List.map_cons, List.sum_cons]
    · rename_i hnot
      have hzero : listings batches slot a = 0 :=
        Nat.eq_zero_of_not_pos fun hpos => hnot (listings_pos.1 hpos)
      rw [hzero, Nat.zero_add]

/-! ## All batches -/

variable [Scalar ν]

/-- A mark that is accepted is set in all batches. -/
lemma setMaxMarkAll_of_accepted (tables : Tables ν) (supply : Supply) (size : Nat)
    (ids : List String) (slot : Nat) {m : ν} (hmark : Scalar.isFinite m = true ∧ ¬m < 0.0) :
    let r := setMaxMarkAll size ids slot m ⟨.memory, tables, supply⟩
    r.result = .ok (tables.attempts.map (listings (batches size ids) slot)).sum ∧
      r.state = ⟨.memory, tables.setMaxMark ids slot m, supply⟩ := by
  intro r
  have haccepted : ¬(!Scalar.isFinite m || decide (m < 0.0)) = true := by
    simpa using hmark
  have hstart : (Op.pure 0 (⟨.memory, tables, supply⟩ : Store ν) : Run Failure _ Nat).result =
      .ok 0 := rfl
  obtain ⟨hresult, hstate⟩ := setMaxMark_batches slot m (batches size ids) hstart rfl
  simp only [r, setMaxMarkAll, if_neg haccepted]
  refine ⟨hresult.trans ?_, hstate.trans ?_⟩
  · rw [Nat.zero_add]
    exact congrArg Except.ok (sum_countP_inSlot _ slot tables.attempts)
  · rw [flatten_batches]
    rfl

/-- Whatever is stored: a mark that is a finite number and not negative is set in the rows of just the
attempts in the slot of the listed usages, which changes nothing else, whatever the size of the
batches.  The count has each of these attempts as often as there are batches that list its usage, so
it is their number if no usage is listed twice.  Any other mark is refused and nothing is changed. -/
theorem setMaxMarkAll_counts (tables : Tables ν) (supply : Supply) (size : Nat) (ids : List String)
    (slot : Nat) (m : ν) :
    let r := setMaxMarkAll size ids slot m ⟨.memory, tables, supply⟩
    let marked := tables.attempts.filter fun a => a.slot == slot && ids.contains a.usageId
    if Scalar.isFinite m = true ∧ ¬m < 0.0 then
      (∃ count, r.result = .ok count ∧
        count = (marked.map (listings (batches size ids) slot)).sum ∧ marked.length ≤ count ∧
        (count = marked.length ↔ ∀ a ∈ marked, listings (batches size ids) slot a = 1) ∧
        (ids.Nodup → count = marked.length)) ∧
      r.state = ⟨.memory, { tables with
        attempts := tables.attempts.map fun a =>
          if a.slot = slot ∧ a.usageId ∈ ids then { a with maxMark := m } else a }, supply⟩
    else
      r.result = .error (.ofText ("Max mark must be a non-negative number, got " ++ Scalar.plain m)) ∧
      r.state = ⟨.memory, tables, supply⟩ := by
  intro r marked
  split
  case isFalse hmark =>
    have hrefused : (!Scalar.isFinite m || decide (m < 0.0)) = true := by
      rw [Decidable.not_and_iff_not_or_not, Bool.not_eq_true, Decidable.not_not] at hmark
      simpa using hmark
    simp only [r, setMaxMarkAll, if_pos hrefused]
    exact ⟨rfl, rfl⟩
  case isTrue hmark =>
    obtain ⟨hresult, hstate⟩ := setMaxMarkAll_of_accepted tables supply size ids slot hmark
    have hmarked : tables.attempts.filter (Tables.inSlot (batches size ids).flatten slot) = marked := by
      rw [flatten_batches]
      rfl
    rw [sum_listings, hmarked] at hresult
    have hlisted : ∀ a ∈ marked, 1 ≤ listings (batches size ids) slot a := fun a ha =>
      listings_pos.2 (List.mem_filter.1 (hmarked ▸ ha)).2
    obtain ⟨hle, hiff⟩ := length_le_sum hlisted
    refine ⟨⟨_, hresult, rfl, hle, hiff, fun hids => hiff.2 fun a ha => ?_⟩, hstate.trans ?_⟩
    · have hnodup : (batches size ids).flatten.Nodup := by rwa [flatten_batches]
      exact Nat.le_antisymm (listings_le_one hnodup slot a) (hlisted a ha)
    · simp only [Tables.setMaxMark, Tables.inSlot_iff]

/-- One attempt is stored, and its usage is listed twice.  In one batch it is counted once, and in
two batches twice. -/
theorem setMaxMarkAll_counts_twice :
    let statement : Question (Exact .decimal) :=
      .trueFalse (TrueFalse.new "tf" "The sky is blue" true)
    let blank : Usage (Exact .decimal) := ⟨.ephemeral "s", "quiz", "course", "deferredfeedback",
      SortedMap.empty, Registry.standard, none⟩
    let started := (Usage.Operation.startAll ⟨0⟩ none fun _ => ⟨0, 0⟩).after
      ((Usage.Operation.add statement none).after blank)
    let saved := (save (started, empty .memory)).state
    let v := saved.1.id.text
    saved.2.tables.attempts.countP (Tables.inSlot [v, v] 1) = 1 ∧
    (setMaxMarkAll 2 [v, v] 1 5.0 saved.2).result = .ok 1 ∧
    (setMaxMarkAll 1 [v, v] 1 5.0 saved.2).result = .ok 2 := by
  decide +kernel

end Store
end Assessment
