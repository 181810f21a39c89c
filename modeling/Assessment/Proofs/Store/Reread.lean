import Assessment.Proofs.Store.Place
import Assessment.Proofs.Store.Renewal

/-!
# Loading what a regrade wrote

A load makes an attempt of each row of the usage, and of several rows in one slot the last one counts.
So the attempt in a slot follows from the last row in that slot (`Store.get?_of_load`), and what a
regrade does to the load follows from what it does to the last rows.  It puts the rows of the new
attempts at the end of the table, each in the slot of the row that it replaces.  The last row of
a slot is therefore the new one if there is one (`Store.Regrading.lastRow_started`), and otherwise
the row that it was (`Store.Regrading.lastRow_kept`), also where a slot has rows of more than one
attempt.

This needs that no two rows of attempts have the same id, which no save brings about
(`Store.Reached.nodup_attempts`).
-/

namespace Assessment

variable {ν : Type}

/-! ## Attempts of rows -/

/-- The questions that a bank gives. -/
def Bank.questions : Bank ν → SortedMap String (Question ν)
  | memory questions => questions
  | unreachable => SortedMap.empty

lemma Tables.questionOfRow_eq_ok_iff {σ : Type} {bank : Bank ν} {row : AttemptRow ν} {s : σ}
    {question : Question ν} : (questionOfRow bank row s).result = .ok question ↔
      bank.questions.get? row.questionId = some question := by
  cases bank with
  | unreachable => simp [questionOfRow, Op.mapFailure, Bank.question, Bank.questions, Except.mapError]
  | memory questions =>
    simp only [questionOfRow, Op.mapFailure, Bank.question, Bank.questions]
    cases questions.get? row.questionId <;> simp [Op.pure, Op.fail, Except.mapError]

/-- The attempt of a row, if its question is among some, with those of some steps that are its own. -/
def AttemptRow.make (questions : SortedMap String (Question ν)) (registry : Registry)
    (preferred : String) (steps : List (String × Step ν)) (row : AttemptRow ν) : Option (Attempt ν) :=
  (questions.get? row.questionId).map fun question =>
    Attempt.ofRow row question (registry.makeOrMissing row.behaviour preferred)
      ((steps.filter fun e => e.1 == row.id).map Prod.snd)

/-- What an attempt has of the row that it is made of. -/
lemma AttemptRow.of_make {questions : SortedMap String (Question ν)} {registry : Registry}
    {preferred : String} {steps : List (String × Step ν)} {row : AttemptRow ν} {a : Attempt ν}
    (h : row.make questions registry preferred steps = some a) :
    a.id = some row.id ∧ a.slot = row.slot ∧ a.flagged = row.flagged ∧ a.maxMark = row.maxMark ∧
      questions.get? row.questionId = some a.question ∧
      a.steps = (steps.filter fun e => e.1 == row.id).map Prod.snd := by
  obtain ⟨question, hquestion, rfl⟩ := Option.map_eq_some_iff.1 h
  exact ⟨rfl, rfl, rfl, rfl, hquestion, rfl⟩

/-- The attempt of a row in a usage that is loaded, which is told of its changes. -/
def AttemptRow.loaded (questions : SortedMap String (Question ν)) (registry : Registry)
    (preferred : String) (steps : List (String × Step ν)) (row : AttemptRow ν) : Option (Attempt ν) :=
  (row.make questions registry preferred steps).map fun a => a.observedBy .changes

lemma AttemptRow.loaded_eq_some_iff {questions : SortedMap String (Question ν)} {registry : Registry}
    {preferred : String} {steps : List (String × Step ν)} {row : AttemptRow ν} {a : Attempt ν} :
    row.loaded questions registry preferred steps = some a ↔
      ∃ question, questions.get? row.questionId = some question ∧
        (Attempt.ofRow row question (registry.makeOrMissing row.behaviour preferred)
          ((steps.filter fun e => e.1 == row.id).map Prod.snd)).observedBy .changes = a := by
  rw [loaded, make, Option.map_map, Option.map_eq_some_iff]
  rfl

lemma AttemptRow.of_loaded {questions : SortedMap String (Question ν)} {registry : Registry}
    {preferred : String} {steps : List (String × Step ν)} {row : AttemptRow ν} {a : Attempt ν}
    (h : row.loaded questions registry preferred steps = some a) :
    a.id = some row.id ∧ a.slot = row.slot ∧ a.flagged = row.flagged ∧ a.maxMark = row.maxMark ∧
      questions.get? row.questionId = some a.question ∧
      a.steps = (steps.filter fun e => e.1 == row.id).map Prod.snd := by
  obtain ⟨question, hquestion, rfl⟩ := loaded_eq_some_iff.1 h
  exact ⟨rfl, rfl, rfl, rfl, hquestion, rfl⟩

namespace Tables

/-- Making attempts of rows succeeds when each row makes one. -/
lemma attemptsOfRows_eq_ok_iff {σ : Type} (bank : Bank ν) (registry : Registry) (preferred : String)
    (steps : List (String × Step ν)) {rows : List (AttemptRow ν)}
    (hnodup : (rows.map AttemptRow.id).Nodup) (s : σ) {attempts : List (Attempt ν)} :
    (attemptsOfRows bank registry preferred steps rows s).result = .ok attempts ↔
      rows.map (AttemptRow.make bank.questions registry preferred steps) = attempts.map some := by
  -- the steps that earlier rows took are not those of later ones
  have key : ∀ (left : List (String × Step ν)) (s : σ) (attempts : List (Attempt ν)),
      (∀ r ∈ rows, (left.filter fun e => e.1 == r.id) = steps.filter fun e => e.1 == r.id) →
      ((attemptsOfRows bank registry preferred left rows s).result = .ok attempts ↔
        rows.map (AttemptRow.make bank.questions registry preferred steps) = attempts.map some) := by
    induction rows with
    | nil =>
      intro left s attempts _
      cases attempts <;> simp [attemptsOfRows]
    | cons row rest ih =>
      intro left s attempts hleft
      rw [List.map_cons, List.nodup_cons] at hnodup
      obtain ⟨hnot, hrest⟩ := hnodup
      have hothers : ∀ r ∈ rest, ((left.filter fun e => e.1 != row.id).filter fun e => e.1 == r.id) =
          steps.filter fun e => e.1 == r.id := by
        intro r hr
        have hne : r.id ≠ row.id := fun heq => hnot (List.mem_map.2 ⟨r, hr, heq⟩)
        rw [← hleft r (List.mem_cons_of_mem _ hr), List.filter_filter]
        refine List.filter_congr fun e _ => ?_
        by_cases he : e.1 = r.id
        · simp [he, hne]
        · simp [he]
      rw [attemptsOfRows, List.map_cons]
      cases hq : (questionOfRow bank row s).result with
      | error e =>
        have hnone : bank.questions.get? row.questionId = none := by
          by_contra hsome
          obtain ⟨question, hquestion⟩ := Option.ne_none_iff_exists'.1 hsome
          rw [questionOfRow_eq_ok_iff.2 hquestion] at hq
          cases hq
        rw [Op.bind_of_error hq]
        cases attempts <;> simp [AttemptRow.make, hnone]
      | ok question =>
        have hmake : row.make bank.questions registry preferred steps =
            some (Attempt.ofRow row question (registry.makeOrMissing row.behaviour preferred)
              ((left.filter fun e => e.1 == row.id).map Prod.snd)) := by
          rw [AttemptRow.make, questionOfRow_eq_ok_iff.1 hq, Option.map_some,
            hleft row List.mem_cons_self]
        rw [Op.bind_of_ok hq, hmake]
        have hmore := ih hrest (left.filter fun e => e.1 != row.id) (questionOfRow bank row s).state
        cases hr : (attemptsOfRows bank registry preferred (left.filter fun e => e.1 != row.id) rest
            (questionOfRow bank row s).state).result with
        | error e =>
          simp only [Op.bind_of_error hr]
          have hnot := fun others => (hmore others hothers).not.1 (by rw [hr]; simp)
          cases attempts with
          | nil => simp
          | cons a others => simp [hnot others]
        | ok made =>
          simp only [Op.bind_of_ok hr, Op.pure_apply, Except.ok.injEq]
          have hmade := (hmore made hothers).1 hr
          rw [hmade]
          cases attempts with
          | nil => simp
          | cons a others => simp [List.map_inj_right fun x y => Option.some.inj]
  exact key steps s attempts fun _ _ => rfl

end Tables

/-! ## The last row of a slot -/

/-- What is looked up in the map of a list is the last of the entries under the key. -/
lemma SortedMap.get?_ofList_map {ρ α : Type} (key : ρ → Nat) (value : ρ → α) (l : List ρ) (k : Nat) :
    (SortedMap.ofList (l.map fun r => (key r, value r))).get? k =
      ((l.filter fun r => key r == k).getLast?).map value := by
  induction l using List.reverseRecOn with
  | nil => rfl
  | append_singleton l r ih =>
    rw [List.map_append, List.map_singleton, ofList_append_singleton, get?_insert, ih,
      List.filter_append]
    by_cases hk : k = key r
    · simp [hk]
    · have hne : (key r == k) = false := by simpa using Ne.symm hk
      simp [hk, hne]

/-- The last row in a slot. -/
def lastRow (rows : List (AttemptRow ν)) (slot : Nat) : Option (AttemptRow ν) :=
  (rows.filter fun r => r.slot == slot).getLast?

lemma of_lastRow {rows : List (AttemptRow ν)} {slot : Nat} {r : AttemptRow ν}
    (h : lastRow rows slot = some r) : r ∈ rows ∧ r.slot = slot := by
  simpa using List.mem_filter.1 (List.mem_of_getLast? h)

lemma exists_lastRow {rows : List (AttemptRow ν)} {r : AttemptRow ν} (h : r ∈ rows) :
    ∃ r', lastRow rows r.slot = some r' := by
  have hne : (rows.filter fun r' => r'.slot == r.slot) ≠ [] :=
    List.ne_nil_of_mem (List.mem_filter.2 ⟨h, by simp⟩)
  exact ⟨_, List.getLast?_eq_some_getLast hne⟩

lemma lastRow_append (rows rows' : List (AttemptRow ν)) (slot : Nat) :
    lastRow (rows ++ rows') slot = (lastRow rows' slot).or (lastRow rows slot) := by
  rw [lastRow, List.filter_append, List.getLast?_append]
  rfl

/-- The last row stays the last one when others are left out. -/
lemma lastRow_filter {rows : List (AttemptRow ν)} {slot : Nat} {p : AttemptRow ν → Bool}
    (h : ∀ r, lastRow rows slot = some r → p r = true) :
    lastRow (rows.filter p) slot = lastRow rows slot := by
  unfold lastRow at h ⊢
  rw [List.filter_comm]
  generalize (rows.filter fun r => r.slot == slot) = l at h
  induction l using List.reverseRecOn with
  | nil => rfl
  | append_singleton l r _ =>
    have hr := h r (by simp)
    simp [List.filter_append, hr]

/-! ## Assembled usages -/

namespace Usage

variable {σ : Type} {row : UsageRow} {attempts : List (AttemptRow ν)} {steps : List (StepRow ν)}
  {vars : List VarRow} {bank : Bank ν} {registry : Registry}

/-- Assembling succeeds when each row of an attempt makes one. -/
lemma assemble_eq_ok_iff (hnodup : (attempts.map AttemptRow.id).Nodup) {s : σ} {u : Usage ν} :
    (assemble row attempts steps vars bank registry s).result = .ok u ↔ ∃ made,
      attempts.map (AttemptRow.make bank.questions registry row.preferred
        (Tables.orderedSteps steps vars)) = made.map some ∧ u = restore row made registry true := by
  have hmade : ∀ {made}, (Tables.attemptsOfRows bank registry row.preferred
      (Tables.orderedSteps steps vars) attempts s).result = .ok made ↔ _ :=
    Tables.attemptsOfRows_eq_ok_iff bank registry row.preferred _ hnodup s
  unfold assemble
  cases hr : (Tables.attemptsOfRows bank registry row.preferred (Tables.orderedSteps steps vars)
      attempts s).result with
  | error e =>
    rw [Op.bind_of_error hr]
    constructor
    · intro h
      cases h
    · rintro ⟨made, hmake, -⟩
      rw [hmade.2 hmake] at hr
      cases hr
  | ok made =>
    rw [Op.bind_of_ok hr]
    constructor
    · intro h
      cases h
      exact ⟨made, hmade.1 hr, rfl⟩
    · rintro ⟨made', hmake, rfl⟩
      obtain rfl := Except.ok.inj (hr.symm.trans (hmade.2 hmake))
      rfl

/-- The attempt in a slot is made of the last row there. -/
lemma get?_restore {made : List (Attempt ν)} {stored : List (String × Assessment.Step ν)}
    (h : attempts.map (AttemptRow.make bank.questions registry row.preferred stored) =
      made.map some) (slot : Nat) :
    ((restore row made registry true).attempts.get? slot).map some = (lastRow attempts slot).map
      (AttemptRow.loaded bank.questions registry row.preferred stored) := by
  have hslots : ∀ r ∈ attempts, ((r.make bank.questions registry row.preferred stored).elim 0
      Attempt.slot) = r.slot := by
    intro r hr
    have hmem := List.mem_map_of_mem (f := AttemptRow.make bank.questions registry row.preferred
      stored) hr
    rw [h] at hmem
    obtain ⟨a, -, ha⟩ := List.mem_map.1 hmem
    obtain ⟨-, hslot, -⟩ := AttemptRow.of_make ha.symm
    rw [← ha, Option.elim_some, hslot]
  have hentries : (made.map fun a => (a.slot, some a)) = attempts.map fun r =>
      (r.slot, r.make bank.questions registry row.preferred stored) := by
    calc (made.map fun a => (a.slot, some a))
        = (made.map some).map fun x => (x.elim 0 Attempt.slot, x) := by
          rw [List.map_map]
          rfl
      _ = _ := by
        rw [← h, List.map_map]
        exact List.map_congr_left fun r hr => Prod.ext (hslots r hr) rfl
  have hlast : ((SortedMap.ofList (made.map fun a => (a.slot, a))).get? slot).map some =
      (lastRow attempts slot).map (AttemptRow.make bank.questions registry row.preferred stored) := by
    rw [← SortedMap.get?_map, SortedMap.map_ofList, List.map_map]
    exact (congrArg (fun l => (SortedMap.ofList l).get? slot) hentries).trans
      (SortedMap.get?_ofList_map ..)
  calc ((restore row made registry true).attempts.get? slot).map some
      = (((SortedMap.ofList (made.map fun a => (a.slot, a))).get? slot).map some).map
          (Option.map fun a => a.observedBy .changes) := by
        rw [attempts_restore, Option.map_map, Option.map_map]
        rfl
    _ = _ := by
        rw [hlast, Option.map_map]
        rfl

end Usage

/-- Values that are all there. -/
lemma exists_map_some {α β : Type} {f : α → Option β} {l : List α}
    (h : ∀ a ∈ l, ∃ b, f a = some b) : ∃ values : List β, l.map f = values.map some := by
  induction l with
  | nil => exact ⟨[], rfl⟩
  | cons a rest ih =>
    obtain ⟨b, hb⟩ := h a List.mem_cons_self
    obtain ⟨values, hvalues⟩ := ih fun a ha => h a (List.mem_cons_of_mem _ ha)
    exact ⟨b :: values, by rw [List.map_cons, List.map_cons, hb, hvalues]⟩

namespace Store

/-- The rows of the attempts of a usage. -/
def rowsFor (s : Store ν) (usageId : String) : List (AttemptRow ν) :=
  s.tables.attempts.filter fun r => r.usageId == usageId

/-- The steps that a load finds for a usage. -/
def stepsFor (s : Store ν) (usageId : String) : List (String × Step ν) :=
  let rows := s.tables.rowsOf ⟨usageId, "", "", ""⟩
  Tables.orderedSteps rows.steps rows.vars

variable {s : Store ν} {usageId : String} {bank : Bank ν} {registry : Registry}

/-- A load succeeds when the usage has a row and each row of an attempt makes one. -/
lemma load_eq_ok_iff (hnodup : (s.tables.attempts.map AttemptRow.id).Nodup) {u : Usage ν} :
    (load usageId bank registry s).result = .ok u ↔
      s.backend = .memory ∧
      ∃ row, (s.tables.usages.find? fun row => row.id == usageId) = some row ∧ ∃ attempts,
        (s.rowsFor usageId).map (AttemptRow.make bank.questions registry row.preferred
          (s.stepsFor usageId)) = attempts.map some ∧
        u = Usage.restore row attempts registry true := by
  unfold load
  cases hbackend : s.backend with
  | unreachable => simp [unreached]
  | memory =>
    simp only [true_and]
    cases hrow : s.tables.usages.find? fun row => row.id == usageId with
    | none => simp
    | some row =>
      obtain rfl : row.id = usageId := by simpa using List.find?_some hrow
      have hdistinct : ((s.rowsFor row.id).map AttemptRow.id).Nodup :=
        hnodup.sublist (List.filter_sublist.map AttemptRow.id)
      refine (Usage.assemble_eq_ok_iff hdistinct).trans ⟨fun h => ⟨row, rfl, h⟩, ?_⟩
      rintro ⟨row', hrow', h⟩
      obtain rfl := Option.some.inj hrow'
      exact h

/-- The attempt in a slot is made of the last row there. -/
lemma get?_of_load (hnodup : (s.tables.attempts.map AttemptRow.id).Nodup) {u : Usage ν}
    (h : (load usageId bank registry s).result = .ok u) (slot : Nat) :
    (u.attempts.get? slot).map some = (lastRow (s.rowsFor usageId) slot).map
      (AttemptRow.loaded bank.questions registry u.preferred (s.stepsFor usageId)) := by
  obtain ⟨-, row, -, attempts, hattempts, rfl⟩ := (load_eq_ok_iff hnodup).1 h
  exact Usage.get?_restore hattempts slot

/-- A load that succeeds finds the questions of all rows. -/
lemma exists_question_of_load (hnodup : (s.tables.attempts.map AttemptRow.id).Nodup) {u : Usage ν}
    (h : (load usageId bank registry s).result = .ok u) {r : AttemptRow ν}
    (hr : r ∈ s.rowsFor usageId) :
    ∃ question, bank.questions.get? r.questionId = some question := by
  obtain ⟨-, row, -, attempts, hattempts, -⟩ := (load_eq_ok_iff hnodup).1 h
  have hmem := List.mem_map_of_mem (f := AttemptRow.make bank.questions registry row.preferred
    (s.stepsFor usageId)) hr
  rw [hattempts] at hmem
  obtain ⟨a, -, ha⟩ := List.mem_map.1 hmem
  obtain ⟨-, -, -, -, hquestion, -⟩ := AttemptRow.of_make ha.symm
  exact ⟨a.question, hquestion⟩

/-- A load succeeds when the usage has a row and the questions of all rows are in the bank. -/
lemma exists_load_of_questions (hnodup : (s.tables.attempts.map AttemptRow.id).Nodup)
    (hbackend : s.backend = .memory) {row : UsageRow}
    (hrow : (s.tables.usages.find? fun row => row.id == usageId) = some row)
    (hbank : ∀ r ∈ s.rowsFor usageId,
      ∃ question, bank.questions.get? r.questionId = some question) (registry : Registry) :
    ∃ u, (load usageId bank registry s).result = .ok u := by
  obtain ⟨made, hmade⟩ : ∃ made : List (Attempt ν), (s.rowsFor usageId).map
      (AttemptRow.make bank.questions registry row.preferred (s.stepsFor usageId)) =
        made.map some := by
    refine exists_map_some fun r hr => ?_
    obtain ⟨question, hquestion⟩ := hbank r hr
    exact ⟨_, by rw [AttemptRow.make, hquestion]; rfl⟩
  exact ⟨_, (load_eq_ok_iff hnodup).2 ⟨hbackend, row, hrow, made, hmade, rfl⟩⟩

/-- An attempt that is loaded was made of the last row in its slot. -/
lemma exists_row_of_load (hnodup : (s.tables.attempts.map AttemptRow.id).Nodup) {u : Usage ν}
    (h : (load usageId bank registry s).result = .ok u) {slot : Nat} {a : Attempt ν}
    (ha : u.attempts.get? slot = some a) : ∃ r, lastRow (s.rowsFor usageId) slot = some r ∧
      r.loaded bank.questions registry u.preferred (s.stepsFor usageId) = some a := by
  have hrow := get?_of_load hnodup h slot
  rw [ha, Option.map_some] at hrow
  exact Option.map_eq_some_iff.1 hrow.symm

/-- Attempts that are loaded into different slots have different ids. -/
lemma slot_eq_of_load (hnodup : (s.tables.attempts.map AttemptRow.id).Nodup) {u : Usage ν}
    (h : (load usageId bank registry s).result = .ok u) {slot slot' : Nat} {a a' : Attempt ν}
    (ha : u.attempts.get? slot = some a) (ha' : u.attempts.get? slot' = some a')
    (hid : a'.id = a.id) : slot' = slot := by
  obtain ⟨r, hr, hmake⟩ := exists_row_of_load hnodup h ha
  obtain ⟨r', hr', hmake'⟩ := exists_row_of_load hnodup h ha'
  obtain ⟨hmem, hslot⟩ := of_lastRow hr
  obtain ⟨hmem', hslot'⟩ := of_lastRow hr'
  obtain ⟨hrid, -⟩ := AttemptRow.of_loaded hmake
  obtain ⟨hrid', -⟩ := AttemptRow.of_loaded hmake'
  have hsame : r'.id = r.id := by
    rw [hrid, hrid'] at hid
    exact Option.some.inj hid
  obtain rfl : r' = r := List.inj_on_of_nodup_map hnodup (List.mem_filter.1 hmem').1
    (List.mem_filter.1 hmem).1 hsame
  exact hslot'.symm.trans hslot

end Store

/-! ## Ids of rows -/

namespace Tables

/-- Replacing rows one after the other by ones with different ids. -/
lemma foldl_replaceRow_eq {ρ : Type} (id : ρ → String) (rows : List ρ) {l : List ρ}
    (h : (l.map id).Nodup) :
    l.foldl (replaceRow id) rows = (rows.filter fun r => !(l.map id).contains (id r)) ++ l := by
  induction l using List.reverseRecOn with
  | nil => simp
  | append_singleton l row ih =>
    rw [List.map_append, List.map_singleton, List.nodup_append] at h
    obtain ⟨hl, -, hapart⟩ := h
    have hkept : (l.filter fun r => id r != id row) = l :=
      List.filter_eq_self.2 fun r hr => bne_iff_ne.2
        (hapart (id r) (List.mem_map_of_mem hr) (id row) List.mem_cons_self)
    rw [List.foldl_append, List.foldl_cons, List.foldl_nil, ih hl, replaceRow, List.filter_append,
      hkept, List.filter_filter, List.append_assoc]
    congr 1
    refine List.filter_congr fun r _ => ?_
    rw [Bool.eq_iff_iff]
    simp [and_comm, not_or]

lemma nodup_foldl_replaceRow {ρ : Type} {id : ρ → String} {rows : List ρ} (h : (rows.map id).Nodup)
    (l : List ρ) : ((l.foldl (replaceRow id) rows).map id).Nodup := by
  induction l using List.reverseRecOn with
  | nil => exact h
  | append_singleton l row ih =>
    rw [List.foldl_append, List.foldl_cons, List.foldl_nil, replaceRow, List.map_append,
      List.map_singleton, List.nodup_append]
    refine ⟨ih.sublist (List.filter_sublist.map id), List.nodup_singleton _, fun x hx y hy heq => ?_⟩
    obtain ⟨r, hr, rfl⟩ := List.mem_map.1 hx
    obtain ⟨-, hne⟩ := List.mem_filter.1 hr
    simp [heq, List.mem_singleton.1 hy] at hne

end Tables

/-- No two rows of attempts have the same id. -/
theorem Store.Reached.nodup_attempts [Scalar ν] {s : Store ν} {us : List (Usage ν)}
    (h : Reached s us) : (s.tables.attempts.map AttemptRow.id).Nodup := by
  induction h with
  | empty => exact List.nodup_nil
  | make _ _ ih => exact ih
  | load _ _ ih => exact ih
  | operation _ _ _ ih => exact ih
  | @save s us h u hu ih =>
    obtain ⟨owner, hs, -⟩ := h.owned
    obtain ⟨e, -, -, hstate⟩ | ⟨plan, -, -, hstate⟩ := Usage.save_cases (u := u) hs.backend
    · rw [hstate]
      exact ih
    · rw [hstate, Tables.attempts_apply]
      exact Tables.nodup_foldl_replaceRow ih _
  | prepare _ _ ih => exact ih
  | abort _ _ _ ih => exact ih
  | delete h uid ih =>
    obtain ⟨owner, hs, -⟩ := h.owned
    rw [(hs.delete uid).1]
    exact ih.sublist (List.filter_sublist.map AttemptRow.id)
  | setMaxMark h ids slot m ih =>
    obtain ⟨owner, hs, -⟩ := h.owned
    rw [(hs.setMaxMark ids slot m).1]
    have hids : ∀ r : AttemptRow ν,
        (if Tables.inSlot ids slot r then { r with maxMark := m } else r).id = r.id := fun r => by
      split <;> rfl
    simpa [Tables.setMaxMark, Function.comp_def, hids] using ih

/-! ## Regraded rows -/

/-- The rows that are written of a usage are those of its started attempts. -/
lemma Usage.mem_rows_started {w : Usage ν} {r : AttemptRow ν} :
    r ∈ w.started.filterMap Attempt.row? ↔
      ∃ slot a, w.attempts.get? slot = some a ∧ a.steps ≠ [] ∧ a.toRow a.question.id = .ok r := by
  rw [List.mem_filterMap]
  constructor
  · rintro ⟨a, ha, hrow⟩
    obtain ⟨slot, ha, hsteps⟩ := mem_started.1 ha
    exact ⟨slot, a, ha, hsteps, Attempt.row?_eq_some_iff.1 hrow⟩
  · rintro ⟨slot, a, ha, hsteps, hrow⟩
    exact ⟨a, mem_started.2 ⟨slot, ha, hsteps⟩, Attempt.row?_eq_some_iff.2 hrow⟩

/-- Attempts with different ids have rows with different ids. -/
lemma Attempt.nodup_rows {attempts : List (Attempt ν)} (h : (attempts.map Attempt.id).Nodup) :
    ((attempts.filterMap row?).map AttemptRow.id).Nodup := by
  rw [List.Nodup, List.pairwise_map] at h ⊢
  rw [List.pairwise_filterMap]
  refine h.imp fun {a a'} hne row hrow row' hrow' heq => hne ?_
  rw [id_of_toRow (row?_eq_some_iff.1 hrow), id_of_toRow (row?_eq_some_iff.1 hrow'), heq]

/-- A usage that is loaded from a store and regraded. -/
structure Store.Regrading [Scalar ν] (s : Store ν) (usageId : String) (bank : Bank ν)
    (registry : Registry) (u w : Usage ν) : Prop where
  nodup : (s.tables.attempts.map AttemptRow.id).Nodup
  load : (Store.load usageId bank registry s).result = .ok u
  renewed : w.Renewed
  id : w.id = .stored usageId
  sound : w.Sound
  samePlace : u.attempts.Matches Attempt.SamePlace w.attempts

namespace Store.Regrading

variable [Scalar ν] {s : Store ν} {usageId : String} {bank : Bank ν} {registry : Registry}
  {u w : Usage ν}

/-- An attempt is in the place of one that was made of a last row. -/
lemma exists_row (h : s.Regrading usageId bank registry u w) {slot : Nat} {a : Attempt ν}
    (ha : w.attempts.get? slot = some a) :
    ∃ old r, u.attempts.get? slot = some old ∧ old.SamePlace a ∧
      lastRow (s.rowsFor usageId) slot = some r ∧
      r.loaded bank.questions registry u.preferred (s.stepsFor usageId) = some old := by
  obtain ⟨old, hold, hplace⟩ := h.samePlace.of_get?_eq_some ha
  obtain ⟨r, hr, hmake⟩ := exists_row_of_load h.nodup h.load hold
  exact ⟨old, r, hold, hplace, hr, hmake⟩

/-- Attempts in different slots have different ids. -/
lemma slot_eq (h : s.Regrading usageId bank registry u w) {slot slot' : Nat} {a a' : Attempt ν}
    (ha : w.attempts.get? slot = some a) (ha' : w.attempts.get? slot' = some a')
    (hid : a'.id = a.id) : slot' = slot := by
  obtain ⟨old, hold, hplace⟩ := h.samePlace.of_get?_eq_some ha
  obtain ⟨old', hold', hplace'⟩ := h.samePlace.of_get?_eq_some ha'
  exact slot_eq_of_load h.nodup h.load hold hold' (hplace'.id.symm.trans (hid.trans hplace.id))

lemma nodup_ids (h : s.Regrading usageId bank registry u w) : (w.started.map Attempt.id).Nodup := by
  rw [← Usage.filterMap_started?, List.map_filterMap]
  refine List.Nodup.filterMap (fun slot slot' id hid hid' => ?_) w.attempts.nodup_keys
  obtain ⟨a, ha, rfl⟩ := Option.map_eq_some_iff.1 hid
  obtain ⟨a', ha', hsame⟩ := Option.map_eq_some_iff.1 hid'
  exact h.slot_eq (Usage.started?_eq_some_iff.1 ha').1 (Usage.started?_eq_some_iff.1 ha).1
    hsame.symm

lemma nodup_rows (h : s.Regrading usageId bank registry u w) :
    ((w.started.filterMap Attempt.row?).map AttemptRow.id).Nodup :=
  Attempt.nodup_rows h.nodup_ids

/-- The rows of the usage afterwards: those that are not replaced, and the new ones. -/
lemma rowsFor_renew (h : s.Regrading usageId bank registry u w) :
    (s.renew w.started).rowsFor usageId =
      ((s.rowsFor usageId).filter fun r =>
        !((w.started.filterMap Attempt.row?).map AttemptRow.id).contains r.id) ++
      w.started.filterMap Attempt.row? := by
  have hown : (w.started.filterMap Attempt.row?).filter (fun r => r.usageId == usageId) =
      w.started.filterMap Attempt.row? := by
    refine List.filter_eq_self.2 fun r hr => ?_
    obtain ⟨slot, a, ha, -, hrow⟩ := Usage.mem_rows_started.1 hr
    rw [Attempt.usageId_of_toRow hrow, h.sound.usageId ha, h.id]
    exact beq_self_eq_true usageId
  rw [rowsFor, attempts_renew, Tables.foldl_replaceRow_eq _ _ h.nodup_rows, List.filter_append, hown,
    List.filter_comm]
  rfl

/-- In the slot of a started attempt its row is the last one. -/
lemma lastRow_started (h : s.Regrading usageId bank registry u w) {slot : Nat} {a : Attempt ν}
    (ha : w.attempts.get? slot = some a) (hsteps : a.steps ≠ []) {row : AttemptRow ν}
    (hrow : a.toRow a.question.id = .ok row) :
    lastRow ((s.renew w.started).rowsFor usageId) slot = some row := by
  have hslot : row.slot = slot := (Attempt.slot_of_toRow hrow).trans (h.sound.slot ha)
  obtain ⟨r, hr⟩ := exists_lastRow (Usage.mem_rows_started.2 ⟨slot, a, ha, hsteps, hrow⟩)
  obtain ⟨hmem, hrslot⟩ := of_lastRow hr
  obtain ⟨slot', a', ha', -, hrow'⟩ := Usage.mem_rows_started.1 hmem
  obtain rfl : slot' = slot := by
    rw [← hslot, ← hrslot, Attempt.slot_of_toRow hrow', h.sound.slot ha']
  obtain rfl := Option.some.inj (ha.symm.trans ha')
  obtain rfl := Except.ok.inj (hrow.symm.trans hrow')
  rw [h.rowsFor_renew, lastRow_append, ← hslot, hr, Option.some_or]

/-- In any other slot the last row stays. -/
lemma lastRow_kept (h : s.Regrading usageId bank registry u w) (slot : Nat)
    (hsteps : ∀ a, w.attempts.get? slot = some a → a.steps = []) :
    lastRow ((s.renew w.started).rowsFor usageId) slot = lastRow (s.rowsFor usageId) slot := by
  have hnone : lastRow (w.started.filterMap Attempt.row?) slot = none := by
    by_contra hsome
    obtain ⟨r, hr⟩ := Option.ne_none_iff_exists'.1 hsome
    obtain ⟨hmem, hslot⟩ := of_lastRow hr
    obtain ⟨slot', a, ha, hne, hrow⟩ := Usage.mem_rows_started.1 hmem
    obtain rfl : slot' = slot := by
      rw [← hslot, Attempt.slot_of_toRow hrow, h.sound.slot ha]
    exact hne (hsteps a ha)
  rw [h.rowsFor_renew, lastRow_append, hnone, Option.none_or]
  refine lastRow_filter fun r hr => ?_
  -- the row is none of those that are replaced, which are in other slots
  rw [Bool.not_eq_true', ← Bool.not_eq_true, List.contains_iff_mem]
  intro hmem
  obtain ⟨row, hmem, hid⟩ := List.mem_map.1 hmem
  obtain ⟨slot', a', ha', hne, hrow⟩ := Usage.mem_rows_started.1 hmem
  have hmade := get?_of_load h.nodup h.load slot
  rw [hr, Option.map_some] at hmade
  obtain ⟨old, hold, hmake⟩ := Option.map_eq_some_iff.1 hmade
  obtain ⟨a, ha, hplace⟩ := h.samePlace.get?_eq_some hold
  obtain ⟨hrid, -⟩ := AttemptRow.of_loaded hmake.symm
  have hsame : a'.id = a.id := by rw [Attempt.id_of_toRow hrow, hplace.id, hrid, hid]
  obtain rfl := h.slot_eq ha ha' hsame
  exact hne (hsteps a' ha')

/-! ## Regraded steps -/

end Store.Regrading

/-- A step without its id and its variables. -/
def Step.bare (step : Step ν) : Step ν :=
  { step with id := none, vars := SortedMap.empty, readOnly := true }

namespace Tables

/-- But for variables a step is made of its row, whatever rows there are. -/
lemma map_bare_stepsOfRows (vars : SortedMap String Vars) (rows : List (StepRow ν)) :
    ((stepsOfRows vars rows).map fun e => (e.1, e.2.bare)) =
      rows.map fun r => (r.attemptId, (Step.ofRow r SortedMap.empty).bare) := by
  induction rows generalizing vars with
  | nil => rfl
  | cons row rest ih =>
    rw [stepsOfRows, List.map_cons, List.map_cons, ih]
    rfl

lemma map_bare_orderedSteps {steps : List (StepRow ν)} (vars : List VarRow) {id : String}
    (hsorted : (steps.filter fun r => r.attemptId == id).Pairwise fun r r' => r.index ≤ r'.index) :
    (((orderedSteps steps vars).filter fun e => e.1 == id).map fun e => e.2.bare) =
      (steps.filter fun r => r.attemptId == id).map fun r =>
        (Step.ofRow r SortedMap.empty).bare := by
  have hpairs : (((orderedSteps steps vars).filter fun e => e.1 == id).map fun e => e.2.bare) =
      (((orderedSteps steps vars).map fun e => (e.1, e.2.bare)).filter fun e => e.1 == id).map
        Prod.snd := by
    rw [List.filter_map, List.map_map]
    rfl
  rw [hpairs, orderedSteps, map_bare_stepsOfRows, List.filter_map, List.map_map,
    ← filter_mergeSort hsorted]
  rfl

end Tables

namespace LooseStep

lemma map_bare_rows (id : String) (supply : Supply) (place : Nat) (steps : List (Step ν)) :
    ((rows supply ((steps.zipIdx place).map fun e => ⟨id, e.2, e.1⟩)).map fun r =>
      (Step.ofRow r SortedMap.empty).bare) = steps.map Step.bare := by
  induction steps generalizing supply place with
  | nil => rfl
  | cons step rest ih =>
    rw [List.map_cons, ← ih supply.next (place + 1)]
    rfl

/-- Steps of other attempts have other rows. -/
lemma filter_rows_of_ne {id : String} {steps : List (LooseStep ν)}
    (h : ∀ e ∈ steps, e.attemptId ≠ id) (supply : Supply) :
    (rows supply steps).filter (fun r => r.attemptId == id) = [] := by
  rw [List.filter_eq_nil_iff]
  intro r hr
  obtain ⟨e, he, rfl⟩ := List.mem_map.1 hr
  simpa [Attempt.stepRow] using h e.1 (List.fst_mem_of_mem_zipIdx he)

end LooseStep

lemma Attempt.mem_loose {a : Attempt ν} {e : LooseStep ν} (h : e ∈ a.loose) :
    a.id = some e.attemptId := by
  unfold loose at h
  cases hid : a.id with
  | none => simp [hid] at h
  | some id =>
    rw [hid, Option.elim_some] at h
    obtain ⟨_, -, rfl⟩ := List.mem_map.1 h
    rfl

namespace Store.Regrading

variable [Scalar ν] {s : Store ν} {usageId : String} {bank : Bank ν} {registry : Registry}
  {u w : Usage ν}

/-- The steps of a started attempt are in the tables afterwards, and no others of it. -/
lemma stepsOf_renew (h : s.Regrading usageId bank registry u w) {slot : Nat} {a : Attempt ν}
    (ha : w.attempts.get? slot = some a) (hsteps : a.steps ≠ []) {id : String}
    (hid : a.id = some id) :
    ∃ supply, (s.renew w.started).tables.stepsOf id = LooseStep.rows supply a.loose := by
  have hmem : a ∈ w.started := Usage.mem_started.2 ⟨slot, ha, hsteps⟩
  have hcleared : ((s.tables.clearSteps (w.started.filterMap Attempt.id)).steps.filter
      fun r => r.attemptId == id) = [] := by
    rw [Tables.steps_clearSteps, List.filter_filter, List.filter_eq_nil_iff]
    intro r hr
    by_cases hattempt : r.attemptId = id
    · have hclears : s.tables.clears (w.started.filterMap Attempt.id) r.id = true :=
        Tables.clears_iff.2 ⟨r, hr, List.mem_filterMap.2 ⟨a, hmem, hattempt ▸ hid⟩, rfl⟩
      simp [hclears]
    · simp [hattempt]
  obtain ⟨before, after, hsplit⟩ := List.append_of_mem hmem
  have hnodup := h.nodup_ids
  rw [hsplit, List.map_append, List.map_cons, List.nodup_append, List.nodup_cons] at hnodup
  obtain ⟨-, ⟨hafter, -⟩, hbefore⟩ := hnodup
  have hown : (LooseStep.rows (s.supply.skip (before.flatMap Attempt.loose).length)
      a.loose).filter (fun r => r.attemptId == id) =
      LooseStep.rows (s.supply.skip (before.flatMap Attempt.loose).length) a.loose := by
    refine List.filter_eq_self.2 fun r hr => ?_
    obtain ⟨e, he, rfl⟩ := List.mem_map.1 hr
    have hattempt := Attempt.mem_loose (List.fst_mem_of_mem_zipIdx he)
    rw [hid] at hattempt
    exact beq_iff_eq.2 (Option.some.inj hattempt).symm
  have hothers : ∀ others : List (Attempt ν), (∀ b ∈ others, b.id ≠ a.id) →
      ∀ e ∈ others.flatMap Attempt.loose, e.attemptId ≠ id := by
    rintro others hne e he rfl
    obtain ⟨b, hb, he⟩ := List.mem_flatMap.1 he
    exact hne b hb ((Attempt.mem_loose he).trans hid.symm)
  have hfirst := hothers before fun b hb =>
    hbefore b.id (List.mem_map_of_mem hb) a.id List.mem_cons_self
  have hlast := hothers after fun b hb heq => hafter (heq ▸ List.mem_map_of_mem hb)
  refine ⟨s.supply.skip (before.flatMap Attempt.loose).length, ?_⟩
  rw [Tables.stepsOf, steps_renew, List.filter_append, hcleared, List.nil_append, hsplit, List.flatMap_append, List.flatMap_cons,
    LooseStep.rows_append, LooseStep.rows_append, List.filter_append, List.filter_append, hown,
    LooseStep.filter_rows_of_ne hfirst, LooseStep.filter_rows_of_ne hlast, List.nil_append,
    List.append_nil]

/-- A load finds the steps of a started attempt afterwards, in their order. -/
lemma stepsFor_renew (h : s.Regrading usageId bank registry u w) {slot : Nat} {a : Attempt ν}
    (ha : w.attempts.get? slot = some a) (hsteps : a.steps ≠ []) {row : AttemptRow ν}
    (hrow : a.toRow a.question.id = .ok row) :
    ((((s.renew w.started).stepsFor usageId).filter fun e => e.1 == row.id).map
      fun e => e.2.bare) = a.steps.map Step.bare := by
  have hid := Attempt.id_of_toRow hrow
  obtain ⟨supply, hstored⟩ := h.stepsOf_renew ha hsteps hid
  have hloose : a.loose = a.steps.zipIdx.map fun e => ⟨row.id, e.2, e.1⟩ := by
    rw [Attempt.loose, hid, Option.elim_some]
  obtain ⟨hmem, -⟩ := of_lastRow (h.lastRow_started ha hsteps hrow)
  obtain ⟨hmem, husage⟩ := List.mem_filter.1 hmem
  have hrows : ((s.renew w.started).tables.rowsOf ⟨usageId, "", "", ""⟩).stepsOf row.id =
      LooseStep.rows supply a.loose := by
    rw [Tables.stepsOf_rowsOf hmem (beq_iff_eq.1 husage), hstored]
  have hsorted : (LooseStep.rows supply a.loose).Pairwise fun r r' => r.index ≤ r'.index := by
    rw [hloose, Attempt.rows_loose, List.pairwise_map]
    exact Attempt.pairwise_withIds 0 _
  rw [← hrows] at hsorted
  rw [stepsFor, Tables.map_bare_orderedSteps _ hsorted]
  show List.map _ (((s.renew w.started).tables.rowsOf ⟨usageId, "", "", ""⟩).stepsOf row.id) = _
  rw [hrows, hloose, LooseStep.map_bare_rows]

end Store.Regrading

/-! ## Regraded usages -/

lemma Bank.IsKeyed.id_of_questions {bank : Bank ν} (h : bank.IsKeyed) {id : String}
    {question : Question ν} (hquestion : bank.questions.get? id = some question) :
    question.id = id := by
  cases bank with
  | memory questions => exact h id question hquestion
  | unreachable => simp [questions] at hquestion

namespace Store.Regrading

variable [Scalar ν] {s : Store ν} {usageId : String} {bank : Bank ν} {registry : Registry}
  {u w : Usage ν}

/-- The questions of all rows are in the bank afterwards. -/
lemma exists_question (h : s.Regrading usageId bank registry u w) (hbank : bank.IsKeyed) :
    ∀ r ∈ (s.renew w.started).rowsFor usageId,
      ∃ question, bank.questions.get? r.questionId = some question := by
  intro r hr
  rw [h.rowsFor_renew, List.mem_append] at hr
  obtain hr | hr := hr
  · exact exists_question_of_load h.nodup h.load (List.mem_filter.1 hr).1
  · obtain ⟨slot, a, ha, -, hrow⟩ := Usage.mem_rows_started.1 hr
    obtain ⟨old, r', -, hplace, -, hmake⟩ := h.exists_row ha
    obtain ⟨-, -, -, -, hquestion, -⟩ := AttemptRow.of_loaded hmake
    obtain ⟨_, _, _, -, -, -, -, hfields⟩ := Attempt.of_toRow hrow
    refine ⟨old.question, ?_⟩
    rw [hfields, hplace.question, hbank.id_of_questions hquestion]
    exact hquestion

/-- No two rows of attempts have the same id afterwards. -/
lemma nodup_renew (h : s.Regrading usageId bank registry u w) :
    ((s.renew w.started).tables.attempts.map AttemptRow.id).Nodup := by
  rw [attempts_renew]
  exact Tables.nodup_foldl_replaceRow h.nodup _

lemma exists_load (h : s.Regrading usageId bank registry u w) (hbank : bank.IsKeyed) :
    ∃ v, (Store.load usageId bank registry (s.renew w.started)).result = .ok v := by
  obtain ⟨hbackend, row, hrow, -⟩ := (load_eq_ok_iff h.nodup).1 h.load
  rw [← usages_renew] at hrow
  exact exists_load_of_questions h.nodup_renew hbackend hrow (h.exists_question hbank) registry

variable {v : Usage ν}

/-- What a load finds where an attempt was not started: it is made of the row that was there. -/
lemma read_kept (h : s.Regrading usageId bank registry u w)
    (hv : (Store.load usageId bank registry (s.renew w.started)).result = .ok v) {slot : Nat}
    {a : Attempt ν} (ha : w.attempts.get? slot = some a) (hsteps : a.steps = []) :
    ∃ b, v.attempts.get? slot = some b ∧ b.id = a.id ∧ b.slot = slot ∧ b.flagged = a.flagged ∧
      b.maxMark = a.maxMark := by
  obtain ⟨old, r, hold, hplace, hr, hmake⟩ := h.exists_row ha
  have hkept := h.lastRow_kept slot fun a' ha' =>
    Option.some.inj (ha.symm.trans ha') ▸ hsteps
  have hmade := get?_of_load h.nodup_renew hv slot
  rw [hkept, hr, Option.map_some] at hmade
  obtain ⟨b, hb, hbmake⟩ := Option.map_eq_some_iff.1 hmade
  obtain ⟨hbid, hbslot, hbflagged, hbmark, -⟩ := AttemptRow.of_loaded hbmake.symm
  obtain ⟨hid, hslot, hflagged, hmark, -⟩ := AttemptRow.of_loaded hmake
  refine ⟨b, hb, ?_, ?_, ?_, ?_⟩
  · rw [hbid, hplace.id, hid]
  · rw [hbslot, (of_lastRow hr).2]
  · rw [hbflagged, hplace.flagged, hflagged]
  · rw [hbmark, hplace.maxMark, hmark]

/-- What a load finds where an attempt was started: it is made of the row and the steps that were
written. -/
lemma read_started (h : s.Regrading usageId bank registry u w)
    (hv : (Store.load usageId bank registry (s.renew w.started)).result = .ok v) {slot : Nat}
    {a : Attempt ν} (ha : w.attempts.get? slot = some a) (hsteps : a.steps ≠ []) :
    ∃ b, v.attempts.get? slot = some b ∧ b.id = a.id ∧ b.slot = slot ∧ b.flagged = a.flagged ∧
      b.maxMark = a.maxMark ∧ b.steps.map Step.bare = a.steps.map Step.bare := by
  obtain ⟨row, hrow, -⟩ := (h.renewed.attempts ha).exists_row s.supply
  have hlast := h.lastRow_started ha hsteps hrow
  have hmade := get?_of_load h.nodup_renew hv slot
  rw [hlast, Option.map_some] at hmade
  obtain ⟨b, hb, hbmake⟩ := Option.map_eq_some_iff.1 hmade
  obtain ⟨hbid, hbslot, hbflagged, hbmark, -, hbsteps⟩ := AttemptRow.of_loaded hbmake.symm
  obtain ⟨_, _, _, -, -, -, -, hfields⟩ := Attempt.of_toRow hrow
  refine ⟨b, hb, ?_, ?_, ?_, ?_, ?_⟩
  · rw [hbid, Attempt.id_of_toRow hrow]
  · rw [hbslot, (of_lastRow hlast).2]
  · rw [hbflagged, hfields]
  · rw [hbmark, hfields]
  · rw [hbsteps, List.map_map]
    exact h.stepsFor_renew ha hsteps hrow

/-- A load finds every attempt in its place. -/
lemma read (h : s.Regrading usageId bank registry u w)
    (hv : (Store.load usageId bank registry (s.renew w.started)).result = .ok v) {slot : Nat}
    {a : Attempt ν} (ha : w.attempts.get? slot = some a) :
    ∃ b, v.attempts.get? slot = some b ∧ b.id = a.id ∧ b.slot = slot ∧ b.flagged = a.flagged ∧
      b.maxMark = a.maxMark := by
  by_cases hsteps : a.steps = []
  · exact h.read_kept hv ha hsteps
  · obtain ⟨b, hb, hid, hslot, hflagged, hmark, -⟩ := h.read_started hv ha hsteps
    exact ⟨b, hb, hid, hslot, hflagged, hmark⟩

/-- A load finds attempts in the same slots as before. -/
lemma slots_eq (h : s.Regrading usageId bank registry u w)
    (hv : (Store.load usageId bank registry (s.renew w.started)).result = .ok v) :
    v.slots = u.slots := by
  refine SortedMap.keys_eq_of_isSome fun slot => ?_
  cases ha : w.attempts.get? slot with
  | some a =>
    obtain ⟨b, hb, -⟩ := h.read hv ha
    obtain ⟨old, hold, -⟩ := h.samePlace.of_get?_eq_some ha
    rw [hb, hold]
    rfl
  | none =>
    have hold : u.attempts.get? slot = none := by
      by_contra hsome
      obtain ⟨old, hold⟩ := Option.ne_none_iff_exists'.1 hsome
      obtain ⟨a, ha', -⟩ := h.samePlace.get?_eq_some hold
      rw [ha] at ha'
      cases ha'
    have hkept := h.lastRow_kept slot fun a' ha' => by
      rw [ha] at ha'
      cases ha'
    have hmade := get?_of_load h.nodup_renew hv slot
    have hbefore := get?_of_load h.nodup h.load slot
    rw [hold, Option.map_none, eq_comm, Option.map_eq_none_iff] at hbefore
    rw [hkept, hbefore, Option.map_none, Option.map_eq_none_iff] at hmade
    rw [hmade, hold]

end Store.Regrading
end Assessment
