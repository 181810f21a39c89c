import Assessment.Command.Ids
import Assessment.Proofs.Store.Turns

/-!
# Batches of regrades

It does not matter how usages are put into batches, in which order, and how the regrades of a batch
take turns (`Regrades.batching_irrelevant`).  Each usage has one entry in the report, which is the
one that it would have had alone at the beginning, and the stores in the end are alike.

After every batch the store is ahead of the first one by the regrades of the batch, so after all
batches it is ahead by all of them (`Regrades.Batched.ahead`).  The regrades that do not take turns
at all, but go one after the other, are such a run (`Regrades.batched_regradeAll`).
-/

namespace Assessment

variable {ν : Type} [Scalar ν]

/-! ## Lists in pieces -/

omit [Scalar ν] in
lemma Store.flatten_chunks {α : Type} {size : Nat} (hsize : 0 < size) {fuel : Nat} {xs : List α}
    (hfuel : xs.length ≤ fuel) : (chunks size fuel xs).flatten = xs := by
  induction fuel generalizing xs with
  | zero => rw [List.eq_nil_of_length_eq_zero (Nat.le_zero.1 hfuel)]; rfl
  | succ fuel ih =>
    cases xs with
    | nil => rfl
    | cons x rest =>
      have hdrop : ((x :: rest).drop size).length ≤ fuel := by
        rw [List.length_drop]
        rw [List.length_cons] at hfuel ⊢
        omega
      rw [chunks, List.isEmpty_cons, if_neg Bool.false_ne_true, List.flatten_cons, ih hdrop,
        List.take_append_drop]

omit [Scalar ν] in
/-- The batches of a list are the list. -/
lemma Store.flatten_batches {α : Type} (size : Nat) (xs : List α) :
    (batches size xs).flatten = xs :=
  flatten_chunks (by omega) le_rfl

/-! ## Reports -/

namespace RegradeReport

/-- The entry of a usage whose regrade failed. -/
def failure? (usageId : String) : Except Failure (UsageRegrade ν) → Option (String × String)
  | .ok _ => none
  | .error f => some (usageId, f.message)

omit [Scalar ν] in
/-- A report lists the results in order. -/
lemma foldl_add (result : String → Except Failure (UsageRegrade ν)) (ids : List String)
    (report : RegradeReport ν) : ids.foldl (fun report v => report.add v (result v)) report =
      ⟨report.regraded ++ ids.filterMap fun v => (result v).toOption,
        report.failed ++ ids.filterMap fun v => failure? v (result v)⟩ := by
  induction ids generalizing report with
  | nil => simp
  | cons v rest ih =>
    rw [List.foldl_cons, ih]
    cases hr : result v <;> simp [add, failure?, hr, Except.toOption]

omit [Scalar ν] in
/-- Every usage has one entry. -/
lemma entries_perm {result : String → Except Failure (UsageRegrade ν)} {ids : List String}
    (h : ∀ v regraded, result v = .ok regraded → regraded.usageId = v) :
    ((ids.filterMap fun v => (result v).toOption).map UsageRegrade.usageId ++
      (ids.filterMap fun v => failure? v (result v)).map Prod.fst).Perm ids := by
  induction ids with
  | nil => exact .refl _
  | cons v rest ih =>
    cases hr : result v with
    | ok regraded =>
      simpa [failure?, hr, Except.toOption, h v regraded hr] using ih
    | error f =>
      simp only [List.filterMap_cons, hr, Except.toOption, failure?, List.map_cons]
      exact List.perm_middle.trans (ih.cons v)

end RegradeReport

/-- The report of a usage names it. -/
lemma Store.usageId_of_regrade {usageId : String} {bank : Bank ν} {registry : Registry}
    {draws : Nat → Draw} {s : Store ν} {regraded : UsageRegrade ν}
    (h : (regrade usageId bank registry draws s).result = .ok regraded) :
    regraded.usageId = usageId := by
  obtain ⟨f, -, hr, -⟩ | ⟨u, -, ⟨e, -, hr, -⟩ | ⟨w, -, -, -, hr, -⟩⟩ :=
    regrade_spec usageId bank registry draws s
  · cases hr.symm.trans h
  · cases hr.symm.trans h
  · obtain rfl := Except.ok.inj (hr.symm.trans h)
    rfl

namespace Regrades

variable {bank : Bank ν} {registry : Registry} {draws : String → Nat → Draw}

/-! ## All batches -/

/-- What is reported of a batch that is finished. -/
lemma Ongoing.report_eq {s₀ : Store ν} {batch : List String} {r : Regrades ν} {done : List String}
    {us : List (Usage ν)} (h : Ongoing s₀ bank registry draws batch r done us)
    (hdone : ∀ v ∈ batch, r.Done v) (report : RegradeReport ν) :
    (∀ v ∈ batch, v ∈ done) ∧ r.report batch report = batch.foldl (fun report v =>
      report.add v (Store.regrade v bank registry (draws v) s₀).result) report := by
  have hfinished : ∀ v ∈ batch, v ∈ done ∧
      r.progress v = .finished (Store.regrade v bank registry (draws v) s₀).result := by
    intro v hv
    obtain ⟨result, hresult⟩ := hdone v hv
    have hp := h.progress v hv
    rw [hresult] at hp
    obtain ⟨hmem, rfl⟩ := hp
    exact ⟨hmem, hresult⟩
  refine ⟨fun v hv => (hfinished v hv).1, ?_⟩
  unfold Regrades.report
  refine List.foldl_ext _ _ _ fun report v hv => ?_
  rw [(hfinished v hv).2]

/-- A run through all batches leads to a store that is ahead by all their regrades, and reports
their results. -/
theorem Batched.ahead {s₀ s t : Store ν} {us₀ us : List (Usage ν)} (h₀ : s₀.Reached us₀)
    {batches : List (List String)} {report report' : RegradeReport ν}
    (h : Batched bank registry draws batches s report t report') {done : List String}
    (hahead : s₀.Ahead bank registry draws done s us) (hdone : done.Nodup)
    (hnodup : batches.flatten.Nodup) (hapart : ∀ v ∈ batches.flatten, v ∉ done) :
    (∃ done' us', s₀.Ahead bank registry draws done' t us' ∧ done'.Nodup ∧
      ∀ v, v ∈ done' ↔ v ∈ done ∨ v ∈ batches.flatten) ∧
    report' = batches.flatten.foldl (fun report v =>
      report.add v (Store.regrade v bank registry (draws v) s₀).result) report := by
  induction h generalizing done us with
  | nil => exact ⟨⟨done, us, hahead, hdone, by simp⟩, rfl⟩
  | @cons batch rest s t report report' order horder hfinished hrest ih =>
    rw [List.flatten_cons, List.nodup_append] at hnodup
    rw [List.flatten_cons] at hapart
    obtain ⟨-, hrestNodup, hdistinct⟩ := hnodup
    have hstart : Ongoing s₀ bank registry draws batch (start s) done us :=
      ⟨hahead, hdone, fun v hv => hapart v (List.mem_append_left _ hv)⟩
    obtain ⟨done₁, us₁, h₁, hfrom, hto⟩ := hstart.run h₀ horder
    obtain ⟨hbatch, hreport⟩ := h₁.report_eq hfinished report
    obtain ⟨⟨done', us', hahead', hdone', hmem⟩, hreport'⟩ := ih h₁.ahead h₁.nodup hrestNodup
      fun v hv hv₁ => by
        obtain hv' | hv' := hto v hv₁
        · exact hapart v (List.mem_append_right _ hv) hv'
        · exact hdistinct v hv' v hv rfl
    refine ⟨⟨done', us', hahead', hdone', fun v => ?_⟩, ?_⟩
    · rw [hmem, List.flatten_cons, List.mem_append]
      constructor
      · rintro (hv | hv)
        · exact (hto v hv).imp_right .inl
        · exact .inr (.inr hv)
      · rintro (hv | hv | hv)
        · exact .inl (hfrom v hv)
        · exact .inl (hbatch v hv)
        · exact .inr hv
    · rw [hreport', hreport, List.flatten_cons, List.foldl_append]

/-- A run through the batches of a list ends with the new attempts of all its usages in their places,
in the order in which the regrades finished. -/
lemma Batched.exists_perm {s t : Store ν} {us : List (Usage ν)} (h : s.Reached us)
    {ids : List String} (hids : ids.Nodup) {size : Nat} {report : RegradeReport ν}
    (hrun : Batched bank registry draws (Store.batches size ids) s ⟨[], []⟩ t report) :
    (∃ done : List String, done.Perm ids ∧
      t = s.renew (done.flatMap (s.renewals bank registry draws))) ∧
    report = ids.foldl (fun report v =>
      report.add v (Store.regrade v bank registry (draws v) s).result) ⟨[], []⟩ := by
  have hflat := Store.flatten_batches size ids
  obtain ⟨⟨done, vs, hahead, hdone, hmem⟩, hreport⟩ := hrun.ahead h (.refl h) List.nodup_nil
    (by rwa [hflat]) fun _ _ => List.not_mem_nil
  rw [hflat] at hreport
  refine ⟨⟨done, (List.perm_ext_iff_of_nodup hdone hids).2 fun v => ?_, hahead.store⟩, hreport⟩
  rw [hmem, hflat]
  simp

/-! ## One after the other -/

/-- Three turns in a row are a regrade. -/
lemma run_thrice {r : Regrades ν} {v : String} (h : r.progress v = .waiting) :
    r.run bank registry draws [v, v, v] =
      let run := Store.regrade v bank registry (draws v) r.store
      ⟨run.state, Function.update r.progress v (.finished run.result)⟩ := by
  simp only [run, List.foldl_cons, List.foldl_nil, next, Function.update_self, Function.update_idem,
    h]
  cases hload : (Store.load v bank registry r.store).result with
  | error f =>
    simp only [move, hload, Store.regrade, Op.bind, Op.mapFailure, Except.mapError,
      Store.state_load]
  | ok u =>
    cases hregrade : (Usage.regradeAll (draws v) u).result with
    | error e =>
      simp only [move, hload, hregrade, Store.regrade, Op.bind, Op.mapFailure, Except.mapError,
        Store.state_load]
    | ok _ =>
      simp only [move, hload, hregrade, Store.regrade, Op.bind, Op.mapFailure, Except.mapError,
        Store.state_load]

/-- The regrades of a batch that go one after the other. -/
def oneByOne (batch : List String) : List String := batch.flatMap fun v => [v, v, v]

/-- A batch whose regrades go one after the other. -/
lemma regradeBatch_eq (bank : Bank ν) (registry : Registry) (draws : Nat → Draw)
    {batch : List String} (hnodup : batch.Nodup) (r : Regrades ν)
    (hwaiting : ∀ v ∈ batch, r.progress v = .waiting) (report : RegradeReport ν) :
    let after := r.run bank registry (fun _ => draws) (oneByOne batch)
    (Store.regradeBatch bank registry draws batch report r.store).result =
        .ok (after.report batch report) ∧
      (Store.regradeBatch bank registry draws batch report r.store).state = after.store ∧
      (∀ v ∉ batch, after.progress v = r.progress v) ∧ ∀ v ∈ batch, after.Done v := by
  induction batch generalizing r report with
  | nil => exact ⟨rfl, rfl, fun _ _ => rfl, by simp⟩
  | cons v rest ih =>
    obtain ⟨hv, hrest⟩ := List.nodup_cons.1 hnodup
    set first := Store.regrade v bank registry draws r.store with hfirst
    set r₁ : Regrades ν :=
      ⟨first.state, Function.update r.progress v (.finished first.result)⟩ with hr₁
    have hthrice : r.run bank registry (fun _ => draws) [v, v, v] = r₁ :=
      run_thrice (hwaiting v List.mem_cons_self)
    have hsplit : r.run bank registry (fun _ => draws) (oneByOne (v :: rest)) =
        r₁.run bank registry (fun _ => draws) (oneByOne rest) := by
      rw [← hthrice]
      exact List.foldl_append
    have hwaiting₁ : ∀ v' ∈ rest, r₁.progress v' = .waiting := fun v' hv' => by
      have hne : v' ≠ v := fun heq => hv (heq ▸ hv')
      rw [hr₁, ← hwaiting v' (List.mem_cons_of_mem _ hv')]
      exact Function.update_of_ne hne _ _
    obtain ⟨hresult, hstate, hothers, hdone⟩ := ih hrest r₁ hwaiting₁ (report.add v first.result)
    have hown : (r₁.run bank registry (fun _ => draws) (oneByOne rest)).progress v =
        .finished first.result := by
      rw [hothers v hv, hr₁]
      exact Function.update_self ..
    rw [hsplit]
    refine ⟨?_, hstate, fun v' hv' => ?_, ?_⟩
    · refine hresult.trans ?_
      rw [Regrades.report, Regrades.report, List.foldl_cons, hown]
    · rw [List.mem_cons, not_or] at hv'
      obtain ⟨hne, hv'⟩ := hv'
      rw [hothers v' hv', hr₁]
      exact Function.update_of_ne hne _ _
    · exact List.forall_mem_cons.2 ⟨⟨_, hown⟩, hdone⟩

/-- The regrades that go one after the other are a run through all batches. -/
lemma batched_of_regradeBatch {draws : Nat → Draw} {batches : List (List String)}
    (hnodup : batches.flatten.Nodup) {op : Op Failure (Store ν) (RegradeReport ν)} {s : Store ν}
    {report : RegradeReport ν} (hop : (op s).result = .ok report) :
    let run := batches.foldl (fun op batch =>
      Op.bind op (Store.regradeBatch bank registry draws batch)) op s
    ∃ report', run.result = .ok report' ∧
      Batched bank registry (fun _ => draws) batches (op s).state report run.state report' := by
  induction batches generalizing op report with
  | nil => exact ⟨report, hop, .nil⟩
  | cons batch rest ih =>
    rw [List.flatten_cons, List.nodup_append] at hnodup
    obtain ⟨hbatch, hrest, -⟩ := hnodup
    obtain ⟨hresult, hstate, -, hdone⟩ :=
      regradeBatch_eq bank registry draws hbatch (start (op s).state) (fun _ _ => rfl) report
    have hbind := Op.bind_of_ok (f := Store.regradeBatch bank registry draws batch) hop
    have hnext : (Op.bind op (Store.regradeBatch bank registry draws batch) s).result = .ok _ :=
      (congrArg Run.result hbind).trans hresult
    have hstore : (Op.bind op (Store.regradeBatch bank registry draws batch) s).state = _ :=
      (congrArg Run.state hbind).trans hstate
    obtain ⟨report', hok, hrun⟩ := ih hrest hnext
    rw [hstore] at hrun
    refine ⟨report', hok, .cons (oneByOne batch) (fun v hv => ?_) hdone hrun⟩
    obtain ⟨v', hv', hmem⟩ := List.mem_flatMap.1 hv
    simp only [List.mem_cons, List.not_mem_nil, or_false, or_self] at hmem
    rwa [hmem]

/-- Regrades that go one after the other, batch by batch. -/
lemma batched_regradeAll (size : Nat) {ids : List String} (hids : ids.Nodup) (bank : Bank ν)
    (registry : Registry) (draws : Nat → Draw) (s : Store ν) :
    let run := Store.regradeAll size ids bank registry draws s
    ∃ report, run.result = .ok report ∧
      Batched bank registry (fun _ => draws) (Store.batches size ids) s ⟨[], []⟩ run.state report :=
  batched_of_regradeBatch (by rwa [Store.flatten_batches]) rfl

/-! ## Any batches -/

/-- Usages are regraded in batches of any size, in any order, and with the regrades of a batch taking
turns in any order; that they go one after the other is one case.  Each usage has one entry, which
is that of its regrade alone, and the store is the same in the end up to the order of rows and the
new ids of steps. -/
theorem batching_irrelevant {s : Store ν} {us : List (Usage ν)} (h : s.Reached us) (bank : Bank ν)
    (registry : Registry) {ids : List String} (hids : ids.Nodup) :
    (∀ size draws, ∃ report, (Store.regradeAll size ids bank registry draws s).result = .ok report ∧
      Batched bank registry (fun _ => draws) (Store.batches size ids) s ⟨[], []⟩
        (Store.regradeAll size ids bank registry draws s).state report) ∧
    ∀ draws size t report,
      Batched bank registry draws (Store.batches size ids) s ⟨[], []⟩ t report →
      let alone := fun v => (Store.regrade v bank registry (draws v) s).result
      report.regraded = (ids.filterMap fun v => (alone v).toOption) ∧
      report.failed = (ids.filterMap fun v => RegradeReport.failure? v (alone v)) ∧
      (report.regraded.map UsageRegrade.usageId ++ report.failed.map Prod.fst).Perm ids ∧
      ∀ ids' size' t' report', ids.Perm ids' →
        Batched bank registry draws (Store.batches size' ids') s ⟨[], []⟩ t' report' →
        s.Alike t t' := by
  refine ⟨fun size draws => batched_regradeAll size hids bank registry draws s, ?_⟩
  intro draws size t report hrun alone
  obtain ⟨owner, hs, -⟩ := h.owned
  obtain ⟨⟨done, hdone, ht⟩, hreport⟩ := hrun.exists_perm h hids
  rw [RegradeReport.foldl_add] at hreport
  subst hreport
  refine ⟨rfl, rfl, ?_, fun ids' size' t' report' hperm hrun' => ?_⟩
  · simpa using RegradeReport.entries_perm fun v regraded hr => Store.usageId_of_regrade hr
  · -- the regrades finished in two orders of one list
    obtain ⟨⟨done', hdone', ht'⟩, -⟩ := hrun'.exists_perm h (hperm.nodup_iff.1 hids)
    have hsame : done.Perm done' := hdone.trans (hperm.trans hdone'.symm)
    rw [ht, ht']
    exact Store.renew_alike hs.past (hsame.flatMap_right _)
      (h.nodup_flatMap_renewals (hdone.nodup_iff.2 hids))

/-- A statement is judged rightly in one usage and wrongly in another; then the answer to it is
changed.  The regrades of both, and of a usage that is not stored, take turns.  Each is reported,
and the store is in the end as when they go one after the other in batches of one, and in the
opposite order. -/
theorem batching_irrelevant_example :
    let statement (right : Bool) : Question (Exact .decimal) :=
      .trueFalse (TrueFalse.new "tf" "The sky is blue" right)
    let draws : Nat → Draw := fun _ => ⟨0, 0⟩
    let blank (token : String) : Usage (Exact .decimal) := ⟨.ephemeral token, "quiz", "course",
      "immediatefeedback", SortedMap.empty, Registry.standard, none⟩
    let answered (token answer : String) :=
      (Usage.Operation.act 1 (SortedMap.ofList [("answer", answer), ("-submit", "1")]) ⟨1000⟩
        none).after ((Usage.Operation.startAll ⟨0⟩ none draws).after
          ((Usage.Operation.add (statement true) none).after (blank token)))
    let first := (Store.save (answered "s" "1", Store.empty .memory)).state
    let second := (Store.save (answered "t" "0", first.2)).state
    let bank : Bank (Exact .decimal) := .memory (SortedMap.ofList [("tf", statement false)])
    let a := first.1.id.text
    let b := second.1.id.text
    let after := (start second.2).run bank Registry.standard (fun _ => draws)
      [a, b, "none", b, a, "none", "none", a, b]
    let report := after.report [a, b, "none"] ⟨[], []⟩
    (report.regraded.map fun r =>
        (r.usageId, r.slots.map fun e => (e.slot, e.oldState, e.newState))) =
      [(a, [(1, .gradedCorrect, .gradedWrong)]), (b, [(1, .gradedWrong, .gradedCorrect)])] ∧
    report.failed.map Prod.fst = ["none"] ∧
    second.2.Alike after.store
      (Store.regradeAll 1 ["none", b, a] bank Registry.standard draws second.2).state := by
  intro statement draws blank answered first second bank a b after report
  have hnew : ∀ token, Usage.new token "quiz" "course" "immediatefeedback" Registry.standard =
      .ok (blank token) := fun _ => rfl
  obtain ⟨us, hfirst⟩ : ∃ us, Store.Reached (Store.empty .memory) (answered "s" "1" :: us) :=
    ⟨_, .operation (.operation (.operation (.make .empty (hnew "s")) List.mem_cons_self _)
      List.mem_cons_self _) List.mem_cons_self _⟩
  have hsaved : Store.Reached first.2 (first.1 :: answered "s" "1" :: us) :=
    hfirst.save List.mem_cons_self
  obtain ⟨vs, hsecond⟩ : ∃ vs, Store.Reached first.2 (answered "t" "0" :: vs) :=
    ⟨_, .operation (.operation (.operation (.make hsaved (hnew "t")) List.mem_cons_self _)
      List.mem_cons_self _) List.mem_cons_self _⟩
  have hreached : Store.Reached second.2 (second.1 :: answered "t" "0" :: vs) :=
    hsecond.save List.mem_cons_self
  have hids : [a, b, "none"].Nodup := by decide +kernel
  have hrun : Batched bank Registry.standard (fun _ => draws) (Store.batches 3 [a, b, "none"])
      second.2 ⟨[], []⟩ after.store report := by
    have hthree : ∀ v ∈ [a, b, "none"], 3 ≤ [a, b, "none", b, a, "none", "none", a, b].count v := by
      decide +kernel
    exact .cons [a, b, "none", b, a, "none", "none", a, b] (by decide +kernel)
      (fun v hv => done_of_turns (hthree v hv)) .nil
  have hbackend : second.2.backend = .memory := by decide +kernel
  have hrow : ∀ v ∈ [a, b], second.2.tables.usages.find? (fun r => r.id == v) =
      some ⟨v, "quiz", "course", "immediatefeedback"⟩ := by decide +kernel
  have hloadA : Store.load a bank Registry.standard second.2 = _ :=
    Usage.load_of_pairwise hbackend (hrow a (by simp)) (by decide +kernel)
  have hloadB : Store.load b bank Registry.standard second.2 = _ :=
    Usage.load_of_pairwise hbackend (hrow b (by simp)) (by decide +kernel)
  obtain ⟨ra, ha, hra⟩ : ∃ r,
      (Store.regrade a bank Registry.standard draws second.2).result = .ok r ∧
      (r.usageId, r.slots.map fun e => (e.slot, e.oldState, e.newState)) =
        (a, [(1, .gradedCorrect, .gradedWrong)]) := by
    simp only [Store.result_regrade, hloadA]
    exact Usage.exists_ok_of_any (by decide +kernel)
  obtain ⟨rb, hb, hrb⟩ : ∃ r,
      (Store.regrade b bank Registry.standard draws second.2).result = .ok r ∧
      (r.usageId, r.slots.map fun e => (e.slot, e.oldState, e.newState)) =
        (b, [(1, .gradedWrong, .gradedCorrect)]) := by
    simp only [Store.result_regrade, hloadB]
    exact Usage.exists_ok_of_any (by decide +kernel)
  obtain ⟨f, hf⟩ : ∃ f,
      (Store.regrade "none" bank Registry.standard draws second.2).result = .error f := by
    have hnone : (second.2.tables.usages.find? fun row => row.id == "none") = none := by
      decide +kernel
    rw [Store.result_regrade]
    simp only [Store.load, hbackend, hnone]
    exact ⟨_, rfl⟩
  obtain ⟨-, hruns⟩ := batching_irrelevant hreached bank Registry.standard hids
  obtain ⟨hregraded, hfailed, -, halike⟩ := hruns (fun _ => draws) 3 after.store report hrun
  have hids' : ["none", b, a].Nodup := by decide +kernel
  obtain ⟨report', -, hrun'⟩ :=
    (batching_irrelevant hreached bank Registry.standard hids').1 1 draws
  refine ⟨?_, ?_, halike _ 1 _ report' (List.reverse_perm [a, b, "none"]).symm hrun'⟩
  · rw [hregraded]
    simp [ha, hb, hf, Except.toOption, hra, hrb]
  · rw [hfailed]
    simp [ha, hb, hf, RegradeReport.failure?]

end Regrades
end Assessment
