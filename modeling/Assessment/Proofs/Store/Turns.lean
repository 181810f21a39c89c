import Assessment.Proofs.Store.Alike
import Assessment.Proofs.Store.Report

/-!
# Regrades that take turns

The regrades of the usages in a batch take turns: each loads its usage, replays it and saves it, and
between any two of these the others may do what they do (`Regrades.run`).  A regrade that fails at
one of these is finished, and the others go on.  When all in the batch are finished, their results
are reported in the order of the batch, and the next batch begins (`Regrades.Batched`).

Regrades of different usages do not disturb each other.  The invariant of a run (`Store.Ahead`) is
that the store is what it was at the beginning with the new attempts of all finished regrades in
their places, and that the loads of all other usages give what they gave at the beginning.  So every
regrade finishes with the result that it would have had alone at the beginning, and it does so
after three turns, whatever the others do (`Regrades.done_of_turns`).
-/

namespace Assessment

variable {ν : Type} [Scalar ν]

/-! ## Runs -/

namespace Regrades

/-- How far the regrade of a usage has come. -/
inductive Progress (ν : Type)
  | waiting
  | loaded (usage : Usage ν)
  | replayed (old new : Usage ν)
  | finished (result : Except Failure (UsageRegrade ν))

/-- The next thing that the regrade of a usage does. -/
def move (bank : Bank ν) (registry : Registry) (draws : Nat → Draw) (usageId : String) :
    Progress ν → Store ν → Progress ν × Store ν
  | .waiting, s =>
    match (Store.load usageId bank registry s).result with
    | .ok u => (.loaded u, s)
    | .error f => (.finished (.error (f.within ("Failed to load usage " ++ usageId))), s)
  | .loaded u, s =>
    let replayed := Usage.regradeAll draws u
    match replayed.result with
    | .ok _ => (.replayed u replayed.state, s)
    | .error e =>
      (.finished (.error ((Failure.ofFault e).within ("Failed to regrade usage " ++ usageId))), s)
  | .replayed u w, s =>
    let saved := Store.save (w, s)
    (.finished ((saved.result.mapError
        (Failure.within ("Failed to save regraded usage " ++ usageId))).map fun _ =>
          UsageRegrade.compare usageId u w), saved.state.2)
  | .finished result, s => (.finished result, s)

end Regrades

/-- A store and regrades of usages. -/
structure Regrades (ν : Type) where
  store : Store ν
  progress : String → Regrades.Progress ν

namespace Regrades

/-- Before any regrade has done anything. -/
def start (s : Store ν) : Regrades ν := ⟨s, fun _ => .waiting⟩

section Runs

variable (bank : Bank ν) (registry : Registry) (draws : String → Nat → Draw)

/-- The regrade of a usage does the next thing. -/
def next (r : Regrades ν) (usageId : String) : Regrades ν :=
  let moved := move bank registry (draws usageId) usageId (r.progress usageId) r.store
  ⟨moved.2, Function.update r.progress usageId moved.1⟩

/-- The regrades take turns. -/
def run (r : Regrades ν) (order : List String) : Regrades ν :=
  order.foldl (next bank registry draws) r

end Runs

/-- The regrade of a usage is finished. -/
def Done (r : Regrades ν) (usageId : String) : Prop :=
  ∃ result, r.progress usageId = .finished result

end Regrades

/-- A report with the result for one more usage. -/
def RegradeReport.add (report : RegradeReport ν) (usageId : String) :
    Except Failure (UsageRegrade ν) → RegradeReport ν
  | .ok regraded => { report with regraded := report.regraded ++ [regraded] }
  | .error f => { report with failed := report.failed ++ [(usageId, f.message)] }

namespace Regrades

/-- A report with the results of the regrades that are finished. -/
def report (r : Regrades ν) (usageIds : List String) (report : RegradeReport ν) : RegradeReport ν :=
  usageIds.foldl (fun report usageId =>
    match r.progress usageId with
    | .finished result => report.add usageId result
    | _ => report) report

/-- Batches of usages are regraded one after the other.  Within a batch the regrades take turns in
some order until all are finished. -/
inductive Batched (bank : Bank ν) (registry : Registry) (draws : String → Nat → Draw) :
    List (List String) → Store ν → RegradeReport ν → Store ν → RegradeReport ν → Prop
  | nil {s : Store ν} {report : RegradeReport ν} : Batched bank registry draws [] s report s report
  | cons {batch : List String} {rest : List (List String)} {s t : Store ν}
    {report report' : RegradeReport ν} (order : List String) (horder : ∀ v ∈ order, v ∈ batch)
    (hdone : ∀ v ∈ batch, (run bank registry draws (start s) order).Done v)
    (hrest : Batched bank registry draws rest (run bank registry draws (start s) order).store
      ((run bank registry draws (start s) order).report batch report) t report') :
    Batched bank registry draws (batch :: rest) s report t report'

end Regrades

/-! ## What a regrade puts in place -/

/-- The attempts that a regrade of a stored usage puts in their places. -/
def Store.renewals (s : Store ν) (bank : Bank ν) (registry : Registry) (draws : String → Nat → Draw)
    (usageId : String) : List (Attempt ν) :=
  match (load usageId bank registry s).result with
  | .error _ => []
  | .ok u =>
    match (Usage.regradeAll (draws usageId) u).result with
    | .error _ => []
    | .ok _ => (Usage.regradeAll (draws usageId) u).state.started

section Renewals

variable {s : Store ν} {us : List (Usage ν)} {bank : Bank ν} {registry : Registry}
  {draws : String → Nat → Draw} {usageId : String}

lemma Store.renewals_of_ok {u : Usage ν} (hload : (load usageId bank registry s).result = .ok u)
    (hok : (Usage.regradeAll (draws usageId) u).result = .ok ()) :
    s.renewals bank registry draws usageId =
      (Usage.regradeAll (draws usageId) u).state.started := by
  simp only [renewals, hload, hok]

/-- They have rows of the usage. -/
lemma Store.Reached.row_of_renewals (h : Reached s us) {a : Attempt ν}
    (ha : a ∈ s.renewals bank registry draws usageId) :
    ∃ r ∈ s.tables.attempts, r.usageId = usageId ∧ a.id = some r.id := by
  unfold renewals at ha
  split at ha
  · cases ha
  · rename_i u hload
    split at ha
    · cases ha
    · rename_i hok
      have hregrading := h.regrading hload rfl (Usage.replaced_of_regradeAll hok)
      obtain ⟨slot, ha, -⟩ := Usage.mem_started.1 ha
      obtain ⟨old, r, -, hplace, hr, hmake⟩ := hregrading.exists_row ha
      obtain ⟨hmem, husage⟩ := List.mem_filter.1 (of_lastRow hr).1
      exact ⟨r, hmem, beq_iff_eq.1 husage, hplace.id.trans (AttemptRow.of_loaded hmake).1⟩

lemma Store.Reached.nodup_renewals (h : Reached s us) :
    ((s.renewals bank registry draws usageId).map Attempt.id).Nodup := by
  unfold renewals
  split
  · exact List.nodup_nil
  · rename_i u hload
    split
    · exact List.nodup_nil
    · rename_i hok
      exact (h.regrading hload rfl (Usage.replaced_of_regradeAll hok)).nodup_ids

/-- Those of different usages have different ids. -/
lemma Store.Reached.renewals_apart (h : Reached s us) {v : String} (hne : usageId ≠ v)
    {a b : Attempt ν} (ha : a ∈ s.renewals bank registry draws usageId)
    (hb : b ∈ s.renewals bank registry draws v) : a.id ≠ b.id := by
  obtain ⟨r, hr, husage, hid⟩ := h.row_of_renewals ha
  obtain ⟨r', hr', husage', hid'⟩ := h.row_of_renewals hb
  intro heq
  rw [hid, hid', Option.some.injEq] at heq
  obtain rfl := List.inj_on_of_nodup_map h.nodup_attempts hr hr' heq
  exact hne (husage.symm.trans husage')

/-- The attempts of several usages have different ids. -/
lemma Store.Reached.nodup_flatMap_renewals (h : Reached s us) {ids : List String}
    (hids : ids.Nodup) : ((ids.flatMap (s.renewals bank registry draws)).map Attempt.id).Nodup := by
  rw [List.map_flatMap, List.nodup_flatMap]
  refine ⟨fun v _ => h.nodup_renewals, hids.imp fun {v v'} hne id hid hid' => ?_⟩
  obtain ⟨a, ha, rfl⟩ := List.mem_map.1 hid
  obtain ⟨b, hb, heq⟩ := List.mem_map.1 hid'
  exact h.renewals_apart hne ha hb heq.symm

end Renewals

/-! ## The invariant -/

/-- A save of a regraded usage leaves the loads of all others, whether they are stored or not. -/
lemma Store.Reached.load_save {s : Store ν} {us : List (Usage ν)} (h : Reached s us) {w : Usage ν}
    (hw : w ∈ us) (hrenewed : w.Renewed) {v : String} (hne : w.id ≠ .stored v) (bank : Bank ν)
    (registry : Registry) : (Store.load v bank registry (Store.save (w, s)).state.2).result =
      (Store.load v bank registry s).result := by
  obtain ⟨owner, hs, howned⟩ := h.owned
  by_cases hv : s.Has v
  · obtain ⟨-, -, hbackend, hsame⟩ := hs.save (howned w hw)
    exact ((hsame v (hs.not_toCome hv) hne).sameFor hbackend).load bank registry
  · have hbackend : (s.renew w.started).backend = s.backend := rfl
    have hnone : (s.tables.usages.find? fun row => row.id == v) = none := by
      rw [List.find?_eq_none]
      intro row hrow heq
      exact hv ⟨row, hrow, beq_iff_eq.1 heq⟩
    rw [(save_renewed hs.backend hrenewed).2]
    simp only [Store.load, hbackend, usages_renew, hs.backend, hnone]

/-- A store in which the regrades of some usages are finished, and the usages that are in memory. -/
structure Store.Ahead (s₀ : Store ν) (bank : Bank ν) (registry : Registry)
    (draws : String → Nat → Draw) (done : List String) (s : Store ν) (us : List (Usage ν)) :
    Prop where
  store : s = s₀.renew (done.flatMap (s₀.renewals bank registry draws))
  reached : Reached s us
  loads : ∀ v ∉ done, (load v bank registry s).result = (load v bank registry s₀).result

namespace Store.Ahead

variable {s₀ s : Store ν} {bank : Bank ν} {registry : Registry} {draws : String → Nat → Draw}
  {done : List String} {us us₀ : List (Usage ν)} {v : String} {u : Usage ν}

lemma refl (h : Reached s₀ us) : s₀.Ahead bank registry draws [] s₀ us :=
  ⟨(renew_nil s₀).symm, h, fun _ _ => rfl⟩

/-- A usage is loaded. -/
lemma load (h : s₀.Ahead bank registry draws done s us) (hv : v ∉ done)
    (hload : (Store.load v bank registry s).result = .ok u) :
    (Store.load v bank registry s₀).result = .ok u ∧
      s₀.Ahead bank registry draws done s (u :: us) :=
  ⟨(h.loads v hv).symm.trans hload, h.store, h.reached.load hload, h.loads⟩

/-- A usage in memory is replayed. -/
lemma replay (h : s₀.Ahead bank registry draws done s us) (hu : u ∈ us) (draws' : Nat → Draw) :
    s₀.Ahead bank registry draws done s ((Usage.regradeAll draws' u).state :: us) :=
  ⟨h.store, h.reached.operation hu (.regradeAll draws'), h.loads⟩

/-- A regrade is finished and puts nothing in place. -/
lemma skip (h : s₀.Ahead bank registry draws done s us)
    (hnone : s₀.renewals bank registry draws v = []) :
    s₀.Ahead bank registry draws (done ++ [v]) s us := by
  refine ⟨?_, h.reached, fun v' hv' => h.loads v' fun hmem => hv' (List.mem_append_left _ hmem)⟩
  rw [List.flatMap_append, List.flatMap_singleton, hnone, List.append_nil]
  exact h.store

/-- A regraded usage is saved. -/
lemma save (h : s₀.Ahead bank registry draws done s us) (h₀ : Reached s₀ us₀) (hv : v ∉ done)
    (hload : (Store.load v bank registry s₀).result = .ok u)
    (hok : (Usage.regradeAll (draws v) u).result = .ok ())
    (hw : (Usage.regradeAll (draws v) u).state ∈ us) :
    let saved := Store.save ((Usage.regradeAll (draws v) u).state, s)
    saved.result = .ok () ∧
      s₀.Ahead bank registry draws (done ++ [v]) saved.state.2 (saved.state.1 :: us) := by
  intro saved
  have hregrading := h₀.regrading hload rfl (Usage.replaced_of_regradeAll hok)
  obtain ⟨owner, hs, -⟩ := h.reached.owned
  obtain ⟨owner₀, hs₀, -⟩ := h₀.owned
  obtain ⟨hsaved, hstate⟩ := save_renewed hs.backend hregrading.renewed
  refine ⟨hsaved, ?_, h.reached.save hw, fun v' hv' => ?_⟩
  · rw [hstate, h.store, renew_renew hs₀.past, List.flatMap_append, List.flatMap_singleton,
      renewals_of_ok hload hok]
    intro a ha b hb
    obtain ⟨v', hv', ha⟩ := List.mem_flatMap.1 ha
    have hne : v' ≠ v := fun heq => hv (heq ▸ hv')
    rw [← renewals_of_ok hload hok] at hb
    exact h₀.renewals_apart hne ha hb
  · rw [List.mem_append, List.mem_singleton, not_or] at hv'
    obtain ⟨hv', hne⟩ := hv'
    rw [h.reached.load_save hw hregrading.renewed, h.loads v' hv']
    rw [hregrading.id]
    exact fun heq => hne (UsageId.stored.inj heq).symm

end Store.Ahead

/-! ## Turns -/

namespace Regrades

/-- How far a regrade has come is as it would be alone at the beginning. -/
def Progress.AsAlone (s₀ : Store ν) (bank : Bank ν) (registry : Registry)
    (draws : String → Nat → Draw) (done : List String) (us : List (Usage ν)) (v : String) :
    Progress ν → Prop
  | .waiting => v ∉ done
  | .loaded u => v ∉ done ∧ (Store.load v bank registry s₀).result = .ok u ∧ u ∈ us
  | .replayed u w => v ∉ done ∧ (Store.load v bank registry s₀).result = .ok u ∧
      (Usage.regradeAll (draws v) u).result = .ok () ∧ (Usage.regradeAll (draws v) u).state = w ∧
      w ∈ us
  | .finished result => v ∈ done ∧ result = (Store.regrade v bank registry (draws v) s₀).result

/-- Regrades of a batch that take turns, with those that are finished. -/
structure Ongoing (s₀ : Store ν) (bank : Bank ν) (registry : Registry) (draws : String → Nat → Draw)
    (batch : List String) (r : Regrades ν) (done : List String) (us : List (Usage ν)) : Prop where
  ahead : s₀.Ahead bank registry draws done r.store us
  nodup : done.Nodup
  progress : ∀ v ∈ batch, (r.progress v).AsAlone s₀ bank registry draws done us v

section Turns

variable {s₀ : Store ν} {bank : Bank ν} {registry : Registry} {draws : String → Nat → Draw}
  {done : List String} {us us₀ : List (Usage ν)} {v : String}

/-- What others do leaves how far a regrade has come. -/
lemma Progress.AsAlone.mono {p : Progress ν} (h : p.AsAlone s₀ bank registry draws done us v)
    {done' : List String} {us' : List (Usage ν)} (hdone : v ∈ done' ↔ v ∈ done)
    (hus : ∀ u ∈ us, u ∈ us') : p.AsAlone s₀ bank registry draws done' us' v := by
  cases p with
  | waiting => exact fun hmem => h (hdone.1 hmem)
  | loaded u =>
    obtain ⟨hv, hload, hu⟩ := h
    exact ⟨fun hmem => hv (hdone.1 hmem), hload, hus u hu⟩
  | replayed u w =>
    obtain ⟨hv, hload, hok, hw, hmem⟩ := h
    exact ⟨fun hmem => hv (hdone.1 hmem), hload, hok, hw, hus w hmem⟩
  | finished result => exact ⟨hdone.2 h.1, h.2⟩

/-- One regrade does something and the others stay as they are. -/
lemma Ongoing.put {batch : List String} {r : Regrades ν}
    (h : Ongoing s₀ bank registry draws batch r done us) {s : Store ν} {p : Progress ν}
    {done' : List String} {us' : List (Usage ν)}
    (hahead : s₀.Ahead bank registry draws done' s us') (hnodup : done'.Nodup)
    (hp : p.AsAlone s₀ bank registry draws done' us' v)
    (hdone : ∀ v', v' ≠ v → (v' ∈ done' ↔ v' ∈ done)) (hus : ∀ u ∈ us, u ∈ us') :
    Ongoing s₀ bank registry draws batch ⟨s, Function.update r.progress v p⟩ done' us' := by
  refine ⟨hahead, hnodup, fun v' hv' => ?_⟩
  by_cases hne : v' = v
  · subst hne
    simpa only [Function.update_self] using hp
  · simp only [Function.update_of_ne hne]
    exact (h.progress v' hv').mono (hdone v' hne) hus

/-- One regrade is finished more. -/
lemma Ongoing.finish {batch : List String} {r : Regrades ν}
    (h : Ongoing s₀ bank registry draws batch r done us) (hv : v ∉ done) {s : Store ν}
    {us' : List (Usage ν)} (hahead : s₀.Ahead bank registry draws (done ++ [v]) s us')
    (hus : ∀ u ∈ us, u ∈ us') :
    Ongoing s₀ bank registry draws batch ⟨s, Function.update r.progress v
      (.finished (Store.regrade v bank registry (draws v) s₀).result)⟩ (done ++ [v]) us' := by
  refine h.put hahead ?_ ⟨List.mem_append_right _ List.mem_cons_self, rfl⟩ (fun v' hne => ?_) hus
  · rw [List.nodup_append]
    refine ⟨h.nodup, List.nodup_singleton v, fun v' hv' v'' hv'' heq => hv ?_⟩
    rwa [← List.mem_singleton.1 hv'', ← heq]
  · simp [hne]

/-- What one turn preserves. -/
lemma Ongoing.next {batch : List String} {r : Regrades ν}
    (h : Ongoing s₀ bank registry draws batch r done us) (h₀ : s₀.Reached us₀) (hv : v ∈ batch) :
    ∃ done' us', Ongoing s₀ bank registry draws batch (r.next bank registry draws v) done' us' ∧
      (done' = done ∨ done' = done ++ [v]) := by
  have hp := h.progress v hv
  have hresult := Store.result_regrade v bank registry (draws v) s₀
  unfold Regrades.next
  cases hprogress : r.progress v with
  | waiting =>
    rw [hprogress] at hp
    cases hload : (Store.load v bank registry r.store).result with
    | error f =>
      have hfirst := (h.ahead.loads v hp).symm.trans hload
      have hnone : s₀.renewals bank registry draws v = [] := by simp only [Store.renewals, hfirst]
      have hfailed : (Store.regrade v bank registry (draws v) s₀).result =
          .error (f.within ("Failed to load usage " ++ v)) := by
        rw [hresult, hfirst]
        rfl
      simp only [move, hload, ← hfailed]
      exact ⟨_, us, h.finish hp (h.ahead.skip hnone) fun _ hu => hu, .inr rfl⟩
    | ok u =>
      obtain ⟨hfirst, hahead⟩ := h.ahead.load hp hload
      simp only [move, hload]
      exact ⟨done, _, h.put hahead h.nodup ⟨hp, hfirst, List.mem_cons_self⟩ (fun _ _ => Iff.rfl)
        fun _ hu => List.mem_cons_of_mem _ hu, .inl rfl⟩
  | loaded u =>
    rw [hprogress] at hp
    obtain ⟨hwaits, hload, hu⟩ := hp
    cases hregrade : (Usage.regradeAll (draws v) u).result with
    | error e =>
      have hnone : s₀.renewals bank registry draws v = [] := by
        simp only [Store.renewals, hload, hregrade]
      have hfailed : (Store.regrade v bank registry (draws v) s₀).result =
          .error ((Failure.ofFault e).within ("Failed to regrade usage " ++ v)) := by
        rw [hresult, hload]
        simp only [Except.mapError, Except.bind, Except.map, hregrade]
      simp only [move, hregrade, ← hfailed]
      exact ⟨_, us, h.finish hwaits (h.ahead.skip hnone) fun _ hu => hu, .inr rfl⟩
    | ok _ =>
      simp only [move, hregrade]
      exact ⟨done, _, h.put (h.ahead.replay hu (draws v)) h.nodup
        ⟨hwaits, hload, hregrade, rfl, List.mem_cons_self⟩ (fun _ _ => Iff.rfl)
        fun _ hu => List.mem_cons_of_mem _ hu, .inl rfl⟩
  | replayed u w =>
    rw [hprogress] at hp
    obtain ⟨hwaits, hload, hok, rfl, hw⟩ := hp
    obtain ⟨hsaved, hahead⟩ := h.ahead.save h₀ hwaits hload hok hw
    have hdone : (Store.regrade v bank registry (draws v) s₀).result =
        .ok (UsageRegrade.compare v u (Usage.regradeAll (draws v) u).state) := by
      rw [hresult, hload]
      simp only [Except.mapError, Except.bind, Except.map, hok]
    simp only [move, hsaved, Except.mapError, Except.map, ← hdone]
    exact ⟨_, _, h.finish hwaits hahead fun _ hu => List.mem_cons_of_mem _ hu, .inr rfl⟩
  | finished result =>
    simp only [move]
    rw [hprogress] at hp
    exact ⟨done, us, h.put h.ahead h.nodup hp (fun _ _ => Iff.rfl) fun _ hu => hu, .inl rfl⟩

/-- What a run preserves. -/
lemma Ongoing.run {batch : List String} {r : Regrades ν}
    (h : Ongoing s₀ bank registry draws batch r done us) (h₀ : s₀.Reached us₀) {order : List String}
    (horder : ∀ v ∈ order, v ∈ batch) :
    ∃ done' us', Ongoing s₀ bank registry draws batch (r.run bank registry draws order) done' us' ∧
      (∀ v ∈ done, v ∈ done') ∧ ∀ v ∈ done', v ∈ done ∨ v ∈ batch := by
  induction order generalizing r done us with
  | nil => exact ⟨done, us, h, fun _ hv => hv, fun _ hv => .inl hv⟩
  | cons v rest ih =>
    obtain ⟨hv, hrest⟩ := List.forall_mem_cons.1 horder
    obtain ⟨done₁, us₁, h₁, hcases⟩ := h.next h₀ hv
    obtain ⟨done', us', h', hfrom, hto⟩ := ih h₁ hrest
    refine ⟨done', us', h', fun v' hv' => hfrom v' ?_, fun v' hv' => ?_⟩
    · obtain rfl | rfl := hcases
      · exact hv'
      · exact List.mem_append_left _ hv'
    · obtain hmem | hmem := hto v' hv'
      · obtain rfl | rfl := hcases
        · exact .inl hmem
        · refine (List.mem_append.1 hmem).imp_right fun hmem => ?_
          rwa [List.mem_singleton.1 hmem]
      · exact .inr hmem

end Turns

/-! ## Every run can be finished -/

/-- How many turns a regrade has had that were of use. -/
def Progress.turns : Progress ν → Nat
  | .waiting => 0
  | .loaded _ => 1
  | .replayed _ _ => 2
  | .finished _ => 3

section Finish

variable (bank : Bank ν) (registry : Registry) (draws : String → Nat → Draw) (v : String)

lemma le_turns_next (r : Regrades ν) (v' : String) :
    min 3 ((r.progress v).turns + if v' = v then 1 else 0) ≤
      ((r.next bank registry draws v').progress v).turns := by
  by_cases hv : v' = v
  · subst hv
    rw [if_pos rfl]
    simp only [next, Function.update_self]
    cases r.progress v' with
    | waiting =>
      simp only [move]
      cases (Store.load v' bank registry r.store).result <;> simp [Progress.turns]
    | loaded u =>
      simp only [move]
      cases (Usage.regradeAll (draws v') u).result <;> simp [Progress.turns]
    | replayed u w => simp [move, Progress.turns]
    | finished result => simp [move, Progress.turns]
  · rw [if_neg hv]
    simp only [next, Function.update_of_ne (Ne.symm hv)]
    exact min_le_right _ _

lemma le_turns_run (r : Regrades ν) (order : List String) :
    min 3 ((r.progress v).turns + order.count v) ≤
      ((r.run bank registry draws order).progress v).turns := by
  induction order generalizing r with
  | nil => exact min_le_right _ _
  | cons v' rest ih =>
    have hnext := le_turns_next bank registry draws v r v'
    have hrest := ih (r.next bank registry draws v')
    simp only [List.count_cons, beq_iff_eq]
    exact le_trans (by omega) hrest

variable {bank registry draws v} in
/-- A regrade is finished after three turns, whatever the others do. -/
theorem done_of_turns {r : Regrades ν} {order : List String} (h : 3 ≤ order.count v) :
    (r.run bank registry draws order).Done v := by
  have hturns := le_turns_run bank registry draws v r order
  unfold Done
  cases hp : (r.run bank registry draws order).progress v with
  | finished result => exact ⟨result, rfl⟩
  | waiting => simp only [hp, Progress.turns] at hturns; omega
  | loaded u => simp only [hp, Progress.turns] at hturns; omega
  | replayed u w => simp only [hp, Progress.turns] at hturns; omega

end Finish
end Regrades
end Assessment
