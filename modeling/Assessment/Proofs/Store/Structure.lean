import Assessment.Command.Ids
import Assessment.Proofs.Store.Place

/-!
# The structure of a usage is stable

What a usage consists of is recorded several times over: the slots by the usage and by its attempts,
its id by the attempts as well, which name their fields by it, the ids of attempts in memory and in the
tables, and who is told of changes by the usage and by each attempt.  A first save, a save that is
rolled back, a load and a replay that puts a new attempt in a slot all rewrite some of it.

Stores are looked at that are reached without deleting from them (`Store.Grown`), together with every
state that usages were in, so one usage may be in memory in several states that were saved or loaded at
different times.  A state is in place as long as it lives, and so are the tables (`Grown.placed`).  From
this follows that its structure is stable (`Usage.Stable`): slots are counted from one, ids are distinct,
every attempt tells whom the usage tells, and nothing but adding a question changes the number of slots,
the question in one, or the id of an attempt once it has one.
-/

namespace Assessment

variable {ν : Type}

/-! ## Saves -/

/-- A save keeps the tables in place, the usage that is saved, and every other state of a usage. -/
lemma Store.Owned.placed_save {owner : String → String} {s : Store ν} {u : Usage ν}
    (hs : s.Owned owner) (howned : u.Owned owner s.supply) (htables : s.tables.Placed)
    (hu : u.Placed s.tables) :
    (Store.save (u, s)).state.2.tables.Placed ∧
      (Store.save (u, s)).state.1.Placed (Store.save (u, s)).state.2.tables ∧
      ∀ v : Usage ν, v.Placed s.tables → v.Placed (Store.save (u, s)).state.2.tables := by
  obtain ⟨e, hr, -, hstate⟩ | ⟨plan, hok, -, hstate⟩ := Usage.save_cases (u := u) hs.backend
  · rw [hstate, (Usage.prepare_undone howned.sound s.supply).1 e hr]
    exact ⟨htables, hu, fun v hv => hv⟩
  · obtain ⟨⟨_, uid, hsaving⟩, hplaced⟩ := Saving.placed_prepare howned hu.rooted htables.inPlace
      (fun r hr => (hs.past.attempts r hr).1) hok
    have hslots := Usage.slots_prepare howned.sound hok
    have hrows := Tables.exists_mem_attempts_apply hplaced.inPlace
    have hsettled : (Usage.prepare (u, s.supply)).state.1.settle.Rooted
        (s.tables.apply plan.write).attempts :=
      (hplaced.rooted.of_rows hrows).congr (Usage.id_settle _) (Usage.layout_settle _)
    have hgapless : Gapless (Usage.prepare (u, s.supply)).state.1.slots := hslots ▸ hu.gapless
    have hgapless' : Gapless (Usage.prepare (u, s.supply)).state.1.settle.slots := by
      rwa [Usage.slots_settle]
    rw [hstate]
    refine ⟨htables.apply hplaced.inPlace hplaced.rooted (Usage.numbered_prepare howned.sound hok)
      hgapless fun r hr => ⟨?_, ?_⟩, ⟨hsettled, hgapless'⟩, fun v hv => ?_⟩
    · exact (hsaving.write.rows r hr).2.1.trans (congrArg UsageId.text hsaving.id).symm
    · obtain ⟨a, ha, -⟩ := hplaced.written r hr
      exact SortedMap.mem_keys_iff.2 ⟨a, ha⟩
    · exact ⟨(hv.rooted.of_subset (List.subset_append_left _ _)).of_rows hrows, hv.gapless⟩

/-- A usage that has all stored attempts, or is not stored, has all stored attempts after a save. -/
lemma Store.Owned.covers_save {owner : String → String} {s : Store ν} {u : Usage ν}
    (hs : s.Owned owner) (howned : u.Owned owner s.supply) (htables : s.tables.Placed)
    (hu : u.Placed s.tables) (hok : (Store.save (u, s)).result = .ok ())
    (hcovers : u.id.isStored = true → u.Covers s.tables) :
    (Store.save (u, s)).state.1.Covers (Store.save (u, s)).state.2.tables := by
  obtain ⟨e, -, herror, -⟩ | ⟨plan, hprepared, -, hstate⟩ := Usage.save_cases (u := u) hs.backend
  · rw [herror] at hok
    cases hok
  · obtain ⟨-, hplaced⟩ := Saving.placed_prepare howned hu.rooted htables.inPlace
      (fun r hr => (hs.past.attempts r hr).1) hprepared
    obtain ⟨uid, _, huid, -, hsaving⟩ := Saving.owned_prepare howned hprepared
    rw [hstate]
    refine Usage.Covers.settle fun r hr husage => ?_
    obtain hr | hr := List.mem_append.1 (Tables.mem_attempts_apply hr)
    · obtain hid | ⟨-, hcome⟩ := huid
      · have hsame : (Usage.prepare (u, s.supply)).state.1.id.text = u.id.text := by
          rw [hid]
          exact congrArg UsageId.text hsaving.id
        obtain ⟨slot, a, ha, haid⟩ := hcovers (by rw [hid]; rfl) r hr (husage.trans hsame)
        obtain ⟨b, hb, hids, -⟩ := (Usage.matches_prepare howned.sound hprepared).get?_eq_some ha
        exact ⟨slot, b, hb, hids _ haid⟩
      · -- no row names a usage that was not stored
        have hcome' : s.supply.ToCome r.usageId := by
          rw [husage]
          exact (congrArg UsageId.text hsaving.id) ▸ hcome
        exact absurd hcome' (hs.past.attempts r hr).2
    · obtain ⟨a, ha, haid⟩ := hplaced.written r hr
      exact ⟨r.slot, a, ha, haid⟩

/-! ## Stores that only grow -/

namespace Store

/-- The stores that are reached from an empty one in memory without deleting, with the usages in
memory. -/
inductive Grown [Scalar ν] : Store ν → List (Usage ν) → Prop
  | empty [IdSource] : Grown (Store.empty .memory) []
  | make {s : Store ν} {us : List (Usage ν)} (h : Grown s us)
    {token plugin context preferred : String} {registry : Registry} {u : Usage ν}
    (hu : Usage.new token plugin context preferred registry = .ok u) : Grown s (u :: us)
  | load {s : Store ν} {us : List (Usage ν)} (h : Grown s us) {usageId : String} {bank : Bank ν}
    (hbank : bank.IsKeyed) {registry : Registry} {u : Usage ν}
    (hu : (Store.load usageId bank registry s).result = .ok u) : Grown s (u :: us)
  | operation {s : Store ν} {us : List (Usage ν)} (h : Grown s us) {u : Usage ν} (hu : u ∈ us)
    (o : Usage.Operation ν) : Grown s (o.after u :: us)
  | save {s : Store ν} {us : List (Usage ν)} (h : Grown s us) {u : Usage ν} (hu : u ∈ us) :
    Grown (Store.save (u, s)).state.2 ((Store.save (u, s)).state.1 :: us)
  | abort {s : Store ν} {us : List (Usage ν)} (h : Grown s us) {u : Usage ν} (hu : u ∈ us)
    {plan : Plan ν} (hok : (Usage.prepare (u, s.supply)).result = .ok plan) :
    Grown { s with supply := (Usage.prepare (u, s.supply)).state.2 }
      ((Usage.prepare (u, s.supply)).state.1.abort plan :: us)
  | setMaxMark {s : Store ν} {us : List (Usage ν)} (h : Grown s us) (ids : List String)
    (slot : Nat) (m : ν) : Grown (Store.setMaxMark ids slot m s).state us

namespace Grown

variable [Scalar ν] {s : Store ν} {us : List (Usage ν)}

lemma reached (h : Grown s us) : Reached s us := by
  induction h with
  | empty => exact .empty
  | make _ hu ih => exact ih.make hu
  | load _ _ hu ih => exact ih.load hu
  | operation _ hu o ih => exact ih.operation hu o
  | save _ hu ih => exact ih.save hu
  | abort _ hu hok ih => exact ih.abort hu hok
  | setMaxMark _ ids slot m ih => exact ih.setMaxMark ids slot m

/-- The tables are in place, and so is every usage in memory. -/
theorem placed (h : Grown s us) : s.tables.Placed ∧ ∀ u ∈ us, u.Placed s.tables := by
  induction h with
  | empty =>
    refine ⟨⟨fun r hr => absurd hr List.not_mem_nil, fun usageId slot hslot => ?_⟩, by simp⟩
    exact absurd hslot List.not_mem_nil
  | make _ hu ih =>
    refine ⟨ih.1, List.forall_mem_cons.2 ⟨?_, ih.2⟩⟩
    rw [Usage.eq_of_new hu]
    exact ⟨fun slot id questionId hentry => by simp [Usage.get?_layout] at hentry,
      fun slot hslot => absurd hslot List.not_mem_nil⟩
  | load _ hbank hu ih =>
    exact ⟨ih.1, List.forall_mem_cons.2 ⟨Usage.placed_of_load hbank ih.1 hu, ih.2⟩⟩
  | operation h hu o ih =>
    obtain ⟨owner, -, howned⟩ := h.reached.owned
    exact ⟨ih.1, List.forall_mem_cons.2 ⟨(ih.2 _ hu).operation (howned _ hu).sound o, ih.2⟩⟩
  | save h hu ih =>
    obtain ⟨owner, hs, howned⟩ := h.reached.owned
    obtain ⟨htables, hsaved, hothers⟩ := hs.placed_save (howned _ hu) ih.1 (ih.2 _ hu)
    exact ⟨htables, List.forall_mem_cons.2 ⟨hsaved, fun v hv => hothers v (ih.2 v hv)⟩⟩
  | @abort s us h u hu plan hok ih =>
    obtain ⟨owner, -, howned⟩ := h.reached.owned
    rw [(Usage.prepare_undone (howned u hu).sound s.supply).2 plan hok]
    exact ⟨ih.1, List.forall_mem_cons.2 ⟨ih.2 u hu, ih.2⟩⟩
  | @setMaxMark s us h ids slot m ih =>
    obtain ⟨owner, hs, -⟩ := h.reached.owned
    obtain ⟨hforth, -⟩ := s.tables.exists_mem_attempts_setMaxMark ids slot m
    rw [(hs.setMaxMark ids slot m).1]
    exact ⟨ih.1.setMaxMark ids slot m, fun u hu =>
      ⟨(ih.2 u hu).rooted.of_rows hforth, (ih.2 u hu).gapless⟩⟩

end Grown
end Store

/-! ## Stable usages -/

lemma UsageId.eq_of_text {id id' : UsageId} (h : id.isStored = true) (h' : id'.isStored = true)
    (htext : id'.text = id.text) : id' = id := by
  cases id with
  | ephemeral token => cases h
  | stored i =>
    cases id' with
    | ephemeral token => cases h'
    | stored j => exact congrArg UsageId.stored htext

/-- Every attempt tells its changes to the usage's own observer. -/
def Usage.SharesObserver (u : Usage ν) : Prop :=
  ∀ {slot a}, u.attempts.get? slot = some a → a.observer = u.observer

/-- A usage in memory, among others, that has its structure and keeps it whatever is done next. -/
structure Usage.Stable [Scalar ν] (s : Store ν) (us : List (Usage ν)) (u : Usage ν) : Prop where
  slots : u.slots = List.range' 1 u.slots.length
  -- the fields of an attempt are those of its slot in this usage
  attempts : ∀ {slot a}, u.attempts.get? slot = some a →
    a.slot = slot ∧ a.usageId = u.id.text ∧ a.stem = Attempt.stemOf u.id.text slot
  -- only a save can change who is told, and then all attempts follow
  observer : u.SharesObserver
  observerAfter : ∀ o : Operation ν, (o.after u).SharesObserver ∧ (o.after u).observer = u.observer
  observerSaved : (Store.save (u, s)).state.1.SharesObserver ∧
    ((Store.save (u, s)).result = .ok () → (Store.save (u, s)).state.1.observer = .changes)
  observerLoaded : ∀ {bank : Bank ν} {registry : Registry} {v : Usage ν},
    (Store.load u.id.text bank registry s).result = .ok v → v.SharesObserver ∧ v.observer = .changes
  -- within the usage an id is that of one attempt, and any usage that has it has the same attempt there
  distinct : ∀ v ∈ us, ∀ {slot slot' a b id}, u.attempts.get? slot = some a →
    v.attempts.get? slot' = some b → a.id = some id → b.id = some id →
      v.id = u.id ∧ slot' = slot ∧ b.question.id = a.question.id
  -- the layout stays, and every attempt that changes tells this usage
  operation : ∀ o : Operation ν, o.isAdd = false → u.Reports (o.after u) (o.events u)
  add : ∀ (question : Question ν) (maxMark : Option ν),
    let o : Operation ν := .add question maxMark
    (o.after u).layout = u.layout.insert (u.slots.length + 1) (none, question.id) ∧
      (o.after u).pending = u.pending.map (fun changes => changes.noteAll (o.events u)) ∧
      ∀ slot, (o.after u).attempts.get? slot ≠ u.attempts.get? slot →
        ∃ n ∈ Event.notices (o.events u), n.slot? = some slot
  failedSave : ∀ e, (Store.save (u, s)).result = .error e → (Store.save (u, s)).state.1 = u
  save : (Store.save (u, s)).result = .ok () →
    u.layout.Matches Continues (Store.save (u, s)).state.1.layout ∧
      (Store.save (u, s)).state.1.Numbered ∧
      ((u.id.isStored = true → u.Covers s.tables) →
        (Store.save (u, s)).state.1.Covers (Store.save (u, s)).state.2.tables)
  abort : ∀ plan, (prepare (u, s.supply)).result = .ok plan →
    (prepare (u, s.supply)).state.1.abort plan = u
  -- a load loses what is not saved and brings in what another state of the usage has saved
  load : u.Numbered → u.Covers s.tables →
    ∀ {bank : Bank ν} {registry : Registry} {v : Usage ν}, bank.IsKeyed →
      (Store.load u.id.text bank registry s).result = .ok v → v.layout = u.layout

/-- The structure of every usage in memory is stable. -/
theorem Store.structure_stable [Scalar ν] {s : Store ν} {us : List (Usage ν)} (h : Grown s us)
    {u : Usage ν} (hu : u ∈ us) : u.Stable s us := by
  obtain ⟨htables, hplaced⟩ := h.placed
  obtain ⟨owner, hs, howned⟩ := h.reached.owned
  have hsound := (howned u hu).sound
  have hadd := fun question maxMark => Usage.add_spec (hplaced u hu).gapless question maxMark
  obtain ⟨herror, habort⟩ := Usage.prepare_undone hsound s.supply
  refine
    { slots := (hplaced u hu).gapless.eq_range u.pairwise_slots
      attempts := fun ha => ?_
      observer := hsound.observer
      observerAfter := fun o =>
        ⟨((o.after_steps u).sound hsound).observer, (o.after_steps u).observer_eq⟩
      observerSaved := ⟨(hsound.save hs.backend).observer, Usage.observer_of_save hs.backend⟩
      observerLoaded := fun hload =>
        ⟨(Usage.sound_of_load hload).observer, Usage.observer_of_load hload⟩
      distinct := fun v hv slot slot' a b id ha hb hid hid' => ?_
      operation := fun o ho => Usage.Operation.reports ho hsound
      add := fun question maxMark => ⟨(hadd question maxMark).1, (hadd question maxMark).2.1,
        (hadd question maxMark).2.2.1⟩
      failedSave := fun e he => ?_
      save := fun hok => ?_
      abort := habort
      load := fun hnumbered hcovers bank registry v hbank hload =>
        (hplaced u hu).layout_load hbank htables hnumbered hcovers hload }
  · refine ⟨hsound.slot ha, hsound.usageId ha, ?_⟩
    rw [Attempt.stem, hsound.slot ha, hsound.usageId ha]
  · have hentry := Usage.get?_layout_of_some ha
    have hentry' := Usage.get?_layout_of_some hb
    rw [hid] at hentry
    rw [hid'] at hentry'
    obtain ⟨htext, hslot, hquestion⟩ := (hplaced u hu).sameEntry htables (hplaced v hv) hentry hentry'
    refine ⟨?_, hslot, hquestion⟩
    exact UsageId.eq_of_text ((howned u hu).attempts ha hid).1 ((howned v hv).attempts hb hid').1 htext
  · obtain ⟨e', hr, -, hstate⟩ | ⟨plan, -, hok, -⟩ := Usage.save_cases (u := u) hs.backend
    · rw [hstate]
      exact herror e' hr
    · rw [hok] at he
      cases he
  · obtain ⟨e, -, herror, -⟩ | ⟨plan, hprepared, -, hstate⟩ := Usage.save_cases (u := u) hs.backend
    · rw [herror] at hok
      cases hok
    · have hcovers := hs.covers_save (howned u hu) htables (hplaced u hu) hok
      rw [hstate] at hcovers ⊢
      refine ⟨?_, Usage.numbered_settle (Usage.numbered_prepare hsound hprepared), hcovers⟩
      rw [Usage.layout_settle]
      exact Usage.continues_prepare hsound hprepared

/-- Two questions are added, started and saved, and the usage is loaded again.  The load has the layout
of what was saved, and both states are stable. -/
theorem Store.structure_stable_example :
    let question (id : String) : Question Float := .trueFalse (TrueFalse.new id "The sky is blue" true)
    let blank : Usage Float :=
      ⟨.ephemeral "t", "quiz", "course", "deferredfeedback", SortedMap.empty, Registry.standard, none⟩
    let added := (Usage.Operation.add (question "q2") none).after
      ((Usage.Operation.add (question "q1") none).after blank)
    let started := (Usage.Operation.startAll ⟨0⟩ none fun _ => ⟨0, 0⟩).after added
    let saved := (Store.save (started, Store.empty .memory)).state
    let bank : Bank Float :=
      .memory (SortedMap.ofList [("q1", question "q1"), ("q2", question "q2")])
    ∃ loaded us, (Store.load saved.1.id.text bank Registry.standard saved.2).result = .ok loaded ∧
      saved.1.slots = [1, 2] ∧ loaded.layout = saved.1.layout ∧
      loaded.Stable saved.2 (loaded :: saved.1 :: us) ∧
      saved.1.Stable saved.2 (loaded :: saved.1 :: us) := by
  intro question blank added started saved bank
  have hnew : Usage.new "t" "quiz" "course" "deferredfeedback" Registry.standard = .ok blank := rfl
  have hbank : bank.IsKeyed := fun id q hq => by
    have hmem := SortedMap.mem_of_get?_ofList hq
    simp only [List.mem_cons, Prod.mk.injEq, List.not_mem_nil, or_false] at hmem
    obtain ⟨rfl, rfl⟩ | ⟨rfl, rfl⟩ := hmem <;> rfl
  obtain ⟨us, hstarted⟩ : ∃ us, Grown (Store.empty .memory) (started :: us) :=
    ⟨_, .operation (.operation (.operation (.make .empty hnew) List.mem_cons_self _)
      List.mem_cons_self _) List.mem_cons_self _⟩
  have hsaved : Grown saved.2 (saved.1 :: started :: us) := hstarted.save List.mem_cons_self
  have hok : (Store.load saved.1.id.text bank Registry.standard saved.2).result.isOk = true := by
    decide +kernel
  obtain ⟨loaded, hload⟩ : ∃ v,
      (Store.load saved.1.id.text bank Registry.standard saved.2).result = .ok v := by
    cases h : (Store.load saved.1.id.text bank Registry.standard saved.2).result with
    | error e => simp [h, Except.isOk, Except.toBool] at hok
    | ok v => exact ⟨v, rfl⟩
  have hloaded := hsaved.load hbank hload
  have hstable := structure_stable hloaded (List.mem_cons_of_mem _ List.mem_cons_self)
  obtain ⟨-, hnumbered, hcovers⟩ := (structure_stable hstarted List.mem_cons_self).save
    (by decide +kernel)
  refine ⟨loaded, started :: us, hload, by decide +kernel, ?_,
    structure_stable hloaded List.mem_cons_self, hstable⟩
  exact hstable.load hnumbered (hcovers fun hstored => absurd hstored (by decide +kernel)) hbank hload

end Assessment
