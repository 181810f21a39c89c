import Assessment.Command.Ids
import Assessment.Proofs.Store.OwnedWrite

/-!
# Usages in one store do not interfere

A store is reached together with the usages that are in memory (`Store.Reached`): usages are made and
loaded, operated on and saved, and stored ones are deleted or get other marks.  A usage in memory is
never taken away: every state of it stays, so the same stored usage may be held several times, also in
states that are out of date or after it was deleted.

Of all this the invariant says only whose ids are whose (`Store.Owned`, `Usage.Owned`): every id of an
attempt, stored or in memory, belongs to one usage.  It does not say that what is in memory agrees with
what is stored, which need not be so.  Hence saving a usage, deleting one, and setting marks leave
what the store says of every other usage, and deleting a usage leaves nothing of it
(`Store.usages_apart`).
-/

namespace Assessment

variable {ν : Type}

/-! ## What a store says of a usage -/

/-- Two stores say the same of a usage: a load gives the same usage or fails alike, whatever the bank
and the behaviours on offer, and as many steps are counted. -/
structure Store.SameFor (usageId : String) (s s' : Store ν) : Prop where
  load : ∀ (bank : Bank ν) (registry : Registry),
    (Store.load usageId bank registry s').result = (Store.load usageId bank registry s).result
  stepCount : s'.stepCount usageId = s.stepCount usageId

/-- Making attempts of rows does not look at the state. -/
lemma Tables.result_attemptsOfRows {σ : Type} (bank : Bank ν) (registry : Registry)
    (preferred : String) (steps : List (String × Step ν)) (rows : List (AttemptRow ν)) (s s' : σ) :
    (attemptsOfRows bank registry preferred steps rows s').result =
      (attemptsOfRows bank registry preferred steps rows s).result := by
  induction rows generalizing steps s s' with
  | nil => rfl
  | cons row rest ih =>
    have hquestion : (questionOfRow bank row s').result = (questionOfRow bank row s).result := by
      unfold questionOfRow Op.mapFailure Bank.question
      cases bank with
      | memory questions =>
        simp only
        cases questions.get? row.questionId <;> rfl
      | unreachable => rfl
    unfold attemptsOfRows
    cases hq : (questionOfRow bank row s).result with
    | error e => rw [Op.bind_of_error hq, Op.bind_of_error (hquestion.trans hq)]
    | ok question =>
      rw [Op.bind_of_ok hq, Op.bind_of_ok (hquestion.trans hq)]
      have hrest := ih (steps.filter fun e => e.1 != row.id) (questionOfRow bank row s).state
        (questionOfRow bank row s').state
      cases hr : (attemptsOfRows bank registry preferred (steps.filter fun e => e.1 != row.id) rest
          (questionOfRow bank row s).state).result with
      | error e => simp only [Op.bind_of_error hr, Op.bind_of_error (hrest.trans hr)]
      | ok attempts => simp only [Op.bind_of_ok hr, Op.bind_of_ok (hrest.trans hr), Op.pure_apply]

/-- A store says the same of a usage whose rows are the same. -/
lemma Tables.SameRows.sameFor {usageId : String} {s s' : Store ν}
    (h : SameRows usageId s.tables s'.tables) (hbackend : s'.backend = s.backend) :
    Store.SameFor usageId s s' where
  load := by
    intro bank registry
    unfold Store.load
    rw [hbackend, h.usage]
    cases s.backend with
    | unreachable => rfl
    | memory =>
      cases hfind : s.tables.usages.find? fun row => row.id == usageId with
      | none => rfl
      | some row =>
        have hid : row.id = usageId := by simpa using List.find?_some hfind
        have hattempts := Tables.result_attemptsOfRows bank registry row.preferred
          (orderedSteps (s.tables.rowsOf row).steps (s.tables.rowsOf row).vars)
          (s.tables.rowsOf row).attempts s s'
        simp only [h.rows row hid, Usage.assemble]
        cases hr : (attemptsOfRows bank registry row.preferred
            (orderedSteps (s.tables.rowsOf row).steps (s.tables.rowsOf row).vars)
            (s.tables.rowsOf row).attempts s).result with
        | error e => rw [Op.bind_of_error hr, Op.bind_of_error (hattempts.trans hr)]
        | ok attempts =>
          simp only [Op.bind_of_ok hr, Op.bind_of_ok (hattempts.trans hr), Op.pure_apply]
  stepCount := h.stepCount

/-! ## Owned stores -/

/-- A store in memory whose rows belong together and in which no id is to come. -/
structure Store.Owned (owner : String → String) (s : Store ν) : Prop where
  backend : s.backend = .memory
  tables : s.tables.Owned owner
  past : s.supply.Past s.tables
  usages : ∀ row ∈ s.tables.usages, ¬ s.supply.ToCome row.id

/-- Whether a store has a usage. -/
def Store.Has (s : Store ν) (usageId : String) : Prop := ∃ row ∈ s.tables.usages, row.id = usageId

namespace Store

variable {owner : String → String} {s : Store ν}

lemma owned_empty [IdSource] (owner : String → String) :
    (Store.empty (ν := ν) .memory).Owned owner := by
  refine ⟨rfl, ?_, ?_, ?_⟩
  · constructor <;> simp [Store.empty, Tables.empty]
  · constructor <;> simp [Store.empty, Tables.empty]
  · simp [Store.empty, Tables.empty]

namespace Owned

/-- Ids are issued and not used. -/
lemma supply (h : s.Owned owner) {supply : Supply} (hle : s.supply ≤ supply)
    {owner' : String → String} (hsame : ∀ id, ¬ s.supply.ToCome id → owner' id = owner id) :
    Owned owner' { s with supply := supply } where
  backend := h.backend
  tables := h.tables.congr fun r hr => hsame r.id (h.past.attempts r hr).1
  past := h.past.mono hle
  usages := fun row hrow hcome => h.usages row hrow (hcome.mono hle)

/-- A usage is deleted. -/
lemma delete (h : s.Owned owner) (uid : String) :
    (Store.delete uid s).state = { s with tables := s.tables.delete uid } ∧
      (Store.delete uid s).state.Owned owner := by
  have hstate : (Store.delete uid s).state = { s with tables := s.tables.delete uid } := by
    simp only [Store.delete, h.backend]
  rw [hstate]
  exact ⟨rfl, h.backend, h.tables.delete uid, h.past.delete uid,
    fun row hrow => h.usages row (List.mem_filter.1 hrow).1⟩

/-- Marks are set. -/
lemma setMaxMark (h : s.Owned owner) (ids : List String) (slot : Nat) (m : ν) :
    (Store.setMaxMark ids slot m s).state = { s with tables := s.tables.setMaxMark ids slot m } ∧
      (Store.setMaxMark ids slot m s).state.Owned owner := by
  have hstate : (Store.setMaxMark ids slot m s).state =
      { s with tables := s.tables.setMaxMark ids slot m } := by
    simp only [Store.setMaxMark, h.backend]
  rw [hstate]
  exact ⟨rfl, h.backend, h.tables.setMaxMark ids slot m, h.past.setMaxMark ids slot m, h.usages⟩

/-- The id of a stored usage is not issued again. -/
lemma not_toCome (h : s.Owned owner) {v : String} (hv : s.Has v) : ¬ s.supply.ToCome v := by
  obtain ⟨row, hrow, rfl⟩ := hv
  exact h.usages row hrow

/-- What a save leaves: an owned usage, an owned store, and what the store said of the other
usages. -/
theorem save (h : s.Owned owner) {u : Usage ν} (hu : u.Owned owner s.supply) :
    (∃ owner', (∀ id, ¬ s.supply.ToCome id → owner' id = owner id) ∧
      (Store.save (u, s)).state.1.Owned owner' (Store.save (u, s)).state.2.supply ∧
      (Store.save (u, s)).state.2.Owned owner') ∧
    s.supply ≤ (Store.save (u, s)).state.2.supply ∧
    (Store.save (u, s)).state.2.backend = s.backend ∧
    ∀ v, ¬ s.supply.ToCome v → u.id ≠ .stored v →
      Tables.SameRows v s.tables (Store.save (u, s)).state.2.tables := by
  have hle := u.le_prepare s.supply
  cases hr : (Usage.prepare (u, s.supply)).result with
  | error e =>
    have hstate : (Store.save (u, s)).state =
        (u, { s with supply := (Usage.prepare (u, s.supply)).state.2 }) := by
      simp only [Store.save, hr, (Usage.prepare_undone hu.sound s.supply).1 e hr]
    rw [hstate]
    exact ⟨⟨owner, fun _ _ => rfl, hu.mono hle fun _ _ => rfl, h.supply hle fun _ _ => rfl⟩, hle, rfl,
      fun v _ _ => .refl v _⟩
  | ok plan =>
    have hstate : (Store.save (u, s)).state = ((Usage.prepare (u, s.supply)).state.1.settle,
        { s with
          supply := (Usage.prepare (u, s.supply)).state.2
          tables := s.tables.apply plan.write }) := by
      simp only [Store.save, hr, h.backend]
    obtain ⟨uid, owner', huid, hsame, howned⟩ := Saving.owned_prepare hu hr
    have htables := h.tables.congr fun r hr => hsame r.id (h.past.attempts r hr).1
    have hnamed : ¬ (Usage.prepare (u, s.supply)).state.2.ToCome uid := by
      have hnamed := howned.usage.named (congrArg UsageId.isStored howned.id)
      rwa [howned.id] at hnamed
    rw [hstate]
    refine ⟨⟨owner', hsame, howned.usage.settle,
      h.backend, htables.apply h.past howned.write,
      htables.past_apply h.past howned.write hle hnamed, fun row hrow => ?_⟩, hle, rfl,
      fun v hv hne => htables.sameRows_apply h.past howned.write ?_⟩
    · rw [Tables.usages_apply] at hrow
      cases husage : plan.write.usage with
      | none =>
        rw [husage] at hrow
        exact fun hcome => h.usages row hrow (hcome.mono hle)
      | some row' =>
        rw [husage, Option.elim_some, Tables.replaceRow, List.mem_append, List.mem_filter,
          List.mem_singleton] at hrow
        obtain ⟨hrow, -⟩ | rfl := hrow
        · exact fun hcome => h.usages row hrow (hcome.mono hle)
        · rwa [howned.write.usage row husage]
    · -- the usage is stored under its own id, or under one that no row has yet
      rintro rfl
      obtain hid | ⟨-, hcome⟩ := huid
      · exact hne hid
      · exact hv hcome

end Owned

/-! ## Reached stores -/

/-- The stores that are reached from an empty one in memory, with the usages in memory. -/
inductive Reached [Scalar ν] : Store ν → List (Usage ν) → Prop
  | empty [IdSource] : Reached (Store.empty .memory) []
  | make {s : Store ν} {us : List (Usage ν)} (h : Reached s us)
    {token plugin context preferred : String} {registry : Registry} {u : Usage ν}
    (hu : Usage.new token plugin context preferred registry = .ok u) : Reached s (u :: us)
  | load {s : Store ν} {us : List (Usage ν)} (h : Reached s us) {usageId : String} {bank : Bank ν}
    {registry : Registry} {u : Usage ν} (hu : (Store.load usageId bank registry s).result = .ok u) :
    Reached s (u :: us)
  | operation {s : Store ν} {us : List (Usage ν)} (h : Reached s us) {u : Usage ν} (hu : u ∈ us)
    (o : Usage.Operation ν) : Reached s (o.after u :: us)
  | save {s : Store ν} {us : List (Usage ν)} (h : Reached s us) {u : Usage ν} (hu : u ∈ us) :
    Reached (Store.save (u, s)).state.2 ((Store.save (u, s)).state.1 :: us)
  | prepare {s : Store ν} {us : List (Usage ν)} (h : Reached s us) {u : Usage ν} (hu : u ∈ us) :
    Reached { s with supply := (Usage.prepare (u, s.supply)).state.2 }
      ((Usage.prepare (u, s.supply)).state.1 :: us)
  | abort {s : Store ν} {us : List (Usage ν)} (h : Reached s us) {u : Usage ν} (hu : u ∈ us)
    {plan : Plan ν} (hok : (Usage.prepare (u, s.supply)).result = .ok plan) :
    Reached { s with supply := (Usage.prepare (u, s.supply)).state.2 }
      ((Usage.prepare (u, s.supply)).state.1.abort plan :: us)
  | delete {s : Store ν} {us : List (Usage ν)} (h : Reached s us) (uid : String) :
    Reached (Store.delete uid s).state us
  | setMaxMark {s : Store ν} {us : List (Usage ν)} (h : Reached s us) (ids : List String)
    (slot : Nat) (m : ν) : Reached (Store.setMaxMark ids slot m s).state us

/-- The usages in memory after one joined them, perhaps after ids were issued. -/
lemma owned_join {owner owner' : String → String} {supply supply' : Supply} {us : List (Usage ν)}
    (h : ∀ u ∈ us, u.Owned owner supply) {u : Usage ν} (hu : u.Owned owner' supply')
    (hle : supply ≤ supply')
    (hsame : ∀ id, ¬ supply.ToCome id → owner' id = owner id) :
    ∀ u' ∈ u :: us, u'.Owned owner' supply' :=
  List.forall_mem_cons.2 ⟨hu, fun u' hu' => (h u' hu').mono hle hsame⟩

/-- In a reached store, and in memory, every id of an attempt belongs to one usage. -/
theorem Reached.owned [Scalar ν] {us : List (Usage ν)} (h : Reached s us) :
    ∃ owner, s.Owned owner ∧ ∀ u ∈ us, u.Owned owner s.supply := by
  induction h with
  | empty => exact ⟨id, owned_empty id, by simp⟩
  | make _ hu ih =>
    obtain ⟨owner, hs, hus⟩ := ih
    exact ⟨owner, hs, owned_join hus (Usage.owned_of_new hu owner _) (le_rfl) fun _ _ => rfl⟩
  | load _ hu ih =>
    obtain ⟨owner, hs, hus⟩ := ih
    have howned := Usage.owned_of_load hu hs.tables hs.past hs.usages
    exact ⟨owner, hs, owned_join hus howned (le_rfl) fun _ _ => rfl⟩
  | operation _ hu o ih =>
    obtain ⟨owner, hs, hus⟩ := ih
    exact ⟨owner, hs, owned_join hus ((hus _ hu).operation o) (le_rfl) fun _ _ => rfl⟩
  | save _ hu ih =>
    obtain ⟨owner, hs, hus⟩ := ih
    obtain ⟨⟨owner', hsame, hu', hs'⟩, hle, -, -⟩ := hs.save (hus _ hu)
    exact ⟨owner', hs', owned_join hus hu' hle hsame⟩
  | @prepare s us _ u hu ih =>
    obtain ⟨owner, hs, hus⟩ := ih
    obtain ⟨owner', hsame, hu'⟩ := (hus _ hu).prepare
    have hle := u.le_prepare s.supply
    exact ⟨owner', hs.supply hle hsame, owned_join hus hu' hle hsame⟩
  | @abort s us _ u hu plan hok ih =>
    obtain ⟨owner, hs, hus⟩ := ih
    have hle := u.le_prepare s.supply
    rw [(Usage.prepare_undone (hus _ hu).sound s.supply).2 plan hok]
    exact ⟨owner, hs.supply hle fun _ _ => rfl,
      owned_join hus ((hus _ hu).mono hle fun _ _ => rfl) hle fun _ _ => rfl⟩
  | delete _ uid ih =>
    obtain ⟨owner, hs, hus⟩ := ih
    obtain ⟨hstate, howned⟩ := hs.delete uid
    exact ⟨owner, howned, by rw [hstate]; exact hus⟩
  | setMaxMark _ ids slot m ih =>
    obtain ⟨owner, hs, hus⟩ := ih
    obtain ⟨hstate, howned⟩ := hs.setMaxMark ids slot m
    exact ⟨owner, howned, by rw [hstate]; exact hus⟩

/-- Usages in one store do not interfere.  Saving any usage in memory, deleting any stored one and
setting marks in any leave what the store says of a stored usage that this is not about; and deleting
a usage leaves no row of it. -/
theorem usages_apart [Scalar ν] {us : List (Usage ν)} (hs : Reached s us) {v : String}
    (hv : s.Has v) :
    (∀ u ∈ us, u.id ≠ .stored v → SameFor v s (Store.save (u, s)).state.2) ∧
    (∀ uid, uid ≠ v → SameFor v s (Store.delete uid s).state) ∧
    (∀ (ids : List String) (slot : Nat) (m : ν), v ∉ ids →
      SameFor v s (Store.setMaxMark ids slot m s).state) ∧
    ∀ uid, Tables.Purged uid s.tables (Store.delete uid s).state.tables := by
  obtain ⟨owner, h, hus⟩ := hs.owned
  refine ⟨fun u hu hne => ?_, fun uid hne => ?_, fun ids slot m hids => ?_, fun uid => ?_⟩
  · obtain ⟨-, -, hbackend, hsame⟩ := h.save (hus u hu)
    exact (hsame v (h.not_toCome hv) hne).sameFor hbackend
  · rw [(h.delete uid).1]
    exact (h.tables.sameRows_delete hne).sameFor rfl
  · rw [(h.setMaxMark ids slot m).1]
    exact (Tables.Owned.sameRows_setMaxMark ids slot m hids).sameFor rfl
  · rw [(h.delete uid).1]
    exact h.tables.purged_delete uid

/-- Two usages are stored.  Saving another step of the first leaves the second, and so does deleting the
first, of which nothing is left. -/
theorem usages_apart_example :
    let question : Question Float := .trueFalse (TrueFalse.new "q1" "The sky is blue" true)
    let blank (token : String) : Usage Float :=
      ⟨.ephemeral token, "quiz", "course", "deferredfeedback", SortedMap.empty, Registry.standard, none⟩
    let started (token : String) := (Usage.Operation.start 1 ⟨0⟩ none ⟨0, 0⟩).after
      ((Usage.Operation.add question none).after (blank token))
    let first := (Store.save (started "s", Store.empty .memory)).state
    let second := (Store.save (started "t", first.2)).state
    let acted := (Usage.Operation.act 1 (SortedMap.ofList [("answer", "1")]) ⟨1000⟩ none).after first.1
    let saved := (Store.save (acted, second.2)).state.2
    let deleted := (Store.delete first.1.id.text second.2).state
    saved.stepCount first.1.id.text = 2 ∧ saved.stepCount second.1.id.text = 1 ∧
      SameFor second.1.id.text second.2 saved ∧ SameFor second.1.id.text second.2 deleted ∧
      Tables.Purged first.1.id.text second.2.tables deleted.tables := by
  intro question blank started first second acted saved deleted
  have hstarted : ∀ {s us} token, Reached s us → ∃ us', Reached s (started token :: us') ∧
      ∀ u ∈ us, u ∈ us' := by
    intro s us token h
    have hnew : Usage.new token "quiz" "course" "deferredfeedback" Registry.standard =
        .ok (blank token) := rfl
    exact ⟨_, .operation (.operation (.make h hnew) List.mem_cons_self _) List.mem_cons_self _,
      fun u hu => List.mem_cons_of_mem _ (List.mem_cons_of_mem _ hu)⟩
  obtain ⟨us, hus, -⟩ := hstarted "s" .empty
  have hfirst : Reached first.2 (first.1 :: started "s" :: us) := hus.save List.mem_cons_self
  obtain ⟨us', hus', hmem⟩ := hstarted "t" hfirst
  have hsecond : Reached second.2 (second.1 :: started "t" :: us') := hus'.save List.mem_cons_self
  have hacted : Reached second.2 (acted :: second.1 :: started "t" :: us') :=
    hsecond.operation (List.mem_cons_of_mem _ (List.mem_cons_of_mem _
      (hmem first.1 List.mem_cons_self))) _
  have hstored : second.2.Has second.1.id.text := by
    show ∃ row ∈ second.2.tables.usages, row.id = second.1.id.text
    decide +kernel
  have hne : acted.id ≠ .stored second.1.id.text := by decide +kernel
  have hne' : first.1.id.text ≠ second.1.id.text := by decide +kernel
  obtain ⟨hsave, hdelete, -, hpurged⟩ := usages_apart hacted hstored
  exact ⟨by decide +kernel, by decide +kernel, hsave acted List.mem_cons_self hne,
    hdelete first.1.id.text hne', hpurged first.1.id.text⟩

end Store
end Assessment
