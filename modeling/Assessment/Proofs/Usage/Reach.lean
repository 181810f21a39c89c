import Assessment.Proofs.Store.Collect
import Assessment.Proofs.Usage.Step
import Assessment.Store.Basic

/-!
# Reachable usages

A usage is reached by making it or loading it, by operations, and by preparing saves, settling them
and aborting them (`Usage.Reachable`).  A load may be from any stored rows whatever, and an abort may
be of any plan.  Every reachable usage is sound (`Reachable.sound`).
-/

namespace Assessment

variable {ν : Type}

/-! ## Soundness of saved and loaded usages -/

namespace Attempt

/-- An attempt with other ids for itself and its steps is as sound as it was. -/
lemma Sound.renumber {a : Attempt ν} (ha : a.Sound) (id : Option String) {steps : List (Step ν)}
    (hlength : steps.length = a.steps.length)
    (hsteps : ∀ step ∈ steps, ∃ step' ∈ a.steps, ∃ id, step = { step' with id := id }) :
    Attempt.Sound { a with id := id, steps := steps } where
  minFraction := ha.minFraction
  modified := ha.modified
  steps := fun hne => ha.steps fun hnil => hne (by
    rw [hnil] at hlength
    exact List.eq_nil_of_length_eq_zero hlength)
  readOnly := fun step hstep => by
    obtain ⟨step', hstep', id', rfl⟩ := hsteps step hstep
    exact ha.readOnly step' hstep'

lemma Sound.numbered {a : Attempt ν} (ha : a.Sound) (supply : Supply) :
    (a.numbered supply).Sound :=
  ha.renumber _ length_assignStepIds mem_assignStepIds

lemma Sound.onAttempt {a : Attempt ν} (ha : a.Sound) (undo : Undo) (slot : Nat) :
    (undo.onAttempt slot a).Sound := by
  rw [Undo.onAttempt_eq]
  refine ha.renumber _ (by simp [clearStepIds]) fun step hstep => ?_
  obtain ⟨⟨step', place⟩, hmem, rfl⟩ := List.mem_map.1 hstep
  refine ⟨step', List.fst_mem_of_mem_zipIdx hmem, ?_⟩
  split
  · exact ⟨none, rfl⟩
  · exact ⟨step'.id, rfl⟩

lemma sound_ofRow (row : AttemptRow ν) (q : Question ν) (b : Behaviour) {steps : List (Step ν)}
    (hsteps : ∀ step ∈ steps, step.readOnly = true) : (ofRow row q b steps).Sound :=
  ⟨rfl, rfl, fun _ => rfl, hsteps⟩

end Attempt

namespace Usage

/-- A usage whose attempts are changed one by one, in their slots, under the usage's identity and told
by the usage's observer, is sound if they are. -/
lemma Sound.map {u : Usage ν} (hu : u.Sound) {f : Attempt ν → Attempt ν} (id : UsageId)
    (pending : Option Changes) (hslot : ∀ a, (f a).slot = a.slot)
    (hid : ∀ a, a.usageId = u.id.text → (f a).usageId = id.text)
    (hobserver : ∀ a, a.observer = u.observer →
      (f a).observer =
        Usage.observer { u with id := id, attempts := u.attempts.map f, pending := pending })
    (hsound : ∀ a : Attempt ν, a.Sound → (f a).Sound) :
    Sound { u with id := id, attempts := u.attempts.map f, pending := pending } := by
  have key : ∀ {slot a}, (u.attempts.map f).get? slot = some a →
      ∃ b, u.attempts.get? slot = some b ∧ f b = a := by
    intro slot a h
    rw [SortedMap.get?_map] at h
    exact Option.map_eq_some_iff.1 h
  refine ⟨fun h => ?_, fun h => ?_, fun h => ?_, fun h => ?_⟩
  · obtain ⟨b, hb, rfl⟩ := key h
    exact (hslot b).trans (hu.slot hb)
  · obtain ⟨b, hb, rfl⟩ := key h
    exact hid b (hu.usageId hb)
  · obtain ⟨b, hb, rfl⟩ := key h
    exact hobserver b (hu.observer hb)
  · obtain ⟨b, hb, rfl⟩ := key h
    exact hsound b (hu.attempt hb)

lemma Sound.withId {u : Usage ν} (hu : u.Sound) (id : UsageId) : (u.withId id).Sound :=
  hu.map (f := fun a => { a with usageId := id.text }) id u.pending (fun _ => rfl) (fun _ _ => rfl)
    (fun _ h => h) fun _ ha => ⟨ha.minFraction, ha.modified, ha.steps, ha.readOnly⟩

/-- When the usage begins or ceases to keep track of its changes, its attempts follow. -/
lemma Sound.tracking {u : Usage ν} (hu : u.Sound) (pending : Option Changes) :
    (u.tracking pending).Sound :=
  hu.map (f := fun a => a.observedBy _) u.id pending (fun _ => rfl) (fun _ h => h) (fun _ _ => rfl)
    fun _ ha => ha.observedBy _

lemma Sound.undo {u : Usage ν} (hu : u.Sound) (undo : Undo) : (undo.apply u).Sound := by
  have hattempts : Sound { u with attempts := u.attempts.map fun a => undo.onAttempt a.slot a } :=
    hu.map (f := fun a => undo.onAttempt a.slot a) u.id u.pending
      (fun a => by rw [Undo.onAttempt_eq]) (fun a h => by rw [Undo.onAttempt_eq]; exact h)
      (fun a h => by rw [Undo.onAttempt_eq]; exact h) fun a ha => ha.onAttempt undo a.slot
  unfold Undo.apply
  cases undo.previousId with
  | none => cases undo.taken <;> exact hattempts.withPending (by simp)
  | some id => cases undo.taken <;> exact (hattempts.withId id).withPending (by simp [Usage.withId])

lemma Sound.begin {u : Usage ν} (hu : u.Sound) (supply : Supply) :
    (Saving.begin u supply).usage.Sound := by
  cases h : u.id with
  | stored id =>
    rw [Saving.begin_of_stored h]
    exact hu.withPending (by simp)
  | ephemeral token =>
    rw [Saving.begin_of_ephemeral h]
    exact (hu.withId _).withPending (by simp [Usage.withId])

lemma Sound.collect {s : Saving ν} (hs : s.usage.Sound) (taken : Option Changes) (slot : Nat) :
    (Saving.collect taken slot s).state.usage.Sound := by
  cases h : s.usage.attempts.get? slot with
  | none => rwa [Saving.collect_of_none h]
  | some a =>
    have hslot := hs.slot h
    have hid := hs.usageId h
    have hobserver := hs.observer h
    rw [(Saving.collect_keeps taken h).1]
    exact hs.insert (a := a.numbered s.supply) hslot hid hobserver ((hs.attempt h).numbered _)

lemma Sound.prepare {u : Usage ν} (hu : u.Sound) (supply : Supply) :
    (Usage.prepare (u, supply)).state.1.Sound := by
  have hloop := Op.forEach_keeps (P := fun s : Saving ν => s.usage.Sound)
    (l := u.slots) (fun slot _ s hs => Sound.collect hs u.pending slot) (hu.begin supply)
  unfold Usage.prepare
  simp only
  split
  · exact hloop
  · exact hloop.undo _

/-- Attempts that tell the usage of their changes already have nobody else to tell. -/
lemma Sound.tracking_self {u : Usage ν} (hu : u.Sound) : u.tracking u.pending = u := by
  have hattempts : (u.tracking u.pending).attempts = u.attempts := by
    refine SortedMap.ext_get? fun slot => ?_
    rw [get?_tracking]
    cases ha : u.attempts.get? slot with
    | none => rfl
    | some a =>
      have hobserver : (u.tracking u.pending).observer = a.observer := (hu.observer ha).symm
      rw [Option.map_some, hobserver]
      rfl
  calc u.tracking u.pending = { u with attempts := (u.tracking u.pending).attempts } := rfl
    _ = u := by rw [hattempts]

/-- The attempts of a settled usage tell it of their changes, whether they did before or not. -/
lemma Sound.settle_eq {u : Usage ν} (hu : u.Sound) :
    u.settle = u.tracking (some (u.pending.getD Changes.none)) := by
  have hself := hu.tracking_self
  unfold Usage.settle
  cases hpending : u.pending with
  | none => rfl
  | some c =>
    rw [hpending] at hself
    exact hself.symm

/-- Settling a usage changes at most who its attempts tell. -/
lemma exists_of_get?_settle {u : Usage ν} {slot : Nat} {a : Attempt ν}
    (h : u.settle.attempts.get? slot = some a) :
    ∃ b, u.attempts.get? slot = some b ∧ ∃ o, b.observedBy o = a := by
  unfold Usage.settle at h
  split at h
  · exact ⟨a, h, a.observer, rfl⟩
  · rw [get?_tracking] at h
    obtain ⟨b, hb, rfl⟩ := Option.map_eq_some_iff.1 h
    exact ⟨b, hb, _, rfl⟩

lemma exists_get?_settle {u : Usage ν} {slot : Nat} {a : Attempt ν}
    (h : u.attempts.get? slot = some a) :
    ∃ o, u.settle.attempts.get? slot = some (a.observedBy o) := by
  unfold Usage.settle
  split
  · exact ⟨a.observer, h⟩
  · rw [get?_tracking, h]
    exact ⟨_, rfl⟩

/-- A settled usage keeps track of its changes. -/
lemma observer_settle (u : Usage ν) : u.settle.observer = .changes := by
  unfold Usage.settle
  split
  · rename_i c hc
    rw [Usage.observer, hc]
    rfl
  · rfl

@[simp] lemma id_settle (u : Usage ν) : u.settle.id = u.id := by
  unfold Usage.settle
  split <;> rfl

lemma Sound.settle {u : Usage ν} (hu : u.Sound) : u.settle.Sound :=
  hu.settle_eq ▸ hu.tracking _

end Usage

/-! ## Loads -/

namespace Tables

/-- The steps of rows are made of these. -/
lemma exists_row_of_mem_stepsOfRows {vars : SortedMap String Vars} {rows : List (StepRow ν)} :
    ∀ e ∈ stepsOfRows vars rows, ∃ row own, e.2 = Step.ofRow row own := by
  induction rows generalizing vars with
  | nil => simp [stepsOfRows]
  | cons row rest ih =>
    rw [stepsOfRows]
    exact List.forall_mem_cons.2 ⟨⟨row, _, rfl⟩, ih⟩

/-- Loaded attempts are made of the rows, each with some of the steps and a behaviour that is made
from its name. -/
lemma exists_of_attemptsOfRows {σ : Type} {bank : Bank ν} {registry : Registry}
    {preferred : String} {steps : List (String × Step ν)} {rows : List (AttemptRow ν)} {s : σ}
    {attempts : List (Attempt ν)}
    (h : (attemptsOfRows bank registry preferred steps rows s).result = .ok attempts) :
    ∀ a ∈ attempts, ∃ row ∈ rows, ∃ q own,
      a = Attempt.ofRow row q (registry.makeOrMissing row.behaviour preferred) own ∧
      ∀ step ∈ own, ∃ e ∈ steps, e.2 = step := by
  induction rows generalizing steps s attempts with
  | nil =>
    cases h
    simp
  | cons row rest ih =>
    unfold attemptsOfRows at h
    cases hq : (questionOfRow bank row s).result with
    | error e => rw [Op.bind_of_error hq] at h; cases h
    | ok q =>
      rw [Op.bind_of_ok hq] at h
      simp only at h
      cases hrest : (attemptsOfRows bank registry preferred
          (steps.filter fun s => s.1 != row.id) rest (questionOfRow bank row s).state).result with
      | error e => rw [Op.bind_of_error hrest] at h; cases h
      | ok others =>
        rw [Op.bind_of_ok hrest] at h
        cases h
        refine List.forall_mem_cons.2 ⟨⟨row, List.mem_cons_self, q, _, rfl, ?_⟩, ?_⟩
        · intro step hstep
          obtain ⟨e, he, heq⟩ := List.mem_map.1 hstep
          exact ⟨e, (List.mem_filter.1 he).1, heq⟩
        · intro a ha
          obtain ⟨row', hrow', q', own, heq, hown⟩ := ih hrest a ha
          refine ⟨row', List.mem_cons_of_mem _ hrow', q', own, heq, fun step hstep => ?_⟩
          obtain ⟨e, he, heq'⟩ := hown step hstep
          exact ⟨e, (List.mem_filter.1 he).1, heq'⟩

end Tables

namespace Usage

/-- The attempts of a loaded usage tell it of their changes. -/
lemma attempts_restore (row : UsageRow) (attempts : List (Attempt ν)) (registry : Registry)
    (slot : Nat) : (restore row attempts registry true).attempts.get? slot =
      ((SortedMap.ofList (attempts.map fun a => (a.slot, a))).get? slot).map
        fun a => a.observedBy .changes := by
  rw [restore, get?_tracking]
  rfl

/-- A usage that is assembled from rows of its own is sound. -/
lemma sound_of_assemble {σ : Type} {row : UsageRow} {attempts : List (AttemptRow ν)}
    {steps : List (StepRow ν)} {vars : List VarRow} {bank : Bank ν} {registry : Registry} {s : σ}
    {u : Usage ν} (hrows : ∀ r ∈ attempts, r.usageId = row.id)
    (h : (assemble row attempts steps vars bank registry s).result = .ok u) : u.Sound := by
  unfold assemble at h
  cases hattempts : (Tables.attemptsOfRows bank registry row.preferred
      (Tables.orderedSteps steps vars) attempts s).result with
  | error e => rw [Op.bind_of_error hattempts] at h; cases h
  | ok loaded =>
    rw [Op.bind_of_ok hattempts] at h
    cases h
    have key : ∀ {slot a}, (SortedMap.ofList (loaded.map fun a => (a.slot, a))).get? slot = some a →
        a.slot = slot ∧ a.usageId = row.id ∧ a.observer = .nobody ∧ a.Sound := by
      intro slot a ha
      obtain ⟨a', ha', heq⟩ := List.mem_map.1 (SortedMap.mem_of_get?_ofList ha)
      cases heq
      obtain ⟨r, hr, q, own, rfl, hown⟩ := Tables.exists_of_attemptsOfRows hattempts a ha'
      refine ⟨rfl, hrows r hr, rfl, Attempt.sound_ofRow r q _ fun step hstep => ?_⟩
      obtain ⟨e, he, rfl⟩ := hown step hstep
      obtain ⟨row, vars, hmade⟩ := Tables.exists_row_of_mem_stepsOfRows e he
      rw [hmade]
      rfl
    -- before the usage keeps track of its changes, nobody is told of them
    exact Sound.tracking ⟨fun ha => (key ha).1, fun ha => (key ha).2.1, fun ha => (key ha).2.2.1,
      fun ha => (key ha).2.2.2⟩ _

/-- A loaded usage is sound, whatever the rows are that it is loaded from. -/
lemma sound_of_load {usageId : String} {bank : Bank ν} {registry : Registry} {s : Store ν}
    {u : Usage ν} (h : (Store.load usageId bank registry s).result = .ok u) : u.Sound := by
  unfold Store.load at h
  split at h
  · cases h
  · split at h
    · cases h
    · rename_i row _
      exact sound_of_assemble (fun r hr => by simpa using (List.mem_filter.1 hr).2) h

/-! ## Reachable usages -/

/-- The usages that are reached. -/
inductive Reachable [Scalar ν] : Usage ν → Prop
  | new {token plugin context preferred : String} {registry : Registry} {u : Usage ν}
    (h : Usage.new token plugin context preferred registry = .ok u) : Reachable u
  | load {usageId : String} {bank : Bank ν} {registry : Registry} {s : Store ν} {u : Usage ν}
    (h : (Store.load usageId bank registry s).result = .ok u) : Reachable u
  | operation {u : Usage ν} (h : Reachable u) (o : Operation ν) : Reachable (o.after u)
  | prepare {u : Usage ν} (h : Reachable u) (supply : Supply) :
    Reachable (Usage.prepare (u, supply)).state.1
  | settle {u : Usage ν} (h : Reachable u) : Reachable u.settle
  | abort {u : Usage ν} (h : Reachable u) (plan : Plan ν) : Reachable (u.abort plan)

variable [Scalar ν]

omit [Scalar ν] in
/-- A usage that is made has a token and no attempts. -/
lemma eq_of_new {token plugin context preferred : String} {registry : Registry} {u : Usage ν}
    (h : Usage.new token plugin context preferred registry = .ok u) :
    u = ⟨.ephemeral token, plugin, context, preferred, SortedMap.empty, registry, none⟩ := by
  unfold Usage.new at h
  cases hb : registry.makeArchetypal preferred with
  | error e => simp [hb] at h
  | ok b =>
    rw [hb] at h
    exact (Except.ok.inj h).symm

omit [Scalar ν] in
lemma sound_of_new {token plugin context preferred : String} {registry : Registry} {u : Usage ν}
    (h : Usage.new token plugin context preferred registry = .ok u) : u.Sound := by
  rw [eq_of_new h]
  exact ⟨fun h => by simp at h, fun h => by simp at h, fun h => by simp at h, fun h => by simp at h⟩

/-- One operation after the other reaches a usage. -/
lemma Reachable.foldl_after {u : Usage ν} (h : u.Reachable) (os : List (Operation ν)) :
    (os.foldl (fun u o => o.after u) u).Reachable := by
  induction os generalizing u with
  | nil => exact h
  | cons o rest ih => exact ih (h.operation o)

/-- Every reachable usage is sound. -/
theorem Reachable.sound {u : Usage ν} (h : u.Reachable) : u.Sound := by
  induction h with
  | new h => exact sound_of_new h
  | load h => exact sound_of_load h
  | operation _ o ih => exact (o.after_steps _).sound ih
  | prepare _ supply ih => exact ih.prepare supply
  | settle _ ih => exact ih.settle
  | abort _ plan ih => exact ih.undo plan.undo

end Usage
end Assessment
