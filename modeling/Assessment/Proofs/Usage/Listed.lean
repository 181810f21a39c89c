import Assessment.Proofs.Attempt.History
import Assessment.Proofs.Usage.Prolonged
import Mathlib.Data.List.Nodup

/-!
# How often a batch acts on a slot

A batch is checked before anything is done, and the number of steps that a page was rendered for is
compared with the attempt only then.  After the checks the slots are gone through as they are listed,
so an attempt is sent what was submitted for it once for every time that the batch lists its slot
(`Usage.get?_forEach_submitSlot`), and each of these actions may add a step.

Main result: `Usage.submit_acts_as_listed`.  Where no slot is listed twice, an attempt gains at most
one step.  A batch without a list and a form that lists no slots name each slot once; a form that lists
a slot twice has it acted on twice (`Usage.submit_acts_twice`).
-/

namespace Assessment

variable {ν : Type}

namespace Batch

/-- The action that a batch sends to the attempt in a slot. -/
def actionOn (batch : Batch) (slot : Nat) (time : Instant) (actor : Option String) : Action :=
  ⟨(batch.submission slot).vars, time, actor⟩

variable [Scalar ν] {u : Usage ν} {form : Form} {batch : Batch}

/-- A form that lists no slots is about those that have a field in it, each of them once. -/
lemma nodup_slots_ofForm (h : ofForm u form = .ok batch) (hform : form.get? slotsField = none) :
    (u.slotsOf batch).Nodup := by
  unfold ofForm formSlots at h
  simp only [hform] at h
  cases hs : formSubmissions u form (foundSlots u.id.text form) with
  | error e => simp [hs, bind, Except.bind] at h
  | ok submissions =>
    simp only [hs, bind, Except.bind, pure, Except.pure, Except.ok.injEq] at h
    rw [← h]
    exact SortedMap.nodup_keys _

end Batch

namespace Attempt

variable [Scalar ν]

/-- A log adds at most one step for each of its actions. -/
lemma length_afterActions (a : Attempt ν) (log : List Action) :
    a.steps.length ≤ (a.afterActions log).steps.length ∧
      (a.afterActions log).steps.length ≤ a.steps.length + log.length := by
  induction log using List.reverseRecOn with
  | nil => exact ⟨Nat.le_refl _, Nat.le_refl _⟩
  | append_singleton log x ih =>
    rw [afterActions_append, afterAction, List.length_append, List.length_singleton]
    obtain ⟨hstate, -⟩ | ⟨b, d, -, -, hstate, -⟩ :=
      act_cases (a.afterActions log) x.vars x.time x.actor
    · rw [hstate]
      omega
    · have hlength : ((a.afterActions log).keep d).steps.length =
          (a.afterActions log).steps.length + 1 := by simp [keep, record]
      rw [hstate, hlength]
      omega

end Attempt

namespace Usage

variable [Scalar ν]

/-- Processing a slot sends the action to the attempt there and leaves the others alone. -/
lemma get?_submitSlot (batch : Batch) (time : Instant) (actor : Option String) (slot : Nat)
    (u : Usage ν) (slot' : Nat) :
    (submitSlot batch time actor slot u).state.attempts.get? slot' =
      if slot = slot' then
        (u.attempts.get? slot').map fun a => a.afterAction (batch.actionOn slot' time actor)
      else u.attempts.get? slot' := by
  rw [submitSlot_state, Usage.act, onSlot]
  cases ha : u.attempts.get? slot with
  | none =>
    show u.attempts.get? slot' = _
    split
    · rename_i heq
      rw [← heq, ha]
      rfl
    · rfl
  | some a =>
    simp only [noting, SortedMap.get?_insert, eq_comm (a := slot')]
    split
    · rename_i heq
      subst heq
      rw [ha]
      rfl
    · rfl

/-- A loop over slots sends the action to an attempt as often as its slot is listed. -/
lemma get?_forEach_submitSlot {batch : Batch} {time : Instant} {actor : Option String}
    {slots : List Nat} {u : Usage ν}
    (h : (Op.forEach (submitSlot batch time actor) slots u).result = .ok ()) (slot : Nat) :
    (Op.forEach (submitSlot batch time actor) slots u).state.attempts.get? slot =
      (u.attempts.get? slot).map fun a =>
        a.afterActions (List.replicate (slots.count slot) (batch.actionOn slot time actor)) := by
  induction slots generalizing u with
  | nil => exact Option.map_id'.symm
  | cons first rest ih =>
    cases hfirst : (submitSlot batch time actor first u).result with
    | error e =>
      rw [Op.forEach_cons_of_error hfirst] at h
      cases h
    | ok _ =>
      rw [Op.forEach_cons_of_ok hfirst] at h ⊢
      rw [ih h, get?_submitSlot]
      by_cases hslot : first = slot
      · rw [if_pos hslot, hslot, List.count_cons_self, List.replicate_succ, Option.map_map]
        rfl
      · rw [if_neg hslot, List.count_cons_of_ne hslot]

/-- What the usage accepts is processed. -/
lemma submit_of_accepts {u : Usage ν} {batch : Batch} (h : u.Accepts batch) (time : Instant)
    (actor : Option String) :
    (submit batch time actor u).result = (process batch time actor (u.slotsOf batch) u).result ∧
      (submit batch time actor u).state = (process batch time actor (u.slotsOf batch) u).state := by
  obtain ⟨hstate, haccepts⟩ := checkBatch_spec batch u
  have hsubmit : submit batch time actor u =
      Op.bind (checkBatch batch) (fun _ => process batch time actor (u.slotsOf batch)) u := rfl
  rw [hsubmit, Op.bind_of_ok (haccepts.2 h), hstate]
  exact ⟨rfl, rfl⟩

/-- What a batch leaves in a slot has the steps that come of its actions on the slot. -/
lemma exists_steps_submit {u : Usage ν} {batch : Batch} {time : Instant} {actor : Option String}
    (h : (submit batch time actor u).result = .ok ()) {slot : Nat} {a : Attempt ν}
    (ha : u.attempts.get? slot = some a) :
    ∃ a', (submit batch time actor u).state.attempts.get? slot = some a' ∧
      a'.steps = (a.afterActions (List.replicate ((u.slotsOf batch).count slot)
        (batch.actionOn slot time actor))).steps := by
  obtain ⟨hresult, hstate⟩ := submit_of_accepts (prolonged_submit h).1 time actor
  rw [hresult] at h
  rw [hstate]
  unfold process at h ⊢
  cases hloop : (Op.forEach (submitSlot batch time actor) (u.slotsOf batch) u).result with
  | error e =>
    rw [Op.bind_of_error hloop] at h
    cases h
  | ok _ =>
    rw [Op.bind_of_ok hloop]
    have hslot := get?_forEach_submitSlot hloop slot
    generalize (Op.forEach (submitSlot batch time actor) (u.slotsOf batch) u).state = u' at hslot
    -- flags are no steps: setting them prolongs no attempt
    have hflags := (Op.forEach_keeps (P := u'.Prolonged []) (l := batch.flags)
      (f := fun flag => setFlag flag.1 flag.2) (fun flag _ s hs => hs.setFlag flag.1 flag.2)
      (.refl [] u')).others slot List.not_mem_nil
    rw [hslot, ha] at hflags
    exact Option.map_eq_some_iff.1 hflags

/-- A batch that succeeds sends to every attempt what is submitted for its slot once for every time
that the slot is listed, so an attempt gains at most so many steps; where a page says how many steps it
was rendered for, they are counted from there.  If no slot is listed twice, no attempt gains more than
one step, and an attempt in a listed slot with a number of steps has this many or one more.  No slot
is listed twice when the batch has no list of its own, or was read out of a form without one. -/
theorem submit_acts_as_listed {u : Usage ν} {batch : Batch} {time : Instant} {actor : Option String}
    (h : (submit batch time actor u).result = .ok ()) :
    let u' := (submit batch time actor u).state
    let slots := u.slotsOf batch
    (∀ slot a, u.attempts.get? slot = some a → ∃ a', u'.attempts.get? slot = some a' ∧
      a'.steps = (a.afterActions (List.replicate (slots.count slot)
        (batch.actionOn slot time actor))).steps ∧
      a.steps.length ≤ a'.steps.length ∧
      a'.steps.length ≤ a.steps.length + slots.count slot) ∧
    (∀ slot ∈ slots, ∀ steps, (batch.submission slot).sequenceCheck = some steps →
      ∃ a', u'.attempts.get? slot = some a' ∧ steps ≤ a'.steps.length ∧
        a'.steps.length ≤ steps + slots.count slot) ∧
    (slots.Nodup →
      (∀ slot a, u.attempts.get? slot = some a → ∃ a', u'.attempts.get? slot = some a' ∧
        a'.steps.length ≤ a.steps.length + 1) ∧
      ∀ slot ∈ slots, ∀ steps, (batch.submission slot).sequenceCheck = some steps →
        ∃ a', u'.attempts.get? slot = some a' ∧
          (a'.steps.length = steps ∨ a'.steps.length = steps + 1)) ∧
    (batch.slots = none ∨
        (∃ form, Batch.ofForm u form = .ok batch ∧ form.get? Batch.slotsField = none) →
      slots.Nodup) := by
  intro u' slots
  have hacts : ∀ slot a, u.attempts.get? slot = some a → ∃ a', u'.attempts.get? slot = some a' ∧
      a'.steps = (a.afterActions (List.replicate (slots.count slot)
        (batch.actionOn slot time actor))).steps ∧
      a.steps.length ≤ a'.steps.length ∧
      a'.steps.length ≤ a.steps.length + slots.count slot := by
    intro slot a ha
    obtain ⟨a', ha', hsteps⟩ := exists_steps_submit h ha
    have hlength := a.length_afterActions
      (List.replicate (slots.count slot) (batch.actionOn slot time actor))
    rw [← hsteps, List.length_replicate] at hlength
    exact ⟨a', ha', hsteps, hlength⟩
  have hchecked : ∀ slot ∈ slots, ∀ steps, (batch.submission slot).sequenceCheck = some steps →
      ∃ a', u'.attempts.get? slot = some a' ∧ steps ≤ a'.steps.length ∧
        a'.steps.length ≤ steps + slots.count slot := by
    intro slot hslot steps hsteps
    obtain ⟨a, ha, -, hlength⟩ := (prolonged_submit h).1.slots slot hslot
    obtain ⟨a', ha', -, hmin, hmax⟩ := hacts slot a ha
    rw [hlength steps hsteps] at hmin hmax
    exact ⟨a', ha', hmin, hmax⟩
  refine ⟨hacts, hchecked, fun hnodup => ⟨fun slot a ha => ?_, fun slot hslot steps hsteps => ?_⟩, ?_⟩
  · obtain ⟨a', ha', -, -, hmax⟩ := hacts slot a ha
    have honce := List.nodup_iff_count_le_one.1 hnodup slot
    exact ⟨a', ha', by omega⟩
  · obtain ⟨a', ha', hmin, hmax⟩ := hchecked slot hslot steps hsteps
    have honce := List.nodup_iff_count_le_one.1 hnodup slot
    exact ⟨a', ha', by omega⟩
  · rintro (hnone | ⟨form, hform, hlist⟩)
    · simp only [slots, slotsOf, hnone, Option.getD_none]
      exact SortedMap.nodup_keys _
    · exact Batch.nodup_slots_ofForm hform hlist

/-- A page that submits nothing that can be graded, once and under its number of steps. -/
theorem submit_acts_as_listed_once :
    let blank : Usage Float :=
      ⟨.ephemeral "t", "quiz", "course", "immediatefeedback", SortedMap.empty, Registry.standard, none⟩
    let added := (Operation.add (.trueFalse (TrueFalse.new "q1" "The sky is blue" true)) none).after
      blank
    let u := (Operation.start 1 ⟨0⟩ none ⟨0, 0⟩).after added
    let batch := ((Batch.empty.withSlots [1]).withVars 1
      (SortedMap.ofList [("-submit", "1")])).withSequenceCheck 1 1
    (submit batch ⟨1500⟩ none u).result = .ok () ∧
      ∃ a', (submit batch ⟨1500⟩ none u).state.attempts.get? 1 = some a' ∧
        (a'.steps.length = 1 ∨ a'.steps.length = 2) := by
  intro blank added u batch
  have hok : (submit batch ⟨1500⟩ none u).result = .ok () := by decide +kernel
  have hnodup : (u.slotsOf batch).Nodup := List.nodup_singleton 1
  have hlisted : 1 ∈ u.slotsOf batch := List.mem_singleton_self 1
  exact ⟨hok, ((submit_acts_as_listed hok).2.2.1 hnodup).2 1 hlisted 1 (by decide +kernel)⟩

/-- A form that lists a slot twice has the same submission kept twice, although the page says that it
was rendered for the one step there is. -/
theorem submit_acts_twice :
    let blank : Usage Float :=
      ⟨.ephemeral "t", "quiz", "course", "immediatefeedback", SortedMap.empty, Registry.standard, none⟩
    let added := (Operation.add (.trueFalse (TrueFalse.new "q1" "The sky is blue" true)) none).after
      blank
    let u := (Operation.start 1 ⟨0⟩ none ⟨0, 0⟩).after added
    let form : Form := SortedMap.ofList
      [("slots", "1,1"), ("qt:1_:sequencecheck", "1"), ("qt:1_-submit", "1")]
    ∃ batch, Batch.ofForm u form = .ok batch ∧ u.slotsOf batch = [1, 1] ∧
      (batch.submission 1).sequenceCheck = some 1 ∧
      (submit batch ⟨1500⟩ none u).result = .ok () ∧
      (u.attempts.get? 1).map (fun a => a.steps.length) = some 1 ∧
      ((submit batch ⟨1500⟩ none u).state.attempts.get? 1).map (fun a => a.steps.length) =
        some 3 := by
  intro blank added u form
  refine ⟨⟨some [1, 1], SortedMap.ofList
    [(1, ⟨SortedMap.ofList [("-submit", "1")], some 1, none⟩)]⟩, ?_, rfl, ?_, ?_, ?_, ?_⟩ <;>
    decide +kernel

end Usage
end Assessment
