import Assessment.Proofs.Behaviour.Ruling
import Assessment.Proofs.Usage.Reach

/-!
# Batches are checked before anything changes

A batch is checked as a whole, then its actions are put to the attempts, and then its flags are set.
`Usage.Accepts` says what the checks ask for; they pass exactly then and change nothing
(`checkBatch_spec`).  After that every slot is there and started, and stays so because actions leave
the behaviours alone (`SameBehaviours`), so nothing that was checked can fail any more: an action
fails only as a comment that is refused for what it says (`Attempt.act_result`).

Hence a batch that is refused by a check leaves the usage as it was, and a batch without comments
is accepted or changes nothing (`submit_all_or_nothing`).  The usage has to be a reachable one: the
refusals of a comment on a started attempt are told from the checks by the least fraction being there.
-/

namespace Assessment

/-- The faults that the checks of a batch find. -/
def Fault.isCheck : Fault → Bool
  | outOfSequence .. | unknownSlot .. | notStarted => true
  | _ => false

lemma Fault.isCheck_of_isRefusal {e : Fault} (h : e.isRefusal = true) : e.isCheck = false := by
  cases e <;> simp_all [isRefusal, isCheck]

variable {ν : Type}

/-! ## The checks -/

namespace Usage

/-- What a batch has to be like for its checks to pass: every slot that it processes has a started
attempt, with as many steps as its page was rendered for if the page says so, and every slot with a
flag exists. -/
structure Accepts (u : Usage ν) (batch : Batch) : Prop where
  slots : ∀ slot ∈ u.slotsOf batch, ∃ a, u.attempts.get? slot = some a ∧
    a.behaviour.isSome = true ∧
    ∀ steps, (batch.submission slot).sequenceCheck = some steps → a.steps.length = steps
  flags : ∀ flag ∈ batch.flags, ∃ a, u.attempts.get? flag.1 = some a

lemma checkSlot_spec (batch : Batch) (slot : Nat) (u : Usage ν) :
    (checkSlot batch slot u).state = u ∧
    ((checkSlot batch slot u).result = .ok () ↔ ∃ a, u.attempts.get? slot = some a ∧
      a.behaviour.isSome = true ∧
      ∀ steps, (batch.submission slot).sequenceCheck = some steps → a.steps.length = steps) := by
  constructor
  · unfold checkSlot
    split
    · rfl
    · split <;> rfl
  · cases ha : u.attempts.get? slot with
    | none => simp [checkSlot, ha]
    | some a =>
      cases hb : a.behaviour with
      | none => simp [checkSlot, ha, hb]
      | some b =>
        cases hc : (batch.submission slot).sequenceCheck with
        | none => simp [checkSlot, ha, hb, hc]
        | some steps =>
          by_cases hlength : a.steps.length = steps
          · simp [checkSlot, ha, hb, hc, Attempt.checkSequence, hlength]
          · simp [checkSlot, ha, hb, hc, Attempt.checkSequence, hlength, Ne.symm hlength]

lemma checkExists_spec (slot : Nat) (u : Usage ν) :
    (checkExists slot u).state = u ∧
      ((checkExists slot u).result = .ok () ↔ ∃ a, u.attempts.get? slot = some a) := by
  unfold checkExists attempt?
  cases u.attempts.get? slot <;> simp [Except.map]

/-- The checks change nothing, and pass for the batches that the usage accepts. -/
lemma checkBatch_spec (batch : Batch) (u : Usage ν) :
    (checkBatch batch u).state = u ∧ ((checkBatch batch u).result = .ok () ↔ u.Accepts batch) := by
  obtain ⟨hslots, hstate⟩ := Op.forEach_of_silent (f := checkSlot batch) (s := u)
    (fun slot => (checkSlot_spec batch slot u).1) (u.slotsOf batch)
  obtain ⟨hflags, hstate'⟩ := Op.forEach_of_silent (f := fun flag : Nat × Bool => checkExists flag.1)
    (s := u) (fun flag => (checkExists_spec flag.1 u).1) batch.flags
  unfold checkBatch
  cases h : (Op.forEach (checkSlot batch) (u.slotsOf batch) u).result with
  | error e =>
    rw [Op.bind_of_error h]
    refine ⟨hstate, fun hok => (by cases hok), fun haccepts => ?_⟩
    rw [hslots.2 fun slot hslot => (checkSlot_spec batch slot u).2.2 (haccepts.slots slot hslot)] at h
    cases h
  | ok _ =>
    rw [Op.bind_of_ok h, hstate]
    refine ⟨hstate', fun hok => ⟨fun slot hslot => ?_, fun flag hflag => ?_⟩, fun haccepts => ?_⟩
    · exact (checkSlot_spec batch slot u).2.1 (hslots.1 h slot hslot)
    · exact (checkExists_spec flag.1 u).2.1 (hflags.1 hok flag hflag)
    · exact hflags.2 fun flag hflag => (checkExists_spec flag.1 u).2.2 (haccepts.flags flag hflag)

end Usage

/-! ## The actions -/

/-- An action on a started attempt fails only as a comment that is refused for what it says. -/
lemma Attempt.act_result [Scalar ν] {a : Attempt ν} (ha : a.Sound) (hb : a.behaviour.isSome = true)
    (vars : Vars) (time : Instant) (actor : Option String) :
    (∃ outcome, (act vars time actor a).result = .ok outcome) ∨
    ∃ e, (act vars time actor a).result = .error e ∧ vars.hasBehaviour "comment" = true ∧
      e.isRefusal = true := by
  obtain ⟨b, hb⟩ := Option.isSome_iff_exists.1 hb
  have hmin : a.minFraction.isSome := by rw [ha.minFraction, hb]; rfl
  unfold act
  simp only [hb]
  cases hr : b.rule a (Draft.new vars time actor) with
  | error e => exact .inr ⟨e, rfl, Behaviour.rule_refuses hmin hr⟩
  | ok r => cases r <;> exact .inl ⟨_, rfl⟩

namespace Usage

/-- Two usages with the same slots and the same behaviours in them. -/
def SameBehaviours (u u' : Usage ν) : Prop :=
  ∀ slot, (u'.attempts.get? slot).map Attempt.behaviour =
    (u.attempts.get? slot).map Attempt.behaviour

lemma SameBehaviours.exists {u u' : Usage ν} (h : u.SameBehaviours u') {slot : Nat} {a : Attempt ν}
    (ha : u.attempts.get? slot = some a) :
    ∃ a', u'.attempts.get? slot = some a' ∧ a'.behaviour = a.behaviour := by
  have hslot := h slot
  rw [ha] at hslot
  obtain ⟨a', ha', hb⟩ := Option.map_eq_some_iff.1 hslot
  exact ⟨a', ha', hb⟩

variable [Scalar ν]

lemma SameBehaviours.act {u u' : Usage ν} (h : u.SameBehaviours u') (slot : Nat) (vars : Vars)
    (time : Instant) (actor : Option String) :
    u.SameBehaviours (Usage.act slot vars time actor u').state := by
  unfold Usage.act onSlot
  cases ha : u'.attempts.get? slot with
  | none => exact h
  | some a =>
    have hsame : (Attempt.act vars time actor a).state.behaviour = a.behaviour := by
      obtain ⟨hstate, -⟩ | ⟨b, d, -, -, hstate, -⟩ := Attempt.act_cases a vars time actor <;>
        rw [hstate]
      rfl
    intro slot'
    simp only [noting, SortedMap.get?_insert]
    split
    · rename_i heq
      rw [heq, ← h slot, ha, Option.map_some, Option.map_some, hsame]
    · exact h slot'

omit [Scalar ν] in
lemma SameBehaviours.setFlag {u u' : Usage ν} (h : u.SameBehaviours u') (slot : Nat)
    (flagged : Bool) : u.SameBehaviours (Usage.setFlag slot flagged u').state := by
  unfold Usage.setFlag onSlot
  cases ha : u'.attempts.get? slot with
  | none => exact h
  | some a =>
    have hsame : (Attempt.setFlag flagged a).state.behaviour = a.behaviour := by
      unfold Attempt.setFlag
      split <;> rfl
    intro slot'
    simp only [noting, SortedMap.get?_insert]
    split
    · rename_i heq
      rw [heq, ← h slot, ha, Option.map_some, Option.map_some, hsame]
    · exact h slot'

/-- Processing a slot whose attempt is started fails only as a comment that is refused. -/
lemma submitSlot_result {u : Usage ν} (hu : u.Sound) {slot : Nat} {a : Attempt ν}
    (ha : u.attempts.get? slot = some a) (hb : a.behaviour.isSome = true) (batch : Batch)
    (time : Instant) (actor : Option String) :
    (submitSlot batch time actor slot u).result = .ok () ∨
    ∃ e, (submitSlot batch time actor slot u).result = .error e ∧
      (batch.submission slot).vars.hasBehaviour "comment" = true ∧ e.isRefusal = true := by
  have hresult : (Usage.act slot (batch.submission slot).vars time actor u).result =
      (Attempt.act (batch.submission slot).vars time actor a).result := by
    simp only [Usage.act, onSlot, ha]
  unfold submitSlot
  obtain ⟨outcome, hok⟩ | ⟨e, he, hcomment⟩ :=
    Attempt.act_result (hu.attempt ha) hb (batch.submission slot).vars time actor
  · rw [Op.bind_of_ok (hresult.trans hok)]
    exact .inl rfl
  · rw [Op.bind_of_error (hresult.trans he)]
    exact .inr ⟨e, rfl, hcomment⟩

/-- Processing a slot leaves what the action on it leaves. -/
lemma submitSlot_state (batch : Batch) (time : Instant) (actor : Option String) (slot : Nat)
    (u : Usage ν) : (submitSlot batch time actor slot u).state =
      (Usage.act slot (batch.submission slot).vars time actor u).state := by
  unfold submitSlot
  cases hr : (Usage.act slot (batch.submission slot).vars time actor u).result with
  | error e => rw [Op.bind_of_error hr]
  | ok outcome => rw [Op.bind_of_ok hr]; rfl

lemma submitSlot_keeps {u u' : Usage ν} (h : u'.Sound ∧ u.SameBehaviours u') (batch : Batch)
    (time : Instant) (actor : Option String) (slot : Nat) :
    (submitSlot batch time actor slot u').state.Sound ∧
      u.SameBehaviours (submitSlot batch time actor slot u').state := by
  rw [submitSlot_state]
  exact ⟨(Stepwise.act slot _ time actor u').sound h.1, h.2.act slot _ time actor⟩

/-- What follows the checks. -/
def process (batch : Batch) (time : Instant) (actor : Option String) (slots : List Nat) :
    Op Fault (Usage ν) Unit :=
  Op.bind (Op.forEach (submitSlot batch time actor) slots) fun _ =>
    Op.forEach (fun flag => setFlag flag.1 flag.2) batch.flags

omit [Scalar ν] in
lemma setFlags_succeeds {u u' : Usage ν} (h : u.SameBehaviours u') {flags : List (Nat × Bool)}
    (hflags : ∀ flag ∈ flags, ∃ a, u.attempts.get? flag.1 = some a) :
    (Op.forEach (fun flag => setFlag flag.1 flag.2) flags u').result = .ok () := by
  refine (Op.forEach_succeeds (P := u.SameBehaviours) (fun flag hflag s hs => ?_) h).1
  obtain ⟨a, ha⟩ := hflags flag hflag
  obtain ⟨a', ha', -⟩ := hs.exists ha
  refine ⟨?_, hs.setFlag flag.1 flag.2⟩
  simp only [setFlag, onSlot, ha', Attempt.setFlag]
  split <;> rfl

/-- What a usage accepts is processed, unless a comment is refused for what it says. -/
lemma process_result {u : Usage ν} (hu : u.Sound) {batch : Batch} (h : u.Accepts batch)
    (time : Instant) (actor : Option String) :
    (process batch time actor (u.slotsOf batch) u).result = .ok () ∨
    ∃ e, (process batch time actor (u.slotsOf batch) u).result = .error e ∧ e.isRefusal = true ∧
      ∃ slot ∈ u.slotsOf batch, (batch.submission slot).vars.hasBehaviour "comment" = true := by
  have hkeeps : ∀ slot ∈ u.slotsOf batch, ∀ s : Usage ν, s.Sound ∧ u.SameBehaviours s →
      (submitSlot batch time actor slot s).state.Sound ∧
        u.SameBehaviours (submitSlot batch time actor slot s).state :=
    fun slot _ s hs => submitSlot_keeps hs batch time actor slot
  have hstart : u.Sound ∧ u.SameBehaviours u := ⟨hu, fun _ => rfl⟩
  unfold process
  cases hr : (Op.forEach (submitSlot batch time actor) (u.slotsOf batch) u).result with
  | ok _ =>
    have hafter := Op.forEach_keeps hkeeps hstart
    rw [Op.bind_of_ok hr]
    exact .inl (setFlags_succeeds hafter.2 h.flags)
  | error e =>
    obtain ⟨slot, hslot, s, ⟨hsound, hsame⟩, he⟩ := Op.forEach_fails hkeeps hstart hr
    obtain ⟨a, ha, hb, -⟩ := h.slots slot hslot
    obtain ⟨a', ha', hb'⟩ := hsame.exists ha
    rw [Op.bind_of_error hr]
    obtain hok | ⟨e', he', hcomment, hrefusal⟩ :=
      submitSlot_result hsound ha' (hb' ▸ hb) batch time actor
    · rw [hok] at he
      cases he
    · rw [he'] at he
      cases he
      exact .inr ⟨e, rfl, hrefusal, slot, hslot, hcomment⟩

/-! ## The whole batch -/

/-- A batch is checked before anything changes.  When it fails with a fault that the checks find,
the usage is as it was; when nothing that it processes is a comment, it succeeds exactly if the usage
accepts it, and leaves the usage as it was otherwise. -/
theorem submit_all_or_nothing {u : Usage ν} (hu : u.Reachable) (batch : Batch) (time : Instant)
    (actor : Option String) :
    (∀ e, (submit batch time actor u).result = .error e → e.isCheck = true →
      (submit batch time actor u).state = u) ∧
    ((∀ slot ∈ u.slotsOf batch, (batch.submission slot).vars.hasBehaviour "comment" = false) →
      ((submit batch time actor u).result = .ok () ↔ u.Accepts batch) ∧
      ∀ e, (submit batch time actor u).result = .error e →
        (submit batch time actor u).state = u) := by
  obtain ⟨hstate, haccepts⟩ := checkBatch_spec batch u
  have hsubmit : submit batch time actor u =
      Op.bind (checkBatch batch) (fun _ => process batch time actor (u.slotsOf batch)) u := rfl
  rw [hsubmit]
  cases hc : (checkBatch batch u).result with
  | error e =>
    have hnot : ¬ u.Accepts batch := fun h => by simp [haccepts.2 h] at hc
    rw [Op.bind_of_error hc]
    exact ⟨fun _ _ _ => hstate, fun _ =>
      ⟨⟨fun h => (by cases h), fun h => absurd h hnot⟩, fun _ _ => hstate⟩⟩
  | ok _ =>
    have hu' := haccepts.1 hc
    rw [Op.bind_of_ok hc, hstate]
    obtain hok | ⟨e, he, hrefusal, slot, hslot, hcomment⟩ :=
      process_result hu.sound hu' time actor
    · refine ⟨fun e he => ?_, fun _ => ⟨⟨fun _ => hu', fun _ => hok⟩, fun e he => ?_⟩⟩ <;>
      · rw [hok] at he
        cases he
    · refine ⟨fun e' he' hcheck => ?_, fun hno => ?_⟩
      · rw [he] at he'
        cases he'
        rw [Fault.isCheck_of_isRefusal hrefusal] at hcheck
        cases hcheck
      · rw [hno slot hslot] at hcomment
        cases hcomment

/-- A question that is not started yet refuses an empty batch. -/
theorem submit_unstarted_changes_nothing :
    let blank : Usage Float :=
      ⟨.ephemeral "t", "quiz", "course", "deferredfeedback", SortedMap.empty, Registry.standard, none⟩
    let u := (Operation.add (.trueFalse (TrueFalse.new "q1" "The sky is blue" true)) none).after blank
    u.Reachable ∧ (submit Batch.empty ⟨0⟩ none u).result = .error .notStarted ∧
      (submit Batch.empty ⟨0⟩ none u).state = u ∧ ¬ u.Accepts Batch.empty := by
  intro blank u
  have hnew : Usage.new "t" "quiz" "course" "deferredfeedback" Registry.standard = .ok blank := rfl
  have hu : u.Reachable := .operation (.new hnew) _
  have hresult : (submit Batch.empty ⟨0⟩ none u).result = .error .notStarted := rfl
  have hno : ∀ slot ∈ u.slotsOf Batch.empty,
      (Batch.empty.submission slot).vars.hasBehaviour "comment" = false := fun _ _ => rfl
  obtain ⟨hcheck, hplain⟩ := submit_all_or_nothing hu Batch.empty ⟨0⟩ none
  refine ⟨hu, hresult, hcheck _ hresult rfl, fun h => ?_⟩
  rw [(hplain hno).1.2 h] at hresult
  cases hresult

end Usage
end Assessment
