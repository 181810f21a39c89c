import Assessment.Proofs.Number.Numeral
import Assessment.Proofs.Usage.Post

/-!
# Slots that are found in a form

A form that lists no slots is about those that have a field in it.  The slots are read off the names of
the fields, while an attempt looks for its fields under the stem that it writes itself, and the two agree
up to zeros: the number of a slot is read with any number of zeros in front, and written with none
(`Batch.fieldSlot?_eq_some_iff`, `Attempt.paddedStemOf`).

So every slot is found that has a field under its stem, and a slot that has none is found only through a
field whose slot is written with zeros in front.  Such a slot is given the empty submission
(`Batch.formSubmission_of_unposted`), which is then put to the attempt like any other.  A slot that no
field writes so is found exactly if there is a field under its stem.  All of this is
`Usage.ofForm_finds`; `Usage.ofForm_finds_padded` is a saved answer that is lost to such a field.
-/

namespace Assessment

variable {ν : Type}

/-! ## Names -/

/-- The stem of a slot with zeros in front of its number. -/
def Attempt.paddedStemOf (usageId : String) (zeros slot : Nat) : String :=
  "q" ++ usageId ++ ":" ++ String.ofList (Number.paddedDigits zeros slot) ++ "_"

/-- Without zeros it is the stem. -/
lemma Attempt.paddedStemOf_zero (usageId : String) (slot : Nat) :
    paddedStemOf usageId 0 slot = stemOf usageId slot := rfl

namespace Batch

/-- The names of the fields that are found for a slot. -/
lemma fieldSlot?_eq_some_iff {usageId : String} (hne : usageId ≠ "") (hcolon : ':' ∉ usageId.toList)
    {field : String} {slot : Nat} :
    fieldSlot? usageId field = some slot ↔
      slot ≤ Number.max32 ∧
        ∃ zeros name, field = Attempt.paddedStemOf usageId zeros slot ++ name := by
  have hname : ∀ zeros name, (Attempt.paddedStemOf usageId zeros slot ++ name).toList =
      'q' :: (usageId.toList ++ ':' :: (Number.paddedDigits zeros slot ++ '_' :: name.toList)) :=
    fun zeros name => by simp [Attempt.paddedStemOf, String.toList_append]
  have hplus : ∀ {digits : List Char}, (∀ c ∈ digits, Text.isDigit c = true) →
      '+' ∉ (String.ofList digits).toList := fun h hmem => by
    rw [String.toList_ofList] at hmem
    exact absurd (h _ hmem) (by decide)
  unfold fieldSlot?
  rw [Option.bind_eq_some_iff]
  constructor
  · rintro ⟨⟨usage, digits⟩, howner, hread⟩
    obtain ⟨-, ⟨-, hdigits⟩, rest, hfield⟩ := fieldOwner?_eq_some_iff.1 howner
    split at hread
    · rename_i husage
      obtain rfl : usage = usageId.toList := beq_iff_eq.1 husage
      obtain ⟨hbound, zeros, hzeros⟩ := (Number.readNat?_eq_some_iff (hplus hdigits)).1 hread
      rw [String.toList_ofList] at hzeros
      subst hzeros
      refine ⟨hbound, zeros, String.ofList rest, String.toList_inj.1 ?_⟩
      rw [hfield, hname, String.toList_ofList]
    · cases hread
  · rintro ⟨hbound, zeros, name, rfl⟩
    have husage : usageId.toList ≠ [] := fun h => hne (String.toList_eq_nil_iff.1 h)
    have hdigits : ∀ c ∈ Number.paddedDigits zeros slot, Text.isDigit c = true := fun c hc =>
      Text.isDigit_of_ascii (Number.isDigit_of_mem_paddedDigits hc)
    refine ⟨(usageId.toList, Number.paddedDigits zeros slot), fieldOwner?_eq_some_iff.2
      ⟨⟨husage, hcolon⟩, ⟨Number.paddedDigits_ne_nil zeros slot, hdigits⟩, name.toList,
        hname zeros name⟩, ?_⟩
    rw [if_pos (beq_self_eq_true _), Number.readNat?_eq_some_iff (hplus hdigits)]
    exact ⟨hbound, zeros, String.toList_ofList⟩

end Batch

/-! ## What the found slots are given -/

lemma Usage.get?_of_attempt? {u : Usage ν} {slot : Nat} {a : Attempt ν}
    (h : u.attempt? slot = .ok a) : u.attempts.get? slot = some a := by
  unfold attempt? at h
  split at h
  · rename_i a' ha
    cases h
    exact ha
  · cases h

namespace Batch

variable [Scalar ν] {u : Usage ν} {form : Form} {batch : Batch}

/-- Reading what is submitted for several slots succeeds slot by slot. -/
lemma of_formSubmissions {slots : List Nat} {l : List (Nat × Submission)}
    (h : formSubmissions u form slots = .ok l) :
    l.map Prod.fst = slots ∧ ∀ e ∈ l, formSubmission u form e.1 = .ok e.2 := by
  induction slots generalizing l with
  | nil =>
    cases h
    simp
  | cons slot rest ih =>
    obtain ⟨s, hs, h⟩ := exists_of_bind_eq_ok h
    obtain ⟨more, hmore, h⟩ := exists_of_bind_eq_ok h
    cases h
    obtain ⟨hslots, hsubmissions⟩ := ih hmore
    exact ⟨congrArg (slot :: ·) hslots, List.forall_mem_cons.2 ⟨hs, hsubmissions⟩⟩

/-- A batch that a form without a list of slots submits is for the slots that are found. -/
lemma of_ofForm (hform : form.get? slotsField = none) (h : ofForm u form = .ok batch) :
    batch.slots = some batch.submissions.keys ∧
      batch.submissions.keys = foundSlots u.id.text form ∧
      ∀ slot s, batch.submissions.get? slot = some s → formSubmission u form slot = .ok s := by
  obtain ⟨slots, hslots, h⟩ := exists_of_bind_eq_ok h
  obtain ⟨submissions, hsubmissions, h⟩ := exists_of_bind_eq_ok h
  cases h
  unfold formSlots at hslots
  rw [hform] at hslots
  cases hslots
  obtain ⟨hkeys, hread⟩ := of_formSubmissions hsubmissions
  have hfound : foundSlots u.id.text form = (SortedMap.ofList submissions).keys :=
    SortedSet.toList_ofList fun slot => by
      have hmem : slot ∈ foundSlots u.id.text form ↔
          slot ∈ form.keys.filterMap (fieldSlot? u.id.text) := by
        rw [foundSlots, ← SortedSet.has_iff_mem_toList, SortedSet.has_ofList]
      rw [← hmem, ← hkeys, SortedMap.mem_keys_iff, List.mem_map]
      constructor
      · rintro ⟨e, he, rfl⟩
        exact SortedMap.exists_get?_ofList he
      · rintro ⟨s, hs⟩
        exact ⟨(slot, s), SortedMap.mem_of_get?_ofList hs, rfl⟩
  exact ⟨congrArg some hfound, hfound.symm, fun slot s hs =>
    hread (slot, s) (SortedMap.mem_of_get?_ofList hs)⟩

/-- Where no field was posted under the stem of an attempt, nothing is read for it. -/
lemma formSubmission_of_unposted {slot : Nat} {a : Attempt ν} (ha : u.attempts.get? slot = some a)
    (hnone : ∀ name, form.get? (a.stem ++ name) = none) :
    formSubmission u form slot = .ok Submission.empty := by
  have htake : ∀ lead fields, Attempt.takeFields ν a.stem lead form fields = .ok [] := by
    intro lead fields
    have hlook : ∀ name, form.get? (a.stem ++ lead ++ name) = none := fun name => by
      rw [String.append_assoc, hnone]
    rw [Attempt.takeFields_of_normal fun e _ raw hraw => by simp [hlook] at hraw]
    simp [hlook]
  have hall : Attempt.takeAll a.stem form = [] := by
    refine List.eq_nil_iff_forall_not_mem.2 fun ⟨name, value⟩ hmem => ?_
    have hvalue := (Attempt.mem_takeAll.1 hmem).2
    rw [hnone] at hvalue
    cases hvalue
  have hbehaviour : a.behaviourFields form = .ok [] := by
    unfold Attempt.behaviourFields
    split
    · exact htake _ _
    · rfl
  have hquestion : a.questionFields form = .ok [] := by
    unfold Attempt.questionFields
    split
    · exact htake _ _
    · rw [hall]
  have hattempt : u.attempt? slot = .ok a := by simp only [Usage.attempt?, ha]
  have hsequence : formSequence a form = .ok none := by
    simp only [formSequence, Attempt.sequenceField, hnone]
  have hflag : formFlag a form = .ok none := by simp only [formFlag, Attempt.flagField, hnone]
  simp only [formSubmission, hattempt, Attempt.readForm_eq, hbehaviour, hquestion, hsequence, hflag,
    bind, Except.bind, pure, Except.pure]
  rfl

end Batch

/-! ## Slots and stems -/

namespace Usage

variable [Scalar ν] {u : Usage ν} {form : Form} {batch : Batch}

open Batch

/-- Which slots a form without a list of slots is about.  They are the slots that a posted field writes
with any number of zeros in front, each of them a slot of the usage.  Every slot with a field under the
stem of its attempt is among them; one without such a field is given the empty submission.  A slot that
no posted field writes with zeros in front is among them exactly if there is a field under the stem of
its attempt. -/
theorem ofForm_finds (hu : u.Reachable) (hne : u.id.text ≠ "") (hcolon : ':' ∉ u.id.text.toList)
    (hform : form.get? slotsField = none) (h : ofForm u form = .ok batch) :
    batch.slots = some batch.submissions.keys ∧
    (∀ slot, slot ∈ batch.submissions.keys ↔ slot ≤ Number.max32 ∧
      ∃ zeros name, Attempt.paddedStemOf u.id.text zeros slot ++ name ∈ form.keys) ∧
    (∀ slot ∈ batch.submissions.keys, ∃ a, u.attempts.get? slot = some a ∧
      ((∀ name, a.stem ++ name ∉ form.keys) → batch.submission slot = Submission.empty)) ∧
    (∀ slot a, u.attempts.get? slot = some a → slot ≤ Number.max32 →
      (∃ name, a.stem ++ name ∈ form.keys) → slot ∈ batch.submissions.keys) ∧
    (∀ slot a, u.attempts.get? slot = some a → slot ≤ Number.max32 →
      (∀ zeros name, Attempt.paddedStemOf u.id.text zeros slot ++ name ∈ form.keys → zeros = 0) →
        (slot ∈ batch.submissions.keys ↔ ∃ name, a.stem ++ name ∈ form.keys)) := by
  obtain ⟨hslots, hfound, hread⟩ := of_ofForm hform h
  have hstem : ∀ {slot : Nat} {a : Attempt ν}, u.attempts.get? slot = some a →
      a.stem = Attempt.paddedStemOf u.id.text 0 slot := fun ha => by
    rw [Attempt.paddedStemOf_zero, Attempt.stem, hu.sound.usageId ha, hu.sound.slot ha]
  have hkeys : ∀ slot, slot ∈ batch.submissions.keys ↔ slot ≤ Number.max32 ∧
      ∃ zeros name, Attempt.paddedStemOf u.id.text zeros slot ++ name ∈ form.keys := by
    intro slot
    rw [hfound, foundSlots, ← SortedSet.has_iff_mem_toList, SortedSet.has_ofList, List.mem_filterMap]
    simp only [fieldSlot?_eq_some_iff hne hcolon]
    constructor
    · rintro ⟨field, hfield, hbound, zeros, name, rfl⟩
      exact ⟨hbound, zeros, name, hfield⟩
    · rintro ⟨hbound, zeros, name, hfield⟩
      exact ⟨_, hfield, hbound, zeros, name, rfl⟩
  have hposted : ∀ slot a, u.attempts.get? slot = some a → slot ≤ Number.max32 →
      (∃ name, a.stem ++ name ∈ form.keys) → slot ∈ batch.submissions.keys := by
    rintro slot a ha hbound ⟨name, hname⟩
    exact (hkeys slot).2 ⟨hbound, 0, name, hstem ha ▸ hname⟩
  refine ⟨hslots, hkeys, fun slot hslot => ?_, hposted, fun slot a ha hbound hplain =>
    ⟨fun hslot => ?_, hposted slot a ha hbound⟩⟩
  · obtain ⟨s, hs⟩ := SortedMap.mem_keys_iff.1 hslot
    have hsubmission := hread slot s hs
    obtain ⟨a, ha, -⟩ := exists_of_bind_eq_ok hsubmission
    have ha := get?_of_attempt? ha
    refine ⟨a, ha, fun hnone => ?_⟩
    have hlook : ∀ name, form.get? (a.stem ++ name) = none := fun name =>
      Option.eq_none_iff_forall_ne_some.2 fun value hvalue =>
        hnone name (SortedMap.mem_keys_iff.2 ⟨value, hvalue⟩)
    rw [formSubmission_of_unposted ha hlook] at hsubmission
    rw [submission, hs, Except.ok.inj hsubmission]
    rfl
  · obtain ⟨-, zeros, name, hname⟩ := (hkeys slot).1 hslot
    obtain rfl := hplain zeros name hname
    exact ⟨name, (hstem ha).symm ▸ hname⟩

/-- A field with a zero in front of its slot, and none under the stem of the slot. -/
theorem ofForm_finds_unposted :
    let blank : Usage Float :=
      ⟨.ephemeral "t", "quiz", "course", "deferredfeedback", SortedMap.empty, Registry.standard, none⟩
    let u := (Operation.add (.trueFalse (.new "q1" "The sky is blue" true)) none).after blank
    let form : Form := SortedMap.ofList [("qt:01_answer", "0")]
    let batch : Batch := ⟨some [1], SortedMap.ofList [(1, Submission.empty)]⟩
    u.Reachable ∧ u.id.text = "t" ∧ form.get? slotsField = none ∧ ofForm u form = .ok batch ∧
      (∃ zeros name, Attempt.paddedStemOf u.id.text zeros 1 ++ name ∈ form.keys) ∧
      ∃ a, u.attempts.get? 1 = some a ∧
        ((∀ name, a.stem ++ name ∉ form.keys) → batch.submission 1 = Submission.empty) := by
  intro blank u form batch
  have hnew : Usage.new "t" "quiz" "course" "deferredfeedback" Registry.standard = .ok blank := rfl
  have hreach : u.Reachable := .operation (.new hnew) _
  have hid : u.id.text = "t" := by decide +kernel
  have hform : form.get? slotsField = none := by decide +kernel
  have hbatch : ofForm u form = .ok batch := by decide +kernel
  have hslot : 1 ∈ batch.submissions.keys := by decide +kernel
  obtain ⟨-, hkeys, hgiven, -⟩ :=
    ofForm_finds hreach (by rw [hid]; decide) (by rw [hid]; decide) hform hbatch
  exact ⟨hreach, hid, hform, hbatch, ((hkeys 1).1 hslot).2, hgiven 1 hslot⟩

/-- A form whose one field belongs to no attempt's stem has an empty submission processed for slot 1,
and the answer that was saved there is taken back. -/
theorem ofForm_finds_padded :
    let blank : Usage Float :=
      ⟨.ephemeral "t", "quiz", "course", "deferredfeedback", SortedMap.empty, Registry.standard, none⟩
    let os : List (Operation Float) :=
      [.add (.trueFalse (.new "q1" "The sky is blue" true)) none,
       .start 1 ⟨0⟩ none ⟨0, 0⟩,
       .act 1 (SortedMap.ofList [("answer", "1")]) ⟨1500⟩ none]
    let u := os.foldl (fun u o => o.after u) blank
    let form : Form := SortedMap.ofList [("qt:01_answer", "0")]
    let batch : Batch := ⟨some [1], SortedMap.ofList [(1, Submission.empty)]⟩
    let u' := (submit batch ⟨2500⟩ none u).state
    u.Reachable ∧ u.id.text = "t" ∧ form.get? slotsField = none ∧ ofForm u form = .ok batch ∧
      (u.attempts.get? 1).map Attempt.stem = some "qt:1_" ∧ (∀ name, "qt:1_" ++ name ∉ form.keys) ∧
      (submit batch ⟨2500⟩ none u).result = .ok () ∧
      (u.attempts.get? 1).map (fun a => (a.steps.length, a.state)) = some (2, .complete) ∧
      (u'.attempts.get? 1).map (fun a => (a.steps.length, a.state)) = some (3, .todo) := by
  intro blank os u form batch u'
  have hnew : Usage.new "t" "quiz" "course" "deferredfeedback" Registry.standard = .ok blank := rfl
  refine ⟨Reachable.foldl_after (.new hnew) os, by decide +kernel, by decide +kernel,
    by decide +kernel, by decide +kernel, fun name hname => ?_, by decide +kernel, by decide +kernel,
    by decide +kernel⟩
  have hfield : "qt:1_" ++ name = "qt:01_answer" := List.mem_singleton.1 hname
  have hchars := congrArg String.toList hfield
  rw [String.toList_append] at hchars
  simp at hchars

end Usage
end Assessment
