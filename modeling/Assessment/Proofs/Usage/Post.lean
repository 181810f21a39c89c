import Assessment.Proofs.Usage.FieldName
import Assessment.Proofs.Usage.Form

/-!
# Forms decode to what was posted

A page posts the submissions for several slots in one flat form (`Usage.post`): every variable under
the stem of its attempt, the number of steps and the flag under names of their own, and beside them
whatever else the page has to say.  Reading that form gives back the submissions, for exactly the slots
that were posted (`Usage.ofForm_post`).

What an attempt takes out of a form as it is posted is `Attempt.Takes`: a field that it expects, with a
value in normal form, or any unreserved field if the question takes every field.  The condition on the
names that are posted beside the submissions is that they do not begin with `q`, as all field names do,
and that they do not list slots.

The proof has one fact about the form as a whole, which is that the field of a slot is looked up as it
was posted for that slot (`Usage.get?_post`); each part of the reader is then compared with it.
-/

namespace Assessment

variable {ν : Type}

/-! ## What is posted -/

/-- The value that a flag is posted as. -/
def flagText (flagged : Bool) : String := if flagged then "1" else "0"

namespace Attempt

/-- The form fields of a submission to the attempt. -/
def postedFields (a : Attempt ν) (s : Submission) : List (String × String) :=
  s.vars.entries.map (fun e => (a.stem ++ e.1, e.2)) ++
    ((s.sequenceCheck.map fun steps => (a.sequenceField, steps.repr)).toList ++
      (s.flagged.map fun flagged => (a.flagField, flagText flagged)).toList)

/-- The fields that the attempt takes out of a form just as they are posted. -/
inductive Takes [Scalar ν] (a : Attempt ν) : String → String → Prop
  | behaviour {b : Behaviour} {name : String} {kind : FieldKind} {value : String}
    (hb : a.behaviour = some b) (hname : (b.expected a).get? name = some kind)
    (hvalue : kind.normal? ν value = some value) : a.Takes ("-" ++ name) value
  | question {fields : Fields} {name : String} {kind : FieldKind} {value : String}
    (hq : a.question.expected = .fields fields) (hname : fields.get? name = some kind)
    (hvalue : kind.normal? ν value = some value) : a.Takes name value
  | every {name : String} {c : Char} {rest : List Char} {value : String}
    (hq : a.question.expected = .every) (hname : name.toList = c :: rest)
    (hlead : c ∉ ['-', '_', ':']) : a.Takes name value

/-- A submission that a page can post for the attempt: at least one field, the variables as the
attempt takes them, and a number of steps that a signed integer of 64 bits can hold. -/
structure Posts [Scalar ν] (a : Attempt ν) (s : Submission) : Prop where
  vars : ∀ name value, s.vars.get? name = some value → a.Takes name value
  sequenceCheck : ∀ steps, s.sequenceCheck = some steps → steps ≤ 9223372036854775807
  posted : a.postedFields s ≠ []

end Attempt

namespace Usage

/-- The form fields of submissions to several slots. -/
def postedFields (u : Usage ν) (submissions : SortedMap Nat Submission) : List (String × String) :=
  submissions.entries.flatMap fun e =>
    match u.attempts.get? e.1 with
    | some a => a.postedFields e.2
    | none => []

/-- The form that a page posts: the fields of the submissions and some others. -/
def post (u : Usage ν) (submissions : SortedMap Nat Submission) (others : Form) : Form :=
  SortedMap.ofList (u.postedFields submissions ++ others.entries)

/-- Submissions that a page of the usage can post.  Slots are numbers of 32 bits. -/
def Posts [Scalar ν] (u : Usage ν) (submissions : SortedMap Nat Submission) : Prop :=
  ∀ slot s, submissions.get? slot = some s →
    slot ≤ Number.max32 ∧ ∃ a, u.attempts.get? slot = some a ∧ a.Posts s

end Usage

/-- Names that are neither form fields of a usage nor the field that lists slots. -/
def Form.IsBeside (others : Form) : Prop :=
  ∀ name ∈ others.keys, name.toList.head? ≠ some 'q' ∧ name ≠ Batch.slotsField

/-! ## The fields of one slot -/

/-- What a submission posts under a name of the slot's own. -/
def Submission.posted? (s : Submission) (name : String) : Option String :=
  if name = ":sequencecheck" then s.sequenceCheck.map Nat.repr
  else if name = ":flagged" then s.flagged.map flagText
  else s.vars.get? name

namespace Attempt

variable [Scalar ν] {a : Attempt ν} {s : Submission}

/-- Fields that are taken are not named as the fields that the system writes. -/
lemma Takes.head?_ne {name value : String} (h : a.Takes name value) :
    name.toList.head? ≠ some ':' := by
  cases h with
  | behaviour => simp [String.toList_append]
  | question hq hname =>
    rw [Question.mem_expected hq (SortedMap.mem_keys_iff.2 ⟨_, hname⟩)]
    decide
  | every _ hname hlead =>
    rw [hname]
    rintro ⟨⟩
    exact hlead (by decide)

lemma posted?_of_head?_ne {name : String} (h : name.toList.head? ≠ some ':') :
    s.posted? name = s.vars.get? name := by
  have hsequence : name ≠ ":sequencecheck" := by
    rintro rfl
    exact h rfl
  have hflag : name ≠ ":flagged" := by
    rintro rfl
    exact h rfl
  rw [Submission.posted?, if_neg hsequence, if_neg hflag]

/-- The variables of a posted submission are posted under their own names. -/
lemma Posts.vars_get?_iff (h : a.Posts s) {name value : String} :
    s.vars.get? name = some value ↔
      name.toList.head? ≠ some ':' ∧ s.posted? name = some value := by
  constructor
  · intro hvalue
    have hhead := (h.vars name value hvalue).head?_ne
    exact ⟨hhead, by rw [posted?_of_head?_ne hhead, hvalue]⟩
  · rintro ⟨hhead, hvalue⟩
    rwa [posted?_of_head?_ne hhead] at hvalue

/-- The fields of one slot are what the submission posts, under the stem. -/
lemma mem_postedFields (h : a.Posts s) {field value : String} :
    (field, value) ∈ a.postedFields s ↔
      ∃ name, field = a.stem ++ name ∧ s.posted? name = some value := by
  simp only [postedFields, List.mem_append, List.mem_map, Option.mem_toList, Option.map_eq_some_iff,
    Prod.mk.injEq]
  constructor
  · rintro (⟨e, he, rfl, rfl⟩ | ⟨steps, hsteps, rfl, rfl⟩ | ⟨flagged, hflagged, rfl, rfl⟩)
    · exact ⟨e.1, rfl, (h.vars_get?_iff.1 (SortedMap.get?_eq_some_iff.2 he)).2⟩
    · exact ⟨":sequencecheck", rfl, by simp [Submission.posted?, hsteps]⟩
    · exact ⟨":flagged", rfl, by simp [Submission.posted?, hflagged]⟩
  · rintro ⟨name, rfl, hvalue⟩
    unfold Submission.posted? at hvalue
    split at hvalue
    · rename_i hname
      subst hname
      obtain ⟨steps, hsteps, rfl⟩ := Option.map_eq_some_iff.1 hvalue
      exact .inr (.inl ⟨steps, hsteps, rfl, rfl⟩)
    · split at hvalue
      · rename_i hname
        subst hname
        obtain ⟨flagged, hflagged, rfl⟩ := Option.map_eq_some_iff.1 hvalue
        exact .inr (.inr ⟨flagged, hflagged, rfl, rfl⟩)
      · exact .inl ⟨(name, value), SortedMap.get?_eq_some_iff.1 hvalue, rfl, rfl⟩

end Attempt

/-! ## The form as a whole -/

namespace Usage

variable [Scalar ν] {u : Usage ν} {submissions : SortedMap Nat Submission} {others : Form}

/-- Every field of the submissions is built on the stem of its slot. -/
lemma mem_postedFields (hu : u.Sound) (h : u.Posts submissions) {field value : String} :
    (field, value) ∈ u.postedFields submissions ↔
      ∃ slot s name, submissions.get? slot = some s ∧
        field = Attempt.stemOf u.id.text slot ++ name ∧ s.posted? name = some value := by
  simp only [postedFields, List.mem_flatMap]
  constructor
  · rintro ⟨⟨slot, s⟩, he, hmem⟩
    have hs := SortedMap.get?_eq_some_iff.2 he
    obtain ⟨-, a, ha, hposts⟩ := h slot s hs
    simp only [ha] at hmem
    obtain ⟨name, rfl, hname⟩ := (Attempt.mem_postedFields hposts).1 hmem
    exact ⟨slot, s, name, hs, by rw [Attempt.stem, hu.usageId ha, hu.slot ha], hname⟩
  · rintro ⟨slot, s, name, hs, rfl, hname⟩
    obtain ⟨-, a, ha, hposts⟩ := h slot s hs
    refine ⟨(slot, s), SortedMap.get?_eq_some_iff.1 hs, ?_⟩
    simp only [ha]
    refine (Attempt.mem_postedFields hposts).2 ⟨name, ?_, hname⟩
    rw [Attempt.stem, hu.usageId ha, hu.slot ha]

/-- A page of a usage whose identity can be part of a field name. -/
structure Paged (u : Usage ν) (submissions : SortedMap Nat Submission) (others : Form) : Prop where
  sound : u.Sound
  id_ne : u.id.text ≠ ""
  id_colon : ':' ∉ u.id.text.toList
  posts : u.Posts submissions
  beside : others.IsBeside

namespace Paged

lemma get?_post_eq_some_iff (h : u.Paged submissions others) {field value : String} :
    (u.post submissions others).get? field = some value ↔
      (field, value) ∈ u.postedFields submissions ∨ others.get? field = some value := by
  have hhead : ∀ {field value}, (field, value) ∈ u.postedFields submissions →
      field.toList.head? = some 'q' := by
    intro field value hmem
    obtain ⟨slot, s, name, -, rfl, -⟩ := (mem_postedFields h.sound h.posts).1 hmem
    rw [Attempt.toList_stemOf_append]
    rfl
  have hothers : ∀ {field value}, (field, value) ∈ others.entries →
      field.toList.head? ≠ some 'q' := fun hmem =>
    (h.beside _ (List.mem_map_of_mem hmem)).1
  rw [post, SortedMap.get?_ofList_eq_some_iff, List.mem_append, SortedMap.get?_eq_some_iff]
  intro field value value' hmem hmem'
  rcases List.mem_append.1 hmem with hmem | hmem <;> rcases List.mem_append.1 hmem' with hmem' | hmem'
  · obtain ⟨slot, s, name, hs, rfl, hvalue⟩ := (mem_postedFields h.sound h.posts).1 hmem
    obtain ⟨slot', s', name', hs', heq, hvalue'⟩ := (mem_postedFields h.sound h.posts).1 hmem'
    obtain ⟨rfl, rfl⟩ := Attempt.stemOf_append_inj h.id_ne h.id_colon heq
    obtain rfl := Option.some.inj (hs.symm.trans hs')
    exact Option.some.inj (hvalue.symm.trans hvalue')
  · exact absurd (hhead hmem) (hothers hmem')
  · exact absurd (hhead hmem') (hothers hmem)
  · exact Option.some.inj ((SortedMap.get?_eq_some_iff.2 hmem).symm.trans
      (SortedMap.get?_eq_some_iff.2 hmem'))

/-- The field of a slot is looked up as it was posted for that slot. -/
lemma get?_post (h : u.Paged submissions others) {slot : Nat} {s : Submission}
    (hs : submissions.get? slot = some s) {a : Attempt ν} (ha : u.attempts.get? slot = some a)
    (name : String) : (u.post submissions others).get? (a.stem ++ name) = s.posted? name := by
  have hstem : a.stem = Attempt.stemOf u.id.text slot := by
    rw [Attempt.stem, h.sound.usageId ha, h.sound.slot ha]
  apply Option.ext
  intro value
  rw [hstem, h.get?_post_eq_some_iff, mem_postedFields h.sound h.posts]
  constructor
  · rintro (⟨slot', s', name', hs', heq, hvalue⟩ | hother)
    · obtain ⟨rfl, rfl⟩ := Attempt.stemOf_append_inj h.id_ne h.id_colon heq
      rwa [Option.some.inj (hs.symm.trans hs')]
    · refine absurd ?_ (h.beside _ (SortedMap.mem_keys_iff.2 ⟨_, hother⟩)).1
      rw [Attempt.toList_stemOf_append]
      rfl
  · exact fun hvalue => .inl ⟨slot, s, name, hs, rfl, hvalue⟩

end Paged

end Usage

/-! ## Reading the fields of one slot -/

namespace Attempt

variable [Scalar ν] {a : Attempt ν} {s : Submission} {form : Form}

/-- Fields whose posted values are in normal form are taken as they are. -/
lemma takeFields_of_normal {stem lead : String} {fields : List (String × FieldKind)}
    (h : ∀ e ∈ fields, ∀ raw, form.get? (stem ++ lead ++ e.1) = some raw →
      e.2.normal? ν raw = some raw) :
    takeFields ν stem lead form fields = .ok (fields.filterMap fun e =>
      (form.get? (stem ++ lead ++ e.1)).map fun raw => (lead ++ e.1, raw)) := by
  induction fields with
  | nil => rfl
  | cons e rest ih =>
    have hrest := ih fun e' he' => h e' (List.mem_cons_of_mem _ he')
    simp only [takeFields, List.filterMap_cons]
    cases hraw : form.get? (stem ++ lead ++ e.1) with
    | none => exact hrest
    | some raw =>
      have hclean : e.2.clean ν (stem ++ lead ++ e.1) raw = .ok raw := by
        rw [FieldKind.clean, h e List.mem_cons_self raw hraw]
      simp only [hclean, hrest, Option.map_some]
      rfl

lemma mem_takeAll {stem name value : String} :
    (name, value) ∈ takeAll stem form ↔
      isReserved name = false ∧ form.get? (stem ++ name) = some value := by
  simp only [takeAll, List.mem_filterMap, Option.bind_eq_some_iff, Text.afterPrefix?_eq_some_iff]
  constructor
  · rintro ⟨⟨field, raw⟩, hentry, name', rfl, hname⟩
    split at hname
    · cases hname
    · rename_i hreserved
      cases hname
      exact ⟨by simpa using hreserved, SortedMap.get?_eq_some_iff.2 hentry⟩
  · rintro ⟨hreserved, hvalue⟩
    exact ⟨(stem ++ name, value), SortedMap.get?_eq_some_iff.1 hvalue, name, rfl,
      by simp [hreserved]⟩

/-- A variable that is taken under the mark of the behaviour is one that the behaviour expects. -/
lemma Takes.normal_of_behaviour {b : Behaviour} {name value : String} {kind : FieldKind}
    (h : a.Takes ("-" ++ name) value) (hb : a.behaviour = some b)
    (hkind : (b.expected a).get? name = some kind) : kind.normal? ν value = some value := by
  generalize hkey : "-" ++ name = key at h
  have hhead : key.toList.head? = some '-' := by
    rw [← hkey, String.toList_append]
    rfl
  cases h with
  | behaviour hb' hname hvalue =>
    obtain rfl := Option.some.inj (hb.symm.trans hb')
    obtain rfl := (String.append_right_inj _).1 hkey
    obtain rfl := Option.some.inj (hkind.symm.trans hname)
    exact hvalue
  | question hq hname =>
    rw [Question.mem_expected hq (SortedMap.mem_keys_iff.2 ⟨_, hname⟩)] at hhead
    exact absurd hhead (by decide)
  | every _ hname hlead =>
    rw [hname] at hhead
    cases hhead
    exact absurd (by decide) hlead

/-- A variable that is taken under a name of the question is in normal form. -/
lemma Takes.normal_of_question {fields : Fields} {name value : String} {kind : FieldKind}
    (h : a.Takes name value) (hq : a.question.expected = .fields fields)
    (hkind : fields.get? name = some kind) : kind.normal? ν value = some value := by
  have hanswer := Question.mem_expected hq (SortedMap.mem_keys_iff.2 ⟨_, hkind⟩)
  cases h with
  | behaviour =>
    have hhead := congrArg (fun key => key.toList.head?) hanswer
    rw [String.toList_append] at hhead
    cases hhead
  | question hq' hname hvalue =>
    cases hq.symm.trans hq'
    obtain rfl := Option.some.inj (hkind.symm.trans hname)
    exact hvalue
  | every hq' => cases hq.symm.trans hq'

/-- A form has just the fields under the stem of the attempt that a submission posts. -/
def Holds (a : Attempt ν) (form : Form) (s : Submission) : Prop :=
  ∀ name, form.get? (a.stem ++ name) = s.posted? name

/-- Out of the fields that the behaviour or the question expects, the posted ones are taken. -/
lemma takeFields_of_holds (h : a.Holds form s) (lead : String) (fields : Fields)
    (hhead : ∀ name kind, fields.get? name = some kind → (lead ++ name).toList.head? ≠ some ':')
    (hnormal : ∀ name kind value, fields.get? name = some kind →
      s.vars.get? (lead ++ name) = some value → kind.normal? ν value = some value) :
    ∃ l, takeFields ν a.stem lead form fields.entries = .ok l ∧
      ∀ key value, (key, value) ∈ l ↔
        s.vars.get? key = some value ∧ ∃ name kind, fields.get? name = some kind ∧
          key = lead ++ name := by
  have hlook : ∀ e ∈ fields.entries,
      form.get? (a.stem ++ lead ++ e.1) = s.vars.get? (lead ++ e.1) := fun e he => by
    rw [String.append_assoc, h, posted?_of_head?_ne (hhead e.1 e.2 (SortedMap.get?_eq_some_iff.2 he))]
  refine ⟨_, takeFields_of_normal fun e he raw hraw => ?_, fun key value => ?_⟩
  · exact hnormal e.1 e.2 raw (SortedMap.get?_eq_some_iff.2 he) (hlook e he ▸ hraw)
  · simp only [List.mem_filterMap, Option.map_eq_some_iff, Prod.mk.injEq]
    constructor
    · rintro ⟨e, he, raw, hraw, rfl, rfl⟩
      exact ⟨hlook e he ▸ hraw, e.1, e.2, SortedMap.get?_eq_some_iff.2 he, rfl⟩
    · rintro ⟨hvalue, name, kind, hkind, rfl⟩
      have he := SortedMap.get?_eq_some_iff.1 hkind
      exact ⟨(name, kind), he, value, (hlook _ he).trans hvalue, rfl, rfl⟩

/-- The variables of a submission are read out of a form that holds it. -/
lemma readForm_of_holds (hp : a.Posts s) (h : a.Holds form s) : a.readForm form = .ok s.vars := by
  have hbehaviour : ∃ l, a.behaviourFields form = .ok l ∧ ∀ key value, (key, value) ∈ l ↔
      s.vars.get? key = some value ∧ ∃ b name kind, a.behaviour = some b ∧
        (b.expected a).get? name = some kind ∧ key = "-" ++ name := by
    unfold behaviourFields
    cases hb : a.behaviour with
    | none => exact ⟨[], rfl, by simp⟩
    | some b =>
      obtain ⟨l, hl, hmem⟩ := takeFields_of_holds h "-" (b.expected a)
        (fun name kind _ => by simp [String.toList_append])
        fun name kind value hkind hvalue => (hp.vars _ _ hvalue).normal_of_behaviour hb hkind
      exact ⟨l, hl, fun key value => by rw [hmem]; simp⟩
  have hquestion : ∃ l, a.questionFields form = .ok l ∧ ∀ key value, (key, value) ∈ l ↔
      s.vars.get? key = some value ∧
        ((∃ fields kind, a.question.expected = .fields fields ∧ fields.get? key = some kind) ∨
          a.question.expected = .every ∧ isReserved key = false) := by
    unfold questionFields
    cases hq : a.question.expected with
    | every =>
      refine ⟨_, rfl, fun key value => ?_⟩
      rw [mem_takeAll, h, and_comm]
      constructor
      · rintro ⟨hvalue, hname⟩
        obtain ⟨c, rest, hchars, hlead⟩ := isReserved_eq_false_iff.1 hname
        have hhead : key.toList.head? ≠ some ':' := by
          rw [hchars]
          rintro ⟨⟩
          exact hlead (by decide)
        exact ⟨posted?_of_head?_ne hhead ▸ hvalue, .inr ⟨rfl, hname⟩⟩
      · rintro ⟨hvalue, ⟨fields, kind, hfields, -⟩ | ⟨-, hname⟩⟩
        · cases hfields
        · exact ⟨(hp.vars_get?_iff.1 hvalue).2, hname⟩
    | fields fields =>
      obtain ⟨l, hl, hmem⟩ := takeFields_of_holds h "" fields
        (fun name kind hkind => by
          rw [String.empty_append, Question.mem_expected hq (SortedMap.mem_keys_iff.2 ⟨_, hkind⟩)]
          decide)
        fun name kind value hkind hvalue => by
          rw [String.empty_append] at hvalue
          exact (hp.vars _ _ hvalue).normal_of_question hq hkind
      exact ⟨l, hl, fun key value => by rw [hmem]; simp⟩
  obtain ⟨behaviourPart, hbehaviour, hmem⟩ := hbehaviour
  obtain ⟨questionPart, hquestion, hmem'⟩ := hquestion
  rw [readForm_eq, hbehaviour, hquestion]
  refine congrArg Except.ok (SortedMap.ofList_eq fun key value => ?_)
  rw [List.mem_append, hmem, hmem', ← and_or_left, and_iff_left_iff_imp]
  intro hvalue
  cases hp.vars key value hvalue with
  | behaviour hb hname => exact .inl ⟨_, _, _, hb, hname, rfl⟩
  | question hq hname => exact .inr (.inl ⟨_, _, hq, hname⟩)
  | every hq hname hlead => exact .inr (.inr ⟨hq, isReserved_eq_false_iff.2 ⟨_, _, hname, hlead⟩⟩)

lemma formSequence_of_holds (hp : a.Posts s) (h : a.Holds form s) :
    Batch.formSequence a form = .ok s.sequenceCheck := by
  have hfield : form.get? a.sequenceField = s.sequenceCheck.map Nat.repr := h ":sequencecheck"
  unfold Batch.formSequence
  cases hsteps : s.sequenceCheck with
  | none => simp only [hfield, hsteps, Option.map_none]
  | some steps =>
    have hbound := hp.sequenceCheck steps hsteps
    have hread : Number.readNat? Number.max64 steps.repr = some steps :=
      Number.readNat?_repr (Nat.le_trans hbound (by decide))
    simp only [hfield, hsteps, Option.map_some, FieldKind.clean, FieldKind.normal?_int_repr ν hbound,
      bind, Except.bind, hread]

lemma formFlag_of_holds (h : a.Holds form s) : Batch.formFlag a form = .ok s.flagged := by
  have hfield : form.get? a.flagField = s.flagged.map flagText := h ":flagged"
  unfold Batch.formFlag
  cases hflagged : s.flagged with
  | none => simp only [hfield, hflagged, Option.map_none]
  | some flagged =>
    have hnormal : FieldKind.bool.normal? ν (flagText flagged) = some (flagText flagged) :=
      FieldKind.normal?_bool_flag ν flagged
    simp only [hfield, hflagged, Option.map_some, FieldKind.clean, hnormal]
    cases flagged <;> rfl

end Attempt

/-! ## Reading the form -/

namespace Batch

variable [Scalar ν] {u : Usage ν}

/-- What is submitted for several slots is read slot by slot. -/
lemma formSubmissions_eq {form : Form} {l : List (Nat × Submission)}
    (h : ∀ e ∈ l, formSubmission u form e.1 = .ok e.2) :
    formSubmissions u form (l.map Prod.fst) = .ok l := by
  induction l with
  | nil => rfl
  | cons e rest ih =>
    have hrest := ih fun e' he' => h e' (List.mem_cons_of_mem _ he')
    simp only [List.map_cons, formSubmissions, h e List.mem_cons_self, hrest]
    rfl

end Batch

namespace Usage

variable [Scalar ν] {u : Usage ν} {submissions : SortedMap Nat Submission} {others : Form}

namespace Paged

lemma formSubmission_post (h : u.Paged submissions others) {slot : Nat} {s : Submission}
    (hs : submissions.get? slot = some s) :
    Batch.formSubmission u (u.post submissions others) slot = .ok s := by
  obtain ⟨-, a, ha, hp⟩ := h.posts slot s hs
  have hholds : a.Holds (u.post submissions others) s := h.get?_post hs ha
  have hattempt : u.attempt? slot = .ok a := by simp only [attempt?, ha]
  simp only [Batch.formSubmission, hattempt, Attempt.readForm_of_holds hp hholds,
    Attempt.formSequence_of_holds hp hholds, Attempt.formFlag_of_holds hholds, bind, Except.bind,
    pure, Except.pure]

/-- The slots that were posted are found, each once and in order, and no others. -/
lemma formSlots_post (h : u.Paged submissions others) :
    Batch.formSlots ν u.id.text (u.post submissions others) = .ok submissions.keys := by
  have hlist : (u.post submissions others).get? Batch.slotsField = none := by
    rw [Option.eq_none_iff_forall_ne_some]
    intro raw hraw
    rcases h.get?_post_eq_some_iff.1 hraw with hmem | hother
    · obtain ⟨slot, s, name, -, heq, -⟩ := (mem_postedFields h.sound h.posts).1 hmem
      have hhead := congrArg (fun field => field.toList.head?) heq
      rw [Attempt.toList_stemOf_append, List.head?_cons] at hhead
      exact absurd hhead (by decide)
    · exact (h.beside _ (SortedMap.mem_keys_iff.2 ⟨_, hother⟩)).2 rfl
  unfold Batch.formSlots Batch.foundSlots
  rw [hlist]
  refine congrArg Except.ok (SortedSet.toList_ofList fun slot => ?_)
  simp only [List.mem_filterMap, SortedMap.mem_keys_iff]
  constructor
  · rintro ⟨field, ⟨value, hvalue⟩, hslot⟩
    rcases h.get?_post_eq_some_iff.1 hvalue with hmem | hother
    · obtain ⟨slot', s, name, hs, rfl, -⟩ := (mem_postedFields h.sound h.posts).1 hmem
      rw [Batch.fieldSlot?_stemOf h.id_ne h.id_colon (h.posts slot' s hs).1] at hslot
      obtain rfl := Option.some.inj hslot
      exact ⟨s, hs⟩
    · rw [Batch.fieldSlot?_of_head?_ne (h.beside _ (SortedMap.mem_keys_iff.2 ⟨_, hother⟩)).1] at hslot
      cases hslot
  · rintro ⟨s, hs⟩
    obtain ⟨hbound, a, ha, hp⟩ := h.posts slot s hs
    obtain ⟨⟨field, value⟩, hmem⟩ := List.exists_mem_of_ne_nil _ hp.posted
    obtain ⟨name, rfl, hvalue⟩ := (Attempt.mem_postedFields hp).1 hmem
    refine ⟨a.stem ++ name, ⟨value, (h.get?_post hs ha name).trans hvalue⟩, ?_⟩
    rw [Attempt.stem, h.sound.usageId ha, h.sound.slot ha,
      Batch.fieldSlot?_stemOf h.id_ne h.id_colon hbound]

end Paged

/-- Forms decode to what was posted.  When a page of a usage posts submissions to some of its slots,
with other fields beside them, the batch that is read out of the form is for exactly those slots, in
ascending order, and has exactly those submissions. -/
theorem ofForm_post (hu : u.Reachable) (hne : u.id.text ≠ "") (hcolon : ':' ∉ u.id.text.toList)
    (hposts : u.Posts submissions) (hothers : others.IsBeside) :
    Batch.ofForm u (u.post submissions others) = .ok ⟨some submissions.keys, submissions⟩ := by
  have h : u.Paged submissions others := ⟨hu.sound, hne, hcolon, hposts, hothers⟩
  have hsubmissions : Batch.formSubmissions u (u.post submissions others) submissions.keys =
      .ok submissions.entries :=
    Batch.formSubmissions_eq fun e he => h.formSubmission_post (SortedMap.get?_eq_some_iff.2 he)
  simp only [Batch.ofForm, h.formSlots_post, hsubmissions, SortedMap.ofList_entries, bind,
    Except.bind, pure, Except.pure]

/-- Slots whose numbers begin alike, and an open question with names that look like other fields. -/
theorem ofForm_post_alike :
    let blank : Usage Float :=
      ⟨.ephemeral "t", "quiz", "course", "immediatefeedback", SortedMap.empty, Registry.standard, none⟩
    let sky : Question Float := .trueFalse (.new "sky" "The sky is blue" true)
    let os : List (Operation Float) := List.replicate 10 (.add sky none) ++
      [.add (.openAnswer ⟨"any", 1.0⟩) none, .startAll ⟨0⟩ none fun _ => ⟨0, 0⟩]
    let u := os.foldl (fun u o => o.after u) blank
    let submissions : SortedMap Nat Submission := SortedMap.ofList
      [(1, ⟨SortedMap.ofList [("answer", "1"), ("-submit", "1")], some 1, some true⟩),
       (11, ⟨SortedMap.ofList [("x:flagged", "yes"), ("qt:1_answer", " 0 ")], none, some false⟩)]
    let others : Form := SortedMap.ofList [("sesskey", "k1"), ("t:1_answer", "0")]
    u.Reachable ∧ u.id.text = "t" ∧ u.Posts submissions ∧ others.IsBeside ∧
      Batch.ofForm u (u.post submissions others) = .ok ⟨some submissions.keys, submissions⟩ := by
  intro blank sky os u submissions others
  have hnew : Usage.new "t" "quiz" "course" "immediatefeedback" Registry.standard = .ok blank := rfl
  have hreach : u.Reachable := Reachable.foldl_after (.new hnew) os
  have hid : u.id.text = "t" := by decide +kernel
  have hothers : others.IsBeside := by
    unfold Form.IsBeside
    decide +kernel
  have hposts : u.Posts submissions := by
    have hexpects : (u.attempts.get? 1).map (fun a => (a.behaviour,
        (Behaviour.immediate.expected a).get? "submit", a.question.expected)) =
          some (some .immediate, some .bool, .answer .bool) := by decide +kernel
    have hopen : (u.attempts.get? 11).map (fun a => a.question.expected) = some .every := by
      decide +kernel
    obtain ⟨a, ha, hexpects⟩ := Option.map_eq_some_iff.1 hexpects
    obtain ⟨a', ha', hopen⟩ := Option.map_eq_some_iff.1 hopen
    simp only [Prod.mk.injEq] at hexpects
    obtain ⟨hb, hsubmit, hanswer⟩ := hexpects
    intro slot s hs
    have hmem := SortedMap.mem_of_get?_ofList hs
    simp only [List.mem_cons, Prod.mk.injEq, List.not_mem_nil, or_false] at hmem
    rcases hmem with ⟨rfl, rfl⟩ | ⟨rfl, rfl⟩
    · refine ⟨by decide, a, ha, fun name value hvalue => ?_, by simp, by simp [Attempt.postedFields]⟩
      have hmem := SortedMap.mem_of_get?_ofList hvalue
      simp only [List.mem_cons, Prod.mk.injEq, List.not_mem_nil, or_false] at hmem
      rcases hmem with ⟨rfl, rfl⟩ | ⟨rfl, rfl⟩
      · exact .question hanswer (show _ = some FieldKind.bool from rfl) rfl
      · exact .behaviour hb hsubmit rfl
    · refine ⟨by decide, a', ha', fun name value hvalue => ?_, by simp, by simp [Attempt.postedFields]⟩
      have hmem := SortedMap.mem_of_get?_ofList hvalue
      simp only [List.mem_cons, Prod.mk.injEq, List.not_mem_nil, or_false] at hmem
      rcases hmem with ⟨rfl, rfl⟩ | ⟨rfl, rfl⟩
      · exact .every hopen rfl (by decide)
      · exact .every hopen rfl (by decide)
  exact ⟨hreach, hid, hposts, hothers,
    ofForm_post hreach (by rw [hid]; decide) (by rw [hid]; decide) hposts hothers⟩

end Usage
end Assessment
