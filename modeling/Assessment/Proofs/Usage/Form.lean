import Assessment.Proofs.Attempt.History
import Assessment.Proofs.Behaviour.Bookkeeping
import Assessment.Proofs.Behaviour.Verdict
import Assessment.Proofs.Data.SortedMap
import Assessment.Proofs.Usage.Batch

/-!
# What a posted form can do

A page posts whatever names and values it likes.  An attempt takes from them the fields that its
behaviour and its question expect; a question that takes every field takes none with a reserved name.
So nothing that is read out of a form is under a name of the system: a cached one, one of a comment,
or finishing (`isPrivilegedKey`, `Attempt.isUnprivileged_readForm`).

A batch that a form submits therefore has no comments, and processing it cannot be refused for what a
comment says: it fails in the checks, with nothing changed, or it succeeds.  Then every new step is
what the behaviour made of the submission (`Step.Answers`), and no attempt gets into a state that only
a comment leads to (`Usage.form_cannot_forge`).
-/

namespace Assessment

/-- Whether a name is one that the system keeps to itself: a cached one, one that a comment is made
of, or the one that finishes an attempt. -/
def isPrivilegedKey (key : String) : Bool :=
  isCachedKey key || ["-comment", "-mark", "-maxmark", "-finish"].contains key

/-- Variables without a privileged name. -/
def Vars.IsUnprivileged (vars : Vars) : Prop := ∀ key ∈ vars.keys, isPrivilegedKey key = false

/-- A chain that succeeds succeeds in both parts. -/
lemma exists_of_bind_eq_ok {ε α β : Type} {x : Except ε α} {f : α → Except ε β} {b : β}
    (h : x >>= f = .ok b) : ∃ a, x = .ok a ∧ f a = .ok b := by
  cases x with
  | error e => cases h
  | ok a => exact ⟨a, rfl, h⟩

variable {ν : Type}

/-! ## Reading a form -/

lemma Vars.hasComment_of_isUnprivileged {vars : Vars} (h : vars.IsUnprivileged) :
    vars.hasBehaviour "comment" = false := by
  rw [hasBehaviour, Option.isSome_eq_false_iff, Option.isNone_iff_eq_none]
  by_contra hsome
  obtain ⟨value, hvalue⟩ := Option.ne_none_iff_exists'.1 hsome
  have hkey := h _ (SortedMap.mem_keys_iff.2 ⟨value, hvalue⟩)
  exact absurd hkey (by decide)

/-- What is unprivileged was submitted. -/
lemma Vars.submitted_of_isUnprivileged {vars : Vars} (h : vars.IsUnprivileged) :
    vars.submitted = vars :=
  submitted_eq_self fun key hkey => (Bool.or_eq_false_iff.1 (h key hkey)).1

/-- Whatever the state of an attempt, its behaviour expects only these fields. -/
lemma Behaviour.mem_expected {b : Behaviour} {a : Attempt ν} {name : String}
    (h : name ∈ (b.expected a).keys) : name ∈ ["submit", "certainty", "tryagain", "seen"] := by
  have hnames : ∀ fields ∈ [SortedMap.empty, SortedMap.ofList [("submit", FieldKind.bool)],
      SortedMap.ofList [("certainty", FieldKind.int), ("submit", FieldKind.bool)],
      SortedMap.ofList [("tryagain", FieldKind.bool)], SortedMap.ofList [("seen", FieldKind.bool)]],
      ∀ name ∈ fields.keys, name ∈ ["submit", "certainty", "tryagain", "seen"] := by decide
  refine hnames (b.expected a) ?_ name h
  cases b <;> simp only [expected] <;> repeat' split
  all_goals simp

/-- A question that does not take every field expects at most an answer. -/
lemma Question.mem_expected {q : Question ν} {fields : Fields} (h : q.expected = .fields fields)
    {name : String} (hname : name ∈ fields.keys) : name = answerField := by
  cases q <;> cases h <;> simp_all [SortedMap.keys, SortedMap.ofList, SortedMap.empty,
    SortedMap.insert, SortedMap.place]

namespace Attempt

/-- The names that are not reserved are not privileged. -/
lemma isPrivilegedKey_of_not_isReserved {name : String} (h : isReserved name = false) :
    isPrivilegedKey name = false := by
  unfold isReserved at h
  split at h
  · cases h
  · rename_i c rest hname
    simp only [Bool.or_eq_false_iff, beq_eq_false_iff_ne] at h
    obtain ⟨⟨hdash, hbar⟩, -⟩ := h
    have hbare : bareName name = c :: rest := by
      unfold bareName
      rw [hname]
      split
      · rename_i heq
        cases heq
        exact absurd rfl hdash
      · rfl
    have hcached : isCachedKey name = false := by simp [isCachedKey, hbare, hbar]
    have hother : name ∉ ["-comment", "-mark", "-maxmark", "-finish"] := by
      intro hmem
      have hlead : ∀ key ∈ ["-comment", "-mark", "-maxmark", "-finish"],
          key.toList.head? = some '-' := by decide
      have hhead := hlead name hmem
      rw [hname] at hhead
      exact hdash (Option.some.inj hhead)
    simp [isPrivilegedKey, hcached, List.contains_eq_mem, hother]

lemma isPrivilegedKey_of_mem_takeAll {stem : String} {form : Form} {e : String × String}
    (h : e ∈ takeAll stem form) : isPrivilegedKey e.1 = false := by
  obtain ⟨field, -, hfield⟩ := List.mem_filterMap.1 h
  obtain ⟨name, -, hname⟩ := Option.bind_eq_some_iff.1 hfield
  split at hname
  · cases hname
  · rename_i hreserved
    obtain rfl := Option.some.inj hname
    exact isPrivilegedKey_of_not_isReserved (by simpa using hreserved)

variable [Scalar ν]

/-- Only expected fields are taken, under their own names. -/
lemma exists_of_mem_takeFields {stem lead : String} {form : Form}
    {fields : List (String × FieldKind)} {l : List (String × String)}
    (h : takeFields ν stem lead form fields = .ok l) {e : String × String} (he : e ∈ l) :
    ∃ name ∈ fields.map Prod.fst, e.1 = lead ++ name := by
  induction fields generalizing l with
  | nil =>
    cases h
    cases he
  | cons field rest ih =>
    obtain ⟨name, kind⟩ := field
    have hrest {l' : List (String × String)} (h' : takeFields ν stem lead form rest = .ok l')
        (he' : e ∈ l') : ∃ name' ∈ (name, kind) :: rest |>.map Prod.fst, e.1 = lead ++ name' := by
      obtain ⟨name', hname', heq⟩ := ih h' he'
      exact ⟨name', List.mem_cons_of_mem _ hname', heq⟩
    simp only [takeFields] at h
    split at h
    · exact hrest h he
    · obtain ⟨value, -, h⟩ := exists_of_bind_eq_ok h
      obtain ⟨more, hmore, h⟩ := exists_of_bind_eq_ok h
      cases h
      rcases List.mem_cons.1 he with rfl | he
      · exact ⟨name, List.mem_cons_self, rfl⟩
      · exact hrest hmore he

/-- What the behaviour takes out of a form. -/
def behaviourFields (a : Attempt ν) (form : Form) : Except Fault (List (String × String)) :=
  match a.behaviour with
  | some b => takeFields ν a.stem "-" form (b.expected a).entries
  | none => .ok []

/-- What the question takes out of a form. -/
def questionFields (a : Attempt ν) (form : Form) : Except Fault (List (String × String)) :=
  match a.question.expected with
  | .fields fields => takeFields ν a.stem "" form fields.entries
  | .every => .ok (takeAll a.stem form)

lemma readForm_eq (a : Attempt ν) (form : Form) :
    a.readForm form = (do
      let behaviourPart ← a.behaviourFields form
      let questionPart ← a.questionFields form
      return SortedMap.ofList (behaviourPart ++ questionPart)) := by
  unfold readForm behaviourFields questionFields
  cases a.behaviour <;> cases a.question.expected <;> rfl

lemma isPrivilegedKey_of_mem_behaviourFields {a : Attempt ν} {form : Form}
    {l : List (String × String)} (h : a.behaviourFields form = .ok l) {e : String × String}
    (he : e ∈ l) : isPrivilegedKey e.1 = false := by
  have hplain : ∀ name ∈ ["submit", "certainty", "tryagain", "seen"],
      isPrivilegedKey ("-" ++ name) = false := by decide
  unfold behaviourFields at h
  split at h
  · obtain ⟨name, hname, heq⟩ := exists_of_mem_takeFields h he
    rw [heq]
    exact hplain name (Behaviour.mem_expected hname)
  · cases h
    cases he

lemma isPrivilegedKey_of_mem_questionFields {a : Attempt ν} {form : Form}
    {l : List (String × String)} (h : a.questionFields form = .ok l) {e : String × String}
    (he : e ∈ l) : isPrivilegedKey e.1 = false := by
  unfold questionFields at h
  split at h
  · rename_i fields hfields
    obtain ⟨name, hname, heq⟩ := exists_of_mem_takeFields h he
    rw [heq, Question.mem_expected hfields hname]
    decide
  · cases h
    exact isPrivilegedKey_of_mem_takeAll he

/-- What an attempt reads out of a form is under no privileged name. -/
lemma isUnprivileged_readForm {a : Attempt ν} {form : Form} {vars : Vars}
    (h : a.readForm form = .ok vars) : vars.IsUnprivileged := by
  rw [readForm_eq] at h
  obtain ⟨behaviourPart, hbehaviour, h⟩ := exists_of_bind_eq_ok h
  obtain ⟨questionPart, hquestion, h⟩ := exists_of_bind_eq_ok h
  cases h
  intro key hkey
  obtain ⟨value, hvalue⟩ := SortedMap.mem_keys_iff.1 hkey
  rcases List.mem_append.1 (SortedMap.mem_of_get?_ofList hvalue) with hmem | hmem
  · have hkept := isPrivilegedKey_of_mem_behaviourFields hbehaviour hmem
    exact hkept
  · have hkept := isPrivilegedKey_of_mem_questionFields hquestion hmem
    exact hkept

end Attempt

namespace Batch

variable [Scalar ν] {u : Usage ν} {form : Form}

lemma isUnprivileged_formSubmission {slot : Nat} {s : Submission}
    (h : formSubmission u form slot = .ok s) : s.vars.IsUnprivileged := by
  obtain ⟨a, -, h⟩ := exists_of_bind_eq_ok h
  obtain ⟨vars, hvars, h⟩ := exists_of_bind_eq_ok h
  obtain ⟨sequenceCheck, -, h⟩ := exists_of_bind_eq_ok h
  obtain ⟨flagged, -, h⟩ := exists_of_bind_eq_ok h
  cases h
  exact Attempt.isUnprivileged_readForm hvars

lemma isUnprivileged_formSubmissions {slots : List Nat} {l : List (Nat × Submission)}
    (h : formSubmissions u form slots = .ok l) {e : Nat × Submission} (he : e ∈ l) :
    e.2.vars.IsUnprivileged := by
  induction slots generalizing l with
  | nil =>
    cases h
    cases he
  | cons slot rest ih =>
    obtain ⟨s, hs, h⟩ := exists_of_bind_eq_ok h
    obtain ⟨more, hmore, h⟩ := exists_of_bind_eq_ok h
    cases h
    rcases List.mem_cons.1 he with rfl | he
    · exact isUnprivileged_formSubmission hs
    · exact ih hmore he

/-- No submission of a batch that a form submits has a privileged name. -/
lemma isUnprivileged_ofForm {batch : Batch} (h : ofForm u form = .ok batch) (slot : Nat) :
    (batch.submission slot).vars.IsUnprivileged := by
  obtain ⟨slots, -, h⟩ := exists_of_bind_eq_ok h
  obtain ⟨submissions, hsubmissions, h⟩ := exists_of_bind_eq_ok h
  cases h
  unfold submission
  cases hs : (SortedMap.ofList submissions).get? slot with
  | none => exact fun key hkey => nomatch hkey
  | some s => exact isUnprivileged_formSubmissions hsubmissions (SortedMap.mem_of_get?_ofList hs)

end Batch

/-! ## What comes of a submission -/

/-- A step that a behaviour made of variables that were sent to an attempt.  It has no comment, it
holds what was submitted, and its cached variables are the behaviour's own bookkeeping. -/
structure Step.Answers [Scalar ν] (b : Behaviour) (vars : Vars) (time : Instant)
    (actor : Option String) (step : Step ν) : Prop where
  ruled : ∃ (a : Attempt ν) (d : Draft ν),
    b.rule a (Draft.new vars time actor) = .ok (.keep d) ∧ step = d.record
  comment : step.vars.hasBehaviour "comment" = false
  submitted : step.vars.submitted = vars
  cached : ∀ key ∈ step.vars.keys, isCachedKey key = true →
    ∃ name ∈ b.bookkeeping, key = cachedBehaviourKey name

lemma Behaviour.answers_of_rule [Scalar ν] {b : Behaviour} {a : Attempt ν} {d : Draft ν} {vars : Vars}
    {time : Instant} {actor : Option String} (hvars : vars.IsUnprivileged)
    (h : b.rule a (Draft.new vars time actor) = .ok (.keep d)) :
    d.record.Answers b vars time actor := by
  have hsubmitted : d.vars.submitted = vars :=
    (rule_follows h).submitted.trans (Vars.submitted_of_isUnprivileged hvars)
  have hcomment : d.vars.hasBehaviour "comment" = false := by
    have hsame := d.vars.behaviour?_submitted "comment" (by decide)
    rw [hsubmitted] at hsame
    rw [Vars.hasBehaviour, ← hsame]
    exact Vars.hasComment_of_isUnprivileged hvars
  refine ⟨⟨a, d, h, rfl⟩, hcomment, hsubmitted, fun key hkey hcached => ?_⟩
  refine (rule_writes h).exists_of_new hkey fun hold => ?_
  have hplain := (Bool.or_eq_false_iff.1 (hvars key hold)).1
  rw [hcached] at hplain
  cases hplain

namespace Attempt

variable [Scalar ν]

/-- What an attempt can become when variables without a comment are sent to it, perhaps several times,
and its flag is set: steps that answer them come after those that are there, and a state that only a
comment leads to is the one that the attempt was in. -/
structure Answered (vars : Vars) (time : Instant) (actor : Option String) (a a' : Attempt ν) :
    Prop where
  behaviour : a'.behaviour = a.behaviour
  steps : ∃ later : List (Step ν), a'.steps = a.steps ++ later ∧
    ∀ step ∈ later, ∃ b, a.behaviour = some b ∧ step.Answers b vars time actor
  state : a'.state.isCommented = true → a'.state = a.state

variable {vars : Vars} {time : Instant} {actor : Option String} {a a' : Attempt ν}

lemma Answered.refl (a : Attempt ν) : a.Answered vars time actor a :=
  ⟨rfl, ⟨[], by simp, by simp⟩, fun _ => rfl⟩

/-- No action but a comment leads to a commented state. -/
lemma not_isCommented_keep {b : Behaviour} {d : Draft ν} (hvars : vars.IsUnprivileged)
    (h : b.rule a (Draft.new vars time actor) = .ok (.keep d)) :
    (a.keep d).state.isCommented = false := by
  have hno : b.takesComment (Draft.new (ν := ν) vars time actor).vars ≠ true := fun hc => by
    have hcomment := Behaviour.hasBehaviour_of_takesComment hc
    rw [show (Draft.new (ν := ν) vars time actor).vars = vars from rfl,
      Vars.hasComment_of_isUnprivileged hvars] at hcomment
    cases hcomment
  rw [state_keep]
  cases Behaviour.rule_verdict rfl h with
  | remark hc => exact absurd hc hno
  | award hc => exact absurd hc hno
  | move _ _ hmoves =>
    cases hmoves with
    | grade _ _ _ _ hstate _ => rw [hstate, State.isCommented_ofFraction]
    | leave hstate _ => exact State.isCommented_of_isUngraded hstate

lemma Answered.act (h : a.Answered vars time actor a') (hvars : vars.IsUnprivileged) :
    a.Answered vars time actor (act vars time actor a').state := by
  obtain ⟨hsame, -⟩ | ⟨b, d, hb, hd, hstate, -⟩ := act_cases a' vars time actor
  · rwa [hsame]
  · obtain ⟨later, hlater, hanswers⟩ := h.steps
    rw [hstate]
    refine ⟨h.behaviour, ⟨later ++ [d.record], by simp [keep, record, hlater], fun step hstep => ?_⟩,
      fun hcommented => ?_⟩
    · rcases List.mem_append.1 hstep with hstep | hstep
      · exact hanswers step hstep
      · obtain rfl := List.mem_singleton.1 hstep
        exact ⟨b, h.behaviour ▸ hb, Behaviour.answers_of_rule hvars hd⟩
    · rw [not_isCommented_keep hvars hd] at hcommented
      cases hcommented

lemma Answered.setFlag (h : a.Answered vars time actor a') (flagged : Bool) :
    a.Answered vars time actor (setFlag flagged a').state := by
  unfold Attempt.setFlag
  split
  · exact h
  · exact ⟨h.behaviour, h.steps, h.state⟩

/-- What is no comment is never refused by a started attempt. -/
lemma act_succeeds {b : Behaviour} (hb : a.behaviour = some b)
    (hvars : vars.hasBehaviour "comment" = false) (time : Instant) (actor : Option String) :
    ∃ outcome, (act vars time actor a).result = .ok outcome := by
  have hno : b.takesComment (Draft.new (ν := ν) vars time actor).vars = false := by
    simp [Behaviour.takesComment, Draft.new, hvars]
  obtain ⟨r, hr, -⟩ := Behaviour.rule_of_not_takesComment a hno
  unfold act
  simp only [hb, hr]
  cases r <;> exact ⟨_, rfl⟩

end Attempt

/-! ## What comes of a batch -/

namespace Usage

variable [Scalar ν] {u u' : Usage ν} {batch : Batch} {time : Instant} {actor : Option String}

/-- A usage after a batch was processed: the same slots under the same behaviours, and what was
submitted for a slot is all that was put to the attempt there. -/
structure Answered (batch : Batch) (time : Instant) (actor : Option String) (u u' : Usage ν) :
    Prop where
  behaviours : u.SameBehaviours u'
  attempts : ∀ slot a', u'.attempts.get? slot = some a' → ∃ a, u.attempts.get? slot = some a ∧
    a.Answered (batch.submission slot).vars time actor a'

lemma Answered.refl (u : Usage ν) : u.Answered batch time actor u :=
  ⟨fun _ => rfl, fun _ a' ha' => ⟨a', ha', .refl a'⟩⟩

/-- An operation on one slot leaves a batch answered if it leaves the attempt there answered. -/
lemma Answered.onSlot {α : Type} (h : u.Answered batch time actor u') {slot : Nat}
    {op : Op Fault (Attempt ν) α}
    (hop : ∀ a a' : Attempt ν, a.Answered (batch.submission slot).vars time actor a' →
      a.Answered (batch.submission slot).vars time actor (op a').state)
    (hsame : u.SameBehaviours (onSlot slot op u').state) :
    u.Answered batch time actor (onSlot slot op u').state := by
  refine ⟨hsame, fun slot' a' ha' => ?_⟩
  unfold Usage.onSlot at ha'
  cases hold : u'.attempts.get? slot with
  | none =>
    rw [hold] at ha'
    exact h.attempts slot' a' ha'
  | some old =>
    rw [hold] at ha'
    obtain ⟨rfl, rfl⟩ | ⟨-, ha'⟩ := SortedMap.get?_insert_cases ha'
    · obtain ⟨a, ha, hanswered⟩ := h.attempts slot' old hold
      exact ⟨a, ha, hop a old hanswered⟩
    · exact h.attempts slot' a' ha'

lemma Answered.submitSlot (h : u.Answered batch time actor u') {slot : Nat}
    (hvars : (batch.submission slot).vars.IsUnprivileged) :
    u.Answered batch time actor (submitSlot batch time actor slot u').state := by
  rw [submitSlot_state]
  exact h.onSlot (fun _ _ hanswered => hanswered.act hvars) (h.behaviours.act slot _ time actor)

lemma Answered.setFlag (h : u.Answered batch time actor u') (slot : Nat) (flagged : Bool) :
    u.Answered batch time actor (setFlag slot flagged u').state :=
  h.onSlot (fun _ _ hanswered => hanswered.setFlag flagged) (h.behaviours.setFlag slot flagged)

/-- An accepted batch without privileged names is processed. -/
lemma process_answers (h : u.Accepts batch)
    (hvars : ∀ slot, (batch.submission slot).vars.IsUnprivileged) (time : Instant)
    (actor : Option String) :
    (process batch time actor (u.slotsOf batch) u).result = .ok () ∧
      u.Answered batch time actor (process batch time actor (u.slotsOf batch) u).state := by
  have hslots := Op.forEach_succeeds (P := u.Answered batch time actor)
    (f := Usage.submitSlot batch time actor) (l := u.slotsOf batch) (fun slot hslot s hs => by
      obtain ⟨a, ha, hb, -⟩ := h.slots slot hslot
      obtain ⟨a', ha', hb'⟩ := hs.behaviours.exists ha
      obtain ⟨b, hb⟩ := Option.isSome_iff_exists.1 hb
      obtain ⟨outcome, hok⟩ := Attempt.act_succeeds (hb'.trans hb)
        (Vars.hasComment_of_isUnprivileged (hvars slot)) time actor
      have hact : (Usage.act slot (batch.submission slot).vars time actor s).result =
          .ok outcome := by
        simp only [Usage.act, Usage.onSlot, ha', hok]
      refine ⟨?_, hs.submitSlot (hvars slot)⟩
      rw [Usage.submitSlot, Op.bind_of_ok hact]
      rfl) (Answered.refl u)
  unfold process
  rw [Op.bind_of_ok hslots.1]
  exact ⟨setFlags_succeeds hslots.2.behaviours h.flags,
    Op.forEach_keeps (fun flag _ s hs => hs.setFlag flag.1 flag.2) hslots.2⟩

/-- A form cannot forge what graders and the system write.  Nothing in a batch that a form submits is
under a privileged name.  Processing the batch fails and leaves the usage as it was, or it succeeds and
answers it: every new step is what its behaviour made of the submission, without a comment and with no
cached variable but the behaviour's bookkeeping, and an attempt in a commented state is in the state
that it was in. -/
theorem form_cannot_forge {form : Form} (h : Batch.ofForm u form = .ok batch) (time : Instant)
    (actor : Option String) :
    (∀ slot, ∀ key ∈ (batch.submission slot).vars.keys,
      isCachedKey key = false ∧ key ∉ ["-comment", "-mark", "-maxmark", "-finish"]) ∧
    ((∃ e, (submit batch time actor u).result = .error e ∧ (submit batch time actor u).state = u) ∨
      (submit batch time actor u).result = .ok () ∧
        u.Answered batch time actor (submit batch time actor u).state) := by
  have hvars := Batch.isUnprivileged_ofForm h
  refine ⟨fun slot key hkey => ?_, ?_⟩
  · simpa [isPrivilegedKey] using hvars slot key hkey
  obtain ⟨hstate, haccepts⟩ := checkBatch_spec batch u
  have hsubmit : submit batch time actor u =
      Op.bind (checkBatch batch) (fun _ => process batch time actor (u.slotsOf batch)) u := rfl
  rw [hsubmit]
  cases hc : (checkBatch batch u).result with
  | error e =>
    rw [Op.bind_of_error hc]
    exact .inl ⟨e, rfl, hstate⟩
  | ok _ =>
    rw [Op.bind_of_ok hc, hstate]
    exact .inr (process_answers (haccepts.1 hc) hvars time actor)

/-- An open question takes every field but the forged ones. -/
theorem form_cannot_forge_open :
    let blank : Usage Float :=
      ⟨.ephemeral "t", "quiz", "course", "immediatefeedback", SortedMap.empty, Registry.standard, none⟩
    let added := (Operation.add (.openAnswer ⟨"q1", 1.0⟩) none).after blank
    let u := (Operation.start 1 ⟨0⟩ none ⟨0, 0⟩).after added
    let form : Form := SortedMap.ofList
      [("qt:1_answer", "1"), ("qt:1_-submit", "1"), ("qt:1_-mark", "1"), ("qt:1_-comment", "good"),
       ("qt:1_-finish", "1"), ("qt:1__hidden", "1"), ("qt:1_-_rawfraction", "1")]
    let batch : Batch := ⟨some [1], SortedMap.ofList
      [(1, ⟨SortedMap.ofList [("-submit", "1"), ("answer", "1")], none, none⟩)]⟩
    Batch.ofForm u form = .ok batch ∧ (submit batch ⟨1500⟩ (some "ada") u).result = .ok () ∧
      u.Answered batch ⟨1500⟩ (some "ada") (submit batch ⟨1500⟩ (some "ada") u).state := by
  intro blank added u form batch
  have hform : Batch.ofForm u form = .ok batch := by decide +kernel
  have hok : (submit batch ⟨1500⟩ (some "ada") u).result = .ok () := by decide +kernel
  obtain ⟨-, ⟨e, he, -⟩ | h⟩ := form_cannot_forge hform ⟨1500⟩ (some "ada")
  · rw [hok] at he
    cases he
  · exact ⟨hform, h⟩

end Usage
end Assessment
