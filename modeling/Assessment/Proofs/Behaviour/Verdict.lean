import Assessment.Proofs.Behaviour.Ruling

/-!
# What a ruling does to the state and the fraction

A draft that a behaviour keeps leads to a state and perhaps a fraction in one of four ways
(`Behaviour.Verdict`, `Behaviour.rule_verdict`).

* A comment without a mark marks the state as commented and keeps the fraction.
* A comment with a mark awards a fraction and puts the state in its class.
* Any other action is kept only on an attempt that is not finished.  It grades a response, to what
  the behaviour lets a raw fraction earn (`Behaviour.Earns`),
* or it leaves the attempt without a fraction, in a state that has none (`State.isUngraded`).

So a finished attempt takes nothing but comments.  Finishing is never refused
and ends every attempt (`Behaviour.onFinish_ends`): it is discarded on a finished one and finishes
every other, except under the missing behaviour.
-/

namespace Assessment

variable {ν : Type}

/-! ## States -/

namespace State

/-- The states that a behaviour leaves an attempt in when it does not grade it. -/
def isUngraded : State → Bool
  | todo | invalid | complete | needsGrading | finished | gaveUp => true
  | _ => false

@[simp] lemma isFinished_manual (s : State) : s.manual.isFinished = s.isFinished := by
  cases s <;> rfl

@[simp] lemma isGraded_manual (s : State) : s.manual.isGraded = s.isGraded := by
  cases s <;> rfl

/-- A graded attempt is over. -/
lemma isFinished_of_isGraded {s : State} (h : s.isGraded = true) : s.isFinished = true := by
  cases s <;> first | rfl | cases h

lemma isGraded_of_isUngraded {s : State} (h : s.isUngraded = true) : s.isGraded = false := by
  cases s <;> first | rfl | cases h

lemma isCommented_of_isUngraded {s : State} (h : s.isUngraded = true) : s.isCommented = false := by
  cases s <;> first | rfl | cases h

variable [Scalar ν]

lemma ofFraction_cases (fraction : ν) :
    ofFraction fraction = gradedCorrect ∨ ofFraction fraction = gradedWrong ∨
      ofFraction fraction = gradedPartial := by
  unfold ofFraction
  split
  · exact .inl rfl
  · split
    · exact .inr (.inl rfl)
    · exact .inr (.inr rfl)

@[simp] lemma isGraded_ofFraction (fraction : ν) : (ofFraction fraction).isGraded = true := by
  obtain h | h | h := ofFraction_cases fraction <;> rw [h] <;> rfl

@[simp] lemma isCommented_ofFraction (fraction : ν) :
    (ofFraction fraction).isCommented = false := by
  obtain h | h | h := ofFraction_cases fraction <;> rw [h] <;> rfl

@[simp] lemma isFinished_ofFraction (fraction : ν) : (ofFraction fraction).isFinished = true :=
  isFinished_of_isGraded (isGraded_ofFraction fraction)

@[simp] lemma isGraded_ofManualFraction (fraction : ν) :
    (ofManualFraction fraction).isGraded = true := by
  rw [ofManualFraction, isGraded_manual, isGraded_ofFraction]

end State

/-- A response that can be graded without a person gets the state of its fraction. -/
lemma Question.grade_state [Scalar ν] {q : Question ν} {response : Vars}
    (h : q.isGradable response = true) :
    (q.grade response).2 = .ofFraction (q.grade response).1 := by
  cases q with
  | essay q => cases h
  | description q => cases h
  | _ => rfl

lemma Question.isFinished_grade [Scalar ν] {q : Question ν} {response : Vars}
    (h : q.isGradable response = true) : (q.grade response).2.isFinished = true := by
  rw [Question.grade_state h, State.isFinished_ofFraction]

/-! ## Moves -/

namespace Behaviour

variable [Scalar ν]

/-- What a raw fraction may earn.  The last three behaviours never grade. -/
def Earns : Behaviour → Attempt ν → ν → ν → Prop
  | deferred, _, raw, earned | immediate, _, raw, earned | adaptive _, _, raw, earned => earned = raw
  | certainty, _, raw, earned => ∃ c : Certainty, earned = c.adjust raw
  | interactive, a, raw, earned => earned = Interactive.penalised a raw (Interactive.triesLeft a)
  | manual, _, _, _ | information, _, _, _ | missing _, _, _, _ => False

/-- The state and the fraction of a kept draft that is no comment. -/
inductive Moves (b : Behaviour) (a : Attempt ν) (d : Draft ν) : Prop
  | grade (response : Vars) (earned : ν) (hr : a.question.isGradable response = true)
    (hearns : b.Earns a (a.question.grade response).1 earned)
    (hstate : d.state = .ofFraction (a.question.grade response).1)
    (hfraction : d.fraction = some earned)
  | leave (hstate : d.state.isUngraded = true) (hfraction : d.fraction = none)

end Behaviour

/-- A ruling that keeps a draft only on an attempt that is not finished, and moves it. -/
def Ruling.Moves [Scalar ν] (b : Behaviour) (a : Attempt ν) : Ruling ν → Prop
  | .discard => True
  | .keep d => a.state.isFinished = false ∧ b.Moves a d

section

open Behaviour

variable [Scalar ν]

/-- A draft that is graded as the response deserves. -/
lemma Behaviour.moves_graded {b : Behaviour} {a : Attempt ν} {response : Vars} {d : Draft ν}
    (hr : a.question.isGradable response = true) {earned : ν}
    (hearns : b.Earns a (a.question.grade response).1 earned) :
    b.Moves a (d.graded (earned, (a.question.grade response).2)) :=
  .grade response earned hr hearns (Question.grade_state hr) rfl

namespace Ruling

variable {b : Behaviour} {a : Attempt ν} {d d' : Draft ν} {r : Ruling ν}

/-- A ruling behind a guard that a finished attempt does not pass. -/
lemma moves_guard {guard : Bool} (hguard : a.state.isFinished = true → guard = true)
    (h : a.state.isFinished = false → r.Moves b a) :
    (if guard = true then .discard else r : Ruling ν).Moves b a := by
  by_cases hg : guard = true
  · rw [if_pos hg]
    trivial
  · rw [if_neg hg]
    exact h (by simpa using fun ha => hg (hguard ha))

/-- A ruling that grades a response if that can be graded. -/
lemma moves_gradeOr {response : Vars} (ha : a.state.isFinished = false)
    (hgrade : a.question.isGradable response = true → b.Moves a d) (hleave : b.Moves a d') :
    (if a.question.isGradable response = true then .keep d else .keep d' : Ruling ν).Moves b a := by
  by_cases hr : a.question.isGradable response = true
  · rw [if_pos hr]
    exact ⟨ha, hgrade hr⟩
  · rw [if_neg hr]
    exact ⟨ha, hleave⟩

lemma save_moves (b : Behaviour) (isSame : Bool) (a : Attempt ν) (hd : d.fraction = none) :
    (save isSame a d).Moves b a := by
  refine moves_guard (fun ha => by rw [ha, Bool.true_or]) fun ha => ⟨ha, .leave ?_ hd⟩
  simp only [Draft.summarised, Draft.withState]
  split <;> rfl

omit [Scalar ν] in
/-- Saving never grades. -/
lemma fraction_save {isSame : Bool} (h : save isSame a d = .keep d') :
    d'.fraction = d.fraction := by
  unfold save at h
  split at h
  · cases h
  · cases h
    rfl

lemma gradeLatest_moves (hd : d.fraction = none) (hearns : ∀ raw, b.Earns a raw raw) :
    (gradeLatest a d).Moves b a :=
  moves_guard id fun ha =>
    moves_gradeOr ha (fun hr => moves_graded hr (hearns _)) (.leave rfl hd)

lemma gradeDraft_moves {otherwise : State} (hd : d.fraction = none)
    (hearns : ∀ raw, b.Earns a raw raw) (ho : otherwise.isUngraded = true) :
    b.Moves a (gradeDraft otherwise a d) := by
  unfold gradeDraft
  by_cases hr : a.question.isGradable d.vars.questionPart = true
  · simp only [if_pos hr]
    exact .grade _ _ hr (hearns _) (Question.grade_state hr) rfl
  · simp only [if_neg hr]
    exact .leave ho hd

end Ruling

open Ruling

namespace Certainty

variable {a : Attempt ν} {d : Draft ν}

lemma grade_moves {response : Vars} (hr : a.question.isGradable response = true)
    (certainty : Option Certainty) (d : Draft ν) :
    Behaviour.certainty.Moves a (grade a response certainty d) := by
  unfold grade
  cases certainty <;> exact moves_graded hr ⟨_, rfl⟩

lemma submit_moves (hd : d.fraction = none) : (submit a d).Moves .certainty a := by
  refine moves_guard id fun ha => ?_
  simp only
  split
  · exact moves_gradeOr ha (fun hr => grade_moves hr _ _) (.leave rfl hd)
  · exact ⟨ha, .leave rfl hd⟩

/-- A complete answer that is saved without a certainty is still to do. -/
lemma save_moves (hd : d.fraction = none) : (save a d).Moves .certainty a := by
  have h := Ruling.save_moves .certainty (isSame a d) a hd
  unfold save
  cases hr : Ruling.save (isSame a d) a d with
  | discard => trivial
  | keep d' =>
    rw [hr] at h
    obtain ⟨ha, hmoves⟩ := h
    have hnone : d'.fraction = none := (fraction_save hr).trans hd
    simp only
    split
    · exact ⟨ha, .leave rfl hnone⟩
    · exact ⟨ha, hmoves⟩

lemma finish_moves (hd : d.fraction = none) : (finish a d).Moves .certainty a :=
  moves_guard id fun ha => moves_gradeOr ha (fun hr => grade_moves hr _ _) (.leave rfl hd)

end Certainty

namespace Interactive

variable {a : Attempt ν} {d : Draft ν}

omit [Scalar ν] in
lemma not_isFinished_of_awaitsRetry (h : awaitsRetry a = true) : a.state.isFinished = false := by
  simp only [awaitsRetry, Bool.and_eq_true] at h
  exact State.not_isFinished_of_isActive h.1

lemma submit_moves (hd : d.fraction = none) : (submit a d).Moves .interactive a := by
  refine moves_guard (fun ha => by rw [ha, Bool.true_or, Bool.true_or]) fun ha => ?_
  simp only
  by_cases hr : a.question.isGradable d.vars.questionPart = true
  · rw [if_pos hr]
    split
    · exact ⟨ha, moves_graded hr rfl⟩
    · exact ⟨ha, .leave rfl hd⟩
  · rw [if_neg hr]
    exact ⟨ha, .leave rfl hd⟩

lemma retry_moves (hd : d.fraction = none) : (retry a d).Moves .interactive a := by
  unfold retry
  by_cases hawaits : awaitsRetry a = true
  · rw [if_pos hawaits]
    exact ⟨not_isFinished_of_awaitsRetry hawaits, .leave rfl hd⟩
  · rw [if_neg hawaits]
    trivial

lemma save_moves (hd : d.fraction = none) : (save a d).Moves .interactive a := by
  unfold save
  by_cases hawaits : awaitsRetry a = true
  · rw [if_pos hawaits]
    trivial
  · rw [if_neg hawaits]
    exact Ruling.save_moves _ _ a hd

lemma finish_moves (hd : d.fraction = none) : (finish a d).Moves .interactive a :=
  moves_guard id fun ha => moves_gradeOr ha (fun hr => moves_graded hr rfl) (.leave rfl hd)

end Interactive

namespace Adaptive

variable {a : Attempt ν} {d : Draft ν}

lemma submit_moves (preferred : String) (hd : d.fraction = none) :
    (submit a d).Moves (.adaptive preferred) a := by
  refine moves_guard (fun ha => by rw [ha, Bool.true_or]) fun ha => ?_
  have hmoves : (Behaviour.adaptive preferred).Moves a (gradeDraft .todo a d) :=
    gradeDraft_moves hd (fun _ => rfl) rfl
  refine moves_gradeOr ha (fun _ => hmoves) ?_
  -- the status line is a variable: the state and the fraction are those of the graded draft
  cases hmoves with
  | grade response earned hr hearns hstate hfraction =>
    exact .grade response earned hr hearns hstate hfraction
  | leave hstate hfraction => exact .leave hstate hfraction

lemma finish_moves (preferred : String) (hd : d.fraction = none) :
    (finish a d).Moves (.adaptive preferred) a :=
  moves_guard id fun ha => ⟨ha, .leave rfl hd⟩

end Adaptive

namespace Behaviour

lemma onSave_moves (b : Behaviour) (a : Attempt ν) {d : Draft ν} (hd : d.fraction = none) :
    (b.onSave a d).Moves b a := by
  cases b with
  | certainty => exact Certainty.save_moves hd
  | interactive => exact Interactive.save_moves hd
  | _ => exact Ruling.save_moves _ _ a hd

lemma onFinish_moves (b : Behaviour) (a : Attempt ν) {d : Draft ν} (hd : d.fraction = none) :
    (b.onFinish a d).Moves b a := by
  cases b with
  | deferred => exact gradeLatest_moves hd fun _ => rfl
  | immediate => exact gradeLatest_moves hd fun _ => rfl
  | certainty => exact Certainty.finish_moves hd
  | interactive => exact Interactive.finish_moves hd
  | manual =>
    refine moves_guard id fun ha => ⟨ha, .leave ?_ hd⟩
    simp only [Draft.withState]
    split <;> rfl
  | information => exact moves_guard id fun ha => ⟨ha, .leave rfl hd⟩
  | adaptive preferred => exact Adaptive.finish_moves preferred hd
  | missing storedName => trivial

lemma onSubmit_moves (a : Attempt ν) {d : Draft ν} (hd : d.fraction = none) :
    (onSubmit a d).Moves .immediate a :=
  moves_guard id fun ha => ⟨ha, gradeDraft_moves hd (fun _ => rfl) rfl⟩

lemma onSeen_moves (a : Attempt ν) {d : Draft ν} (hd : d.fraction = none) :
    (onSeen a d).Moves .information a := by
  unfold onSeen
  by_cases htodo : (a.state == .todo) = true
  · have hstate : a.state = .todo := by simpa using htodo
    rw [if_pos htodo]
    exact ⟨by rw [hstate]; rfl, .leave rfl hd⟩
  · rw [if_neg htodo]
    trivial

/-- An action that is no comment is kept only on an attempt that is not finished, and moves it. -/
lemma Reacts.moves {b : Behaviour} {a : Attempt ν} {d : Draft ν} {r : Ruling ν}
    (h : Reacts a d b r) (hd : d.fraction = none) : r.Moves b a := by
  cases h with
  | finish b => exact onFinish_moves b a hd
  | save b => exact onSave_moves b a hd
  | submit => exact onSubmit_moves a hd
  | submitSure => exact Certainty.submit_moves hd
  | submitTry => exact Interactive.submit_moves hd
  | retry => exact Interactive.retry_moves hd
  | seen => exact onSeen_moves a hd
  | adapt preferred => exact Adaptive.submit_moves preferred hd
  | ignore b => trivial

/-- A finished attempt takes nothing but comments. -/
lemma rule_of_isFinished {b : Behaviour} {a : Attempt ν} {d : Draft ν}
    (ha : a.state.isFinished = true) (hc : b.takesComment d.vars = false)
    (hd : d.fraction = none) : b.rule a d = .ok .discard := by
  obtain ⟨r, hr, hreacts⟩ := rule_of_not_takesComment a hc
  rw [hr]
  cases r with
  | discard => rfl
  | keep d' =>
    have hopen : a.state.isFinished = false := (hreacts.moves hd).1
    rw [ha] at hopen
    cases hopen

/-! ## Verdicts -/

/-- How a kept draft changes the state and the fraction of an attempt. -/
inductive Verdict (b : Behaviour) (a : Attempt ν) (d d' : Draft ν) : Prop
  | remark (hc : b.takesComment d.vars = true) (hstate : d'.state = a.state.manual)
    (hfraction : d'.fraction = a.fraction)
  | award (hc : b.takesComment d.vars = true) (hb : b ≠ .information) (text : String) (fraction : ν)
    (haward : Ruling.award a d text = .ok fraction) (hstate : d'.state = .ofManualFraction fraction)
    (hfraction : d'.fraction = some fraction)
  | move (hc : b.takesComment d.vars = false) (ha : a.state.isFinished = false)
    (h : b.Moves a d')

lemma comment_verdict {b : Behaviour} {a : Attempt ν} {d d' : Draft ν}
    (hc : b.takesComment d.vars = true)
    (hb : b = .information → Ruling.markText? d = none)
    (h : Ruling.comment a d = .ok (.keep d')) : b.Verdict a d d' := by
  cases ht : Ruling.markText? d with
  | none =>
    rw [Ruling.comment_of_noMark a ht] at h
    cases h
    exact .remark hc rfl rfl
  | some text =>
    have hb' : b ≠ .information := fun heq => by
      have hnone := hb heq
      rw [ht] at hnone
      cases hnone
    rw [Ruling.comment_of_mark a ht] at h
    cases haward : Ruling.award a d text with
    | error e => rw [haward] at h; cases h
    | ok fraction =>
      rw [haward] at h
      cases h
      exact .award hc hb' text fraction haward rfl rfl

/-- Every draft that a behaviour keeps follows one of the verdicts. -/
theorem rule_verdict {b : Behaviour} {a : Attempt ν} {d d' : Draft ν} (hd : d.fraction = none)
    (h : b.rule a d = .ok (.keep d')) : b.Verdict a d d' := by
  cases hc : b.takesComment d.vars with
  | false =>
    obtain ⟨r, hr, hreacts⟩ := rule_of_not_takesComment a hc
    rw [h] at hr
    cases hr
    have hmoves := hreacts.moves hd
    exact .move hc hmoves.1 hmoves.2
  | true =>
    rw [rule_of_takesComment a hc] at h
    unfold onComment at h
    split at h
    · split at h
      · cases h
      · rename_i hmark
        exact comment_verdict hc (fun _ => by simpa using hmark) h
    · rename_i hb
      exact comment_verdict hc (fun heq => absurd heq (by simpa using hb)) h

/-! ## Finishing -/

end Behaviour

/-- A ruling after which the attempt is finished. -/
def Ruling.Ends (a : Attempt ν) : Ruling ν → Prop
  | .discard => a.state.isFinished = true
  | .keep d => d.state.isFinished = true

omit [Scalar ν] in
lemma Ruling.ends_guard {a : Attempt ν} {r : Ruling ν} (h : r.Ends a) :
    (if a.state.isFinished = true then .discard else r : Ruling ν).Ends a := by
  by_cases ha : a.state.isFinished = true
  · rw [if_pos ha]
    exact ha
  · rw [if_neg ha]
    exact h

/-- A ruling that grades a response and otherwise gives up ends the attempt. -/
lemma Ruling.ends_gradeOr {a : Attempt ν} {response : Vars} {d d' : Draft ν}
    (hgrade : d.state = (a.question.grade response).2) (hleave : d'.state.isFinished = true) :
    (if a.question.isGradable response = true then .keep d else .keep d' : Ruling ν).Ends a := by
  by_cases hr : a.question.isGradable response = true
  · rw [if_pos hr]
    have hstate : d.state = .ofFraction (a.question.grade response).1 :=
      hgrade.trans (Question.grade_state hr)
    show d.state.isFinished = true
    rw [hstate, State.isFinished_ofFraction]
  · rw [if_neg hr]
    exact hleave

namespace Behaviour

/-- Finishing ends every attempt, except under the missing behaviour. -/
theorem onFinish_ends {b : Behaviour} (hb : ∀ storedName, b ≠ .missing storedName) (a : Attempt ν)
    (d : Draft ν) : (b.onFinish a d).Ends a := by
  cases b with
  | deferred => exact ends_guard (ends_gradeOr rfl rfl)
  | immediate => exact ends_guard (ends_gradeOr rfl rfl)
  | certainty =>
    refine ends_guard (ends_gradeOr ?_ rfl)
    unfold Certainty.grade
    cases (a.behaviour? "certainty").bind Certainty.read? <;> rfl
  | interactive => exact ends_guard (ends_gradeOr rfl rfl)
  | manual =>
    refine ends_guard ?_
    by_cases hcomplete : a.question.isComplete a.response = true
    · rw [if_pos hcomplete]
      rfl
    · rw [if_neg hcomplete]
      rfl
  | information => exact ends_guard rfl
  | adaptive preferred => exact ends_guard rfl
  | missing storedName => exact absurd rfl (hb storedName)

end Behaviour

end
end Assessment
