import Assessment.Proofs.Attempt.History
import Assessment.Proofs.Number.Reading
import Assessment.Proofs.Usage.Reach
import Mathlib.Algebra.Order.Field.Basic

/-!
# Grading by a person

A grader's mark is submitted as a text, and so are the marks that it is out of.  Both are read again,
the one is divided by the other, and what is recorded is the fraction; the mark of the attempt is this
fraction of its marks.  In exact numbers whose texts read back nothing is lost on the way: a mark is
accepted exactly if it is in range (`Grading.InRange`), and then it is the mark of the attempt
(`Attempt.grade_awards`).

A grader is not bound by what the attempt came to before, so of several marks the latest that is in
range counts.
-/

namespace Assessment

open Exact

variable {script : Script}

/-- A comment with a mark. -/
structure Grading where
  comment : String
  mark : ℚ
  time : Instant
  actor : Option String
  deriving DecidableEq

/-- Whether a mark is in range: between the least part of the marks to be had and all of them, or zero
where there are no marks to be had. -/
def Grading.InRange (maxMark least mark : ℚ) : Prop :=
  (0 < maxMark ∧ least * maxMark ≤ mark ∧ mark ≤ maxMark) ∨ (maxMark ≤ 0 ∧ mark = 0)

instance (maxMark least mark : ℚ) : Decidable (Grading.InRange maxMark least mark) :=
  inferInstanceAs (Decidable (_ ∨ _))

/-! ## The fraction of a mark -/

namespace Ruling

variable {maxMark least mark : ℚ}

/-- The fraction of a mark in range gives the mark again. -/
lemma awarded_of_inRange (script : Script) (h : Grading.InRange maxMark least mark) :
    ∃ f : ℚ, awarded (rational mark : Exact script) (rational maxMark) (rational least) =
      .ok (rational f) ∧ f * maxMark = mark := by
  simp only [awarded, zero_eq, one_eq, rational_le, rational_beq]
  obtain ⟨hpos, hlow, hhigh⟩ | ⟨hmax, rfl⟩ := h
  · refine ⟨mark / maxMark, ?_, div_mul_cancel₀ mark hpos.ne'⟩
    have hrange : ¬(1 < mark / maxMark ∨ mark / maxMark < least) := by
      rw [not_or, not_lt, not_lt, div_le_one hpos, le_div_iff₀ hpos]
      exact ⟨hhigh, hlow⟩
    rw [if_neg hpos.not_ge, rational_div mark hpos.ne']
    simp only [rational_lt]
    rw [if_neg hrange]
  · refine ⟨0, ?_, zero_mul maxMark⟩
    rw [if_pos hmax, decide_eq_true rfl, if_pos rfl]

/-- A mark out of range awards nothing. -/
lemma awarded_of_not_inRange (h : ¬Grading.InRange maxMark least mark) :
    awarded (rational mark : Exact script) (rational maxMark) (rational least) =
      .error (.markOutOfRange (script.write mark) (script.write maxMark) (script.write least)) := by
  simp only [awarded, zero_eq, one_eq, rational_le, rational_beq]
  rw [Grading.InRange, not_or, not_and_or, not_lt] at h
  obtain ⟨hpositive, hzero⟩ := h
  by_cases hmax : maxMark ≤ 0
  · have hne : mark ≠ 0 := fun hmark => hzero ⟨hmax, hmark⟩
    rw [if_pos hmax, decide_eq_false hne, if_neg Bool.false_ne_true]
    rfl
  · have hpos : 0 < maxMark := not_le.1 hmax
    have hrange : 1 < mark / maxMark ∨ mark / maxMark < least := by
      rw [one_lt_div hpos, div_lt_iff₀ hpos]
      by_contra hnot
      rw [not_or, not_lt, not_lt] at hnot
      exact (hpositive.resolve_left hmax) ⟨hnot.2, hnot.1⟩
    rw [if_neg hmax, rational_div mark hpos.ne']
    simp only [rational_lt]
    rw [if_pos hrange]
    rfl

end Ruling

namespace Attempt

/-! ## One mark -/

/-- The attempt after a grader's mark, whatever became of it. -/
def afterGrading (a : Attempt (Exact script)) (g : Grading) : Attempt (Exact script) :=
  (grade g.comment (some (rational g.mark)) g.time g.actor a).state

/-- A started attempt that takes marks, with its numbers. -/
structure IsGradable (a : Attempt (Exact script)) (maxMark least : ℚ) : Prop where
  started : ∃ b, a.behaviour = some b ∧ b ≠ .information
  maxMark_eq : a.maxMark = rational maxMark
  minFraction_eq : a.minFraction = some (rational least)
  readsBack : script.ReadsBack maxMark

section

variable {ν : Type} [Scalar ν]

/-- What is submitted with a mark, by name. -/
lemma get?_gradeVars_some (comment : String) (mark : ν) (a : Attempt ν) (key : String) :
    (gradeVars comment (some mark) a).get? key =
      if key = "-maxmark" then some (Scalar.plain a.maxMark)
      else if key = "-mark" then some (Scalar.plain mark)
      else if key = "-comment" then some comment else none := by
  simp [gradeVars, SortedMap.ofList, SortedMap.get?_insert]

/-- Every behaviour but that of an information item takes a mark for a comment. -/
lemma rule_gradeVars {b : Behaviour} (hb : b ≠ .information) (comment : String) (mark : ν)
    (a : Attempt ν) (time : Instant) (actor : Option String) :
    let d := Draft.new (gradeVars comment (some mark) a) time actor
    b.rule a d = Ruling.comment a d := by
  intro d
  have htakes : b.takesComment d.vars = true := by
    simp only [d, Draft.new, Behaviour.takesComment, Vars.hasBehaviour, Vars.behaviour?,
      get?_gradeVars_some]
    cases b <;> rfl
  rw [Behaviour.rule_of_takesComment a htakes]
  cases b with
  | information => exact absurd rfl hb
  | _ => rfl

end

namespace IsGradable

variable {a : Attempt (Exact script)} {maxMark least m : ℚ}

/-- A mark and the marks it is out of are read as they were written. -/
lemma comment_eq (h : a.IsGradable maxMark least) (hm : script.ReadsBack m) (comment : String)
    (time : Instant) (actor : Option String) :
    let d := Draft.new (gradeVars comment (some (rational m)) a) time actor
    Ruling.comment a d =
      (Ruling.awarded (rational m) (rational maxMark) (rational least)).map fun fraction =>
        .keep { d with state := .ofManualFraction fraction, fraction := some fraction } := by
  intro d
  have hmark : d.vars.behaviour? "mark" = some (script.write m) :=
    get?_gradeVars_some comment _ a "-mark"
  have hmax : d.vars.behaviour? "maxmark" = some (script.write maxMark) := by
    refine (get?_gradeVars_some comment _ a "-maxmark").trans ?_
    rw [if_pos rfl, h.maxMark_eq]
    rfl
  have htext : Ruling.markText? d = some (script.write m) := by
    simp [Ruling.markText?, hmark, hm.trim_write, hm.write_ne_empty]
  have haward : Ruling.award a d (script.write m) =
      Ruling.awarded (rational m) (rational maxMark) (rational least) := by
    simp only [Ruling.award, bind, Except.bind, Ruling.outOf, hmax, hm.number?_write,
      h.readsBack.number?_write, minFraction?, h.minFraction_eq]
  rw [Ruling.comment_of_mark a htext, haward]
  rfl

/-- A mark in range is kept, with the fraction that gives the mark again. -/
lemma grade_of_inRange (h : a.IsGradable maxMark least) (hm : script.ReadsBack m)
    (hrange : Grading.InRange maxMark least m) (comment : String) (time : Instant)
    (actor : Option String) :
    let r := grade comment (some (rational m)) time actor a
    r.result = .ok .kept ∧ ∃ (d : Draft (Exact script)) (f : ℚ), r.state = a.keep d ∧
      d.state = .ofManualFraction (rational f : Exact script) ∧ d.fraction = some (rational f) ∧
      f * maxMark = m := by
  obtain ⟨b, hb, hinformation⟩ := h.started
  obtain ⟨f, hawarded, hback⟩ := Ruling.awarded_of_inRange script hrange
  have hrule := (rule_gradeVars hinformation comment (rational m) a time actor).trans
    (h.comment_eq hm comment time actor)
  rw [hawarded] at hrule
  obtain ⟨hresult, hstate⟩ := act_of_keep hb hrule
  exact ⟨hresult, _, f, hstate, rfl, rfl, hback⟩

/-- A mark out of range is refused. -/
lemma grade_of_not_inRange (h : a.IsGradable maxMark least) (hm : script.ReadsBack m)
    (hrange : ¬Grading.InRange maxMark least m) (comment : String) (time : Instant)
    (actor : Option String) :
    let r := grade comment (some (rational m)) time actor a
    r.result = .error
      (.markOutOfRange (script.write m) (script.write maxMark) (script.write least)) ∧
      r.state = a := by
  obtain ⟨b, hb, hinformation⟩ := h.started
  have hrule := (rule_gradeVars hinformation comment (rational m) a time actor).trans
    (h.comment_eq hm comment time actor)
  rw [Ruling.awarded_of_not_inRange hrange] at hrule
  simp only [grade, act, hb, hrule]
  exact ⟨rfl, rfl⟩

/-- What a mark in range makes of the attempt. -/
lemma awards (h : a.IsGradable maxMark least) (hm : script.ReadsBack m)
    (hrange : Grading.InRange maxMark least m) (comment : String) (time : Instant)
    (actor : Option String) :
    let r := grade comment (some (rational m)) time actor a
    r.state.mark = some (rational m) ∧
      ∃ f, r.state.fraction = some f ∧ r.state.state = .ofManualFraction f := by
  obtain ⟨-, d, f, hstate, hclass, hfraction, hback⟩ :=
    h.grade_of_inRange hm hrange comment time actor
  intro r
  have hrecorded : r.state.fraction = some (rational f) := by
    rw [hstate, fraction_keep, hfraction]
  have hmark : r.state.maxMark = rational maxMark := by
    rw [hstate]
    exact h.maxMark_eq
  refine ⟨?_, rational f, hrecorded, by rw [hstate, state_keep, hclass]⟩
  rw [mark, hrecorded, hmark, Option.map_some, rational_mul, hback]

/-! ## Several marks -/

/-- The attempt takes marks after a mark as before. -/
lemma afterGrading (h : a.IsGradable maxMark least) {g : Grading} (hg : script.ReadsBack g.mark) :
    (a.afterGrading g).IsGradable maxMark least := by
  by_cases hrange : Grading.InRange maxMark least g.mark
  · obtain ⟨-, d, f, hstate, -⟩ := h.grade_of_inRange hg hrange g.comment g.time g.actor
    rw [Attempt.afterGrading, hstate]
    exact ⟨h.started, h.maxMark_eq, h.minFraction_eq, h.readsBack⟩
  · rw [Attempt.afterGrading, (h.grade_of_not_inRange hg hrange g.comment g.time g.actor).2]
    exact h

/-- Of several marks the latest in range counts, and those that are not in range do nothing. -/
lemma latest (h : a.IsGradable maxMark least) (gradings : List Grading)
    (hback : ∀ g ∈ gradings, script.ReadsBack g.mark) :
    let a' := gradings.foldl Attempt.afterGrading a
    a'.IsGradable maxMark least ∧
      match (gradings.filter fun g => Grading.InRange maxMark least g.mark).getLast? with
      | some last => a'.mark = some (rational last.mark) ∧
          ∃ f, a'.fraction = some f ∧ a'.state = .ofManualFraction f
      | none => a' = a := by
  induction gradings using List.reverseRecOn with
  | nil => exact ⟨h, rfl⟩
  | append_singleton earlier g ih =>
    obtain ⟨hearlier, hlatest⟩ := ih fun g hg => hback g (List.mem_append_left _ hg)
    have hg : script.ReadsBack g.mark := hback g (List.mem_append_right _ List.mem_cons_self)
    rw [List.foldl_append, List.foldl_cons, List.foldl_nil, List.filter_append]
    refine ⟨hearlier.afterGrading hg, ?_⟩
    by_cases hrange : Grading.InRange maxMark least g.mark
    · rw [List.filter_cons_of_pos (by simpa using hrange), List.filter_nil, List.getLast?_concat]
      exact hearlier.awards hg hrange g.comment g.time g.actor
    · obtain ⟨-, hrefused⟩ := hearlier.grade_of_not_inRange hg hrange g.comment g.time g.actor
      rw [List.filter_cons_of_neg (by simpa using hrange), List.filter_nil, List.append_nil,
        Attempt.afterGrading, hrefused]
      exact hlatest

end IsGradable

/-! ## Marks awarded by a person -/

/-- Every reachable attempt is sound.  If it is started and no information item, a mark is kept
exactly if it is in range: it is then the mark of the attempt, in the state of its fraction, whatever
the state was before.  Any other mark is refused and leaves the attempt as it was.  So of several marks
the latest in range counts.  The numbers are exact, and the marks are found again in their texts. -/
theorem grade_awards {a : Attempt (Exact script)} (ha : a.Sound) {b : Behaviour}
    (hb : a.behaviour = some b) (hinformation : b ≠ .information) {maxMark : ℚ}
    (hmax : a.maxMark = rational maxMark) (hleast : a.minFraction ≠ some undefined)
    (hback : script.ReadsBack maxMark) :
    ∃ least : ℚ, a.minFraction = some (rational least) ∧
      (∀ (comment : String) (m : ℚ) (time : Instant) (actor : Option String), script.ReadsBack m →
        let r := grade comment (some (rational m)) time actor a
        let inRange := (0 < maxMark ∧ least * maxMark ≤ m ∧ m ≤ maxMark) ∨ (maxMark ≤ 0 ∧ m = 0)
        (r.result.isOk = true ↔ inRange) ∧
        (inRange → r.result = .ok .kept ∧ r.state.mark = some (rational m) ∧
          ∃ f, r.state.fraction = some f ∧ r.state.state = .ofManualFraction f) ∧
        (¬inRange → r.state = a)) ∧
      ∀ gradings : List Grading, (∀ g ∈ gradings, script.ReadsBack g.mark) →
        let a' := gradings.foldl afterGrading a
        match (gradings.filter fun g => Grading.InRange maxMark least g.mark).getLast? with
        | some last => a'.mark = some (rational last.mark) ∧
            ∃ f, a'.fraction = some f ∧ a'.state = .ofManualFraction f
        | none => a' = a := by
  obtain ⟨least, hmin⟩ : ∃ least, a.minFraction = some (rational least) := by
    have hstarted : a.minFraction.isSome = true := by rw [ha.minFraction, hb]; rfl
    obtain ⟨x, hx⟩ := Option.isSome_iff_exists.1 hstarted
    cases x with
    | rational least => exact ⟨least, hx⟩
    | undefined => exact absurd hx hleast
  have h : a.IsGradable maxMark least := ⟨⟨b, hb, hinformation⟩, hmax, hmin, hback⟩
  refine ⟨least, hmin, ?_, fun gradings hgradings => (h.latest gradings hgradings).2⟩
  intro comment m time actor hm r inRange
  have hkept : inRange → r.result = .ok .kept := fun hrange =>
    (h.grade_of_inRange hm hrange comment time actor).1
  have hrefused := fun hrange : ¬inRange => h.grade_of_not_inRange hm hrange comment time actor
  refine ⟨⟨fun hok => ?_, fun hrange => ?_⟩, fun hrange => ?_, fun hrange => (hrefused hrange).2⟩
  · by_contra hrange
    rw [(hrefused hrange).1] at hok
    cases hok
  · rw [hkept hrange]
    rfl
  · exact ⟨hkept hrange, h.awards hm hrange comment time actor⟩

/-- An attempt at a question out of two marks is finished with a wrong answer.  A grader awards more
than there is, then one and a half marks, then none. -/
theorem grade_awards_thrice :
    let q : Question (Exact .decimal) := .trueFalse (TrueFalse.new "tf" "The sky is blue" true)
    let blank : Usage (Exact .decimal) := ⟨.ephemeral "s", "quiz", "course", "deferredfeedback",
      SortedMap.empty, Registry.standard, none⟩
    let finished := [.add q (some (rational 2)), .startAll ⟨0⟩ none fun _ => ⟨0, 0⟩,
      .act 1 (SortedMap.ofList [("answer", "0")]) ⟨1000⟩ none, .finishAll ⟨2000⟩ none].foldl
        (fun u o => Usage.Operation.after o u) blank
    let gradings : List Grading :=
      [⟨"Too much", 3, ⟨3000⟩, none⟩, ⟨"Well", 3 / 2, ⟨4000⟩, none⟩, ⟨"No", 0, ⟨5000⟩, none⟩]
    ∃ a, finished.attempts.get? 1 = some a ∧ a.state = .gradedWrong ∧
      (grade "Too much" (some (rational 3)) ⟨3000⟩ (some "bob") a).state = a ∧
      (grade "Well" (some (rational (3 / 2))) ⟨4000⟩ (some "bob") a).state.mark =
        some (rational (3 / 2)) ∧
      (gradings.foldl afterGrading a).mark = some (rational 0) := by
  intro q blank finished gradings
  have hnew : Usage.new "s" "quiz" "course" "deferredfeedback" Registry.standard = .ok blank := rfl
  have hreached : finished.Reachable := Usage.Reachable.foldl_after (.new hnew) _
  have hfacts : ((finished.attempts.get? 1).map fun a =>
      (a.behaviour, a.state, a.maxMark, a.minFraction)) =
      some (some .deferred, .gradedWrong, rational 2, some (rational 0)) := by decide +kernel
  obtain ⟨a, ha, hfacts⟩ := Option.map_eq_some_iff.1 hfacts
  simp only [Prod.mk.injEq] at hfacts
  obtain ⟨hb, hstate, hmax, hmin⟩ := hfacts
  have hback : ∀ r ∈ [(2 : ℚ), 3, 3 / 2, 0], Script.decimal.ReadsBack r := by
    simp only [Script.ReadsBack]
    decide +kernel
  obtain ⟨least, hleast, hgrade, hlatest⟩ := grade_awards (hreached.sound.attempt ha) hb (by decide)
    hmax (fun h => by cases hmin.symm.trans h) (hback 2 (by simp))
  have hzero : least = 0 := by simpa [hmin] using hleast.symm
  subst hzero
  refine ⟨a, ha, hstate, ?_, ?_, ?_⟩
  · exact (hgrade "Too much" 3 ⟨3000⟩ (some "bob") (hback 3 (by simp))).2.2 (by decide +kernel)
  · exact ((hgrade "Well" (3 / 2) ⟨4000⟩ (some "bob") (hback _ (by simp))).2.1 (by decide +kernel)).2.1
  · have hmarks : ∀ g ∈ gradings, g.mark ∈ [(2 : ℚ), 3, 3 / 2, 0] := by decide +kernel
    have hlast : (gradings.filter fun g => Grading.InRange 2 0 g.mark).getLast? =
        some ⟨"No", 0, ⟨5000⟩, none⟩ := by decide +kernel
    have hrun := hlatest gradings fun g hg => hback _ (hmarks g hg)
    simp only [hlast] at hrun
    exact hrun.1

end Attempt
end Assessment
