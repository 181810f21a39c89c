import Assessment.Behaviour.Rules
import Mathlib.Tactic.Common

/-!
# What rulings can do

Three facts about the rules of all eight behaviours, each stated once for `Behaviour.rule`.

A kept draft *follows* the draft that was ruled on (`Draft.Follows`): the time, the actor and what
was submitted stay, and only cached variables, the state, the fraction and the summary are ruled on
(`Behaviour.rule_follows`).

Only a person's comment can be refused.  `Behaviour.takesComment` says which drafts a behaviour takes
as a comment; every other draft is ruled on without a failure (`Behaviour.rule_of_not_takesComment`),
and a comment on a started attempt is refused for what it says and for no other reason
(`Behaviour.rule_refuses`).

A ruling looks at the history and not at the place of the attempt: the marks of the attempt matter
only to a comment that gives a mark and does not say out of how many
(`Behaviour.rule_inPlaceOf`).
-/

namespace Assessment

/-! ## Cached variables -/

lemma isCachedKey_key (owner : Owner) (name : String) :
    isCachedKey (owner.key ("_" ++ name)) = true := by
  cases owner <;> simp [isCachedKey, Owner.key, bareName, String.toList_append]

namespace Vars

/-- A cached variable was not submitted. -/
@[simp] lemma submitted_cache (vars : Vars) (owner : Owner) (name value : String) :
    (vars.cache owner name value).submitted = vars.submitted := by
  apply SortedMap.ext_get?
  intro key
  simp only [submitted, cache, SortedMap.get?_filter, SortedMap.get?_insert]
  by_cases h : key = owner.key ("_" ++ name)
  · subst h
    simp [isCachedKey_key]
  · simp [h]

/-- Variables without a cached one were all submitted. -/
lemma submitted_eq_self {vars : Vars} (h : ∀ key ∈ vars.keys, isCachedKey key = false) :
    vars.submitted = vars := by
  apply SortedMap.ext_get?
  intro key
  rw [submitted, SortedMap.get?_filter]
  cases hv : vars.get? key with
  | none => rfl
  | some value =>
    have hmem : key ∈ vars.keys := List.mem_map_of_mem (SortedMap.get?_eq_some_iff.1 hv)
    simp [h key hmem]

/-- What is not cached is found again in what was submitted. -/
lemma behaviour?_submitted (vars : Vars) (name : String)
    (h : isCachedKey (Owner.behaviour.key name) = false) :
    vars.submitted.behaviour? name = vars.behaviour? name := by
  simp only [behaviour?, submitted, SortedMap.get?_filter, h]
  cases vars.get? (Owner.behaviour.key name) <;> rfl

end Vars

variable {ν : Type}

/-! ## Kept drafts -/

/-- A draft as a ruling may leave it: made at the same time by the same person, with the same
submitted variables. -/
structure Draft.Follows (d' d : Draft ν) : Prop where
  time : d'.time = d.time
  actor : d'.actor = d.actor
  submitted : d'.vars.submitted = d.vars.submitted

namespace Draft.Follows

variable {d d' : Draft ν}

lemma refl (d : Draft ν) : d.Follows d := ⟨rfl, rfl, rfl⟩

lemma withState (h : d'.Follows d) (state : State) : (d'.withState state).Follows d :=
  ⟨h.time, h.actor, h.submitted⟩

lemma graded (h : d'.Follows d) (grade : ν × State) : (d'.graded grade).Follows d :=
  ⟨h.time, h.actor, h.submitted⟩

lemma summarised (h : d'.Follows d) (summary : Option String) : (d'.summarised summary).Follows d :=
  ⟨h.time, h.actor, h.submitted⟩

lemma cache (h : d'.Follows d) (owner : Owner) (name value : String) :
    (d'.cache owner name value).Follows d :=
  ⟨h.time, h.actor, (Vars.submitted_cache _ owner name value).trans h.submitted⟩

end Draft.Follows

/-- A ruling on a draft that keeps at most a draft following it. -/
def Ruling.Follows (d : Draft ν) : Ruling ν → Prop
  | .discard => True
  | .keep d' => d'.Follows d

namespace Ruling

open Draft.Follows

lemma save_follows (isSame : Bool) (a : Attempt ν) (d : Draft ν) : (save isSame a d).Follows d := by
  unfold save
  split
  · trivial
  · exact ((refl d).withState _).summarised _

variable [Scalar ν]

lemma gradeLatest_follows (a : Attempt ν) (d : Draft ν) : (gradeLatest a d).Follows d := by
  unfold gradeLatest
  split
  · trivial
  · split
    · exact (refl d).graded _
    · exact (refl d).withState _

lemma gradeDraft_follows (otherwise : State) (a : Attempt ν) (d : Draft ν) :
    (gradeDraft otherwise a d).Follows d := by
  unfold gradeDraft
  refine summarised ?_ _
  split
  · exact (refl d).graded _
  · exact (refl d).withState _

end Ruling

/-! ## Comments -/

/-- The faults that a comment on a started attempt can be refused with: a mark that is no number, a
mark out of range, and a mark for an information item. -/
def Fault.isRefusal : Fault → Bool
  | badValue .. | markOutOfRange .. | informationGraded => true
  | _ => false

namespace Ruling

variable [Scalar ν]

/-- The marks that the mark of a comment is out of. -/
def outOf (a : Attempt ν) (d : Draft ν) : Except Fault ν :=
  match d.vars.behaviour? "maxmark" with
  | some raw => number? "-maxmark" raw
  | none => .ok a.maxMark

/-- The fraction that the mark of a comment awards. -/
def award (a : Attempt ν) (d : Draft ν) (text : String) : Except Fault ν := do
  let mark ← number? "-mark" text
  let maxMark ← outOf a d
  let minFraction ← a.minFraction?
  awarded mark maxMark minFraction

lemma comment_of_noMark (a : Attempt ν) {d : Draft ν} (h : markText? d = none) :
    comment a d = .ok (.keep { d with
      state := a.state.commented (none : Option ν)
      fraction := a.fraction }) := by
  simp only [comment, h]

/-- A comment with a mark leads to the fraction that it awards. -/
lemma comment_of_mark (a : Attempt ν) {d : Draft ν} {text : String} (h : markText? d = some text) :
    comment a d = (award a d text).map fun fraction =>
      .keep { d with state := a.state.commented (some fraction), fraction := some fraction } := by
  simp only [comment, h, award, outOf, bind, Except.bind]
  cases number? (ν := ν) "-mark" text with
  | error e => rfl
  | ok mark =>
    cases d.vars.behaviour? "maxmark" with
    | none =>
      cases a.minFraction? with
      | error e => rfl
      | ok minFraction => cases awarded mark a.maxMark minFraction <;> rfl
    | some raw =>
      simp only
      cases number? (ν := ν) "-maxmark" raw with
      | error e => rfl
      | ok maxMark =>
        cases a.minFraction? with
        | error e => rfl
        | ok minFraction => cases awarded mark maxMark minFraction <;> rfl

lemma isRefusal_of_number? {field raw : String} {e : Fault}
    (h : number? (ν := ν) field raw = .error e) : e.isRefusal = true := by
  unfold number? at h
  split at h
  · split at h
    · cases h
    · cases h; rfl
  · cases h; rfl

lemma isRefusal_of_awarded {mark maxMark minFraction : ν} {e : Fault}
    (h : awarded mark maxMark minFraction = .error e) : e.isRefusal = true := by
  unfold awarded at h
  simp only at h
  split at h <;> split at h <;> cases h <;> rfl

/-- The least fraction is there once an attempt is started, so a mark is refused only for what the
comment says. -/
lemma isRefusal_of_award {a : Attempt ν} {d : Draft ν} {text : String} {e : Fault}
    (ha : a.minFraction.isSome) (h : award a d text = .error e) : e.isRefusal = true := by
  obtain ⟨minFraction, hmin⟩ := Option.isSome_iff_exists.1 ha
  simp only [award, bind, Except.bind, outOf, Attempt.minFraction?, hmin] at h
  split at h
  · rename_i hmark
    cases h
    exact isRefusal_of_number? hmark
  · split at h
    · rename_i hmax
      cases h
      split at hmax
      · exact isRefusal_of_number? hmax
      · cases hmax
    · exact isRefusal_of_awarded h

lemma comment_follows {a : Attempt ν} {d : Draft ν} {r : Ruling ν} (h : comment a d = .ok r) :
    r.Follows d := by
  cases ht : markText? d with
  | none =>
    rw [comment_of_noMark a ht] at h
    cases h
    exact ⟨rfl, rfl, rfl⟩
  | some text =>
    rw [comment_of_mark a ht] at h
    cases ha : award a d text with
    | error e => rw [ha] at h; cases h
    | ok fraction =>
      rw [ha] at h
      cases h
      exact ⟨rfl, rfl, rfl⟩

lemma comment_refuses {a : Attempt ν} {d : Draft ν} {e : Fault} (ha : a.minFraction.isSome)
    (h : comment a d = .error e) : e.isRefusal = true := by
  cases ht : markText? d with
  | none =>
    rw [comment_of_noMark a ht] at h
    cases h
  | some text =>
    rw [comment_of_mark a ht] at h
    cases hw : award a d text with
    | error e' =>
      rw [hw] at h
      cases h
      exact isRefusal_of_award ha hw
    | ok fraction => rw [hw] at h; cases h

end Ruling

/-! ## The rulings of the behaviours -/

namespace Certainty

open Draft.Follows

variable [Scalar ν]

lemma grade_follows {a : Attempt ν} {response : Vars} {certainty : Option Certainty}
    {d d' : Draft ν} (h : d'.Follows d) : (grade a response certainty d').Follows d := by
  unfold grade
  cases certainty with
  | none => exact ((h.cache _ _ _).cache _ _ _).graded _
  | some c => exact (h.cache _ _ _).graded _

lemma submit_follows (a : Attempt ν) (d : Draft ν) : (submit a d).Follows d := by
  have hd : (d.summarised (a.question.summarise d.vars.questionPart)).Follows d :=
    (refl d).summarised _
  unfold submit
  split
  · trivial
  · simp only
    split
    · split
      · exact grade_follows hd
      · exact hd.withState _
    · exact hd.withState _

omit [Scalar ν] in
lemma save_follows (a : Attempt ν) (d : Draft ν) : (save a d).Follows d := by
  have h := Ruling.save_follows (isSame a d) a d
  unfold save
  split
  · trivial
  · rename_i d' hd'
    rw [hd'] at h
    split
    · exact Draft.Follows.withState h _
    · exact h

lemma finish_follows (a : Attempt ν) (d : Draft ν) : (finish a d).Follows d := by
  unfold finish
  split
  · trivial
  · split
    · exact grade_follows (refl d)
    · exact (refl d).withState _

end Certainty

namespace Interactive

open Draft.Follows

variable [Scalar ν]

lemma submit_follows (a : Attempt ν) (d : Draft ν) : (submit a d).Follows d := by
  have hd : (d.summarised (a.question.summarise d.vars.questionPart)).Follows d :=
    (refl d).summarised _
  unfold submit
  split
  · trivial
  · simp only
    split
    · split
      · exact ((hd.cache _ _ _).cache _ _ _).graded _
      · exact (hd.cache _ _ _).withState _
    · exact hd.withState _

omit [Scalar ν] in
lemma retry_follows (a : Attempt ν) (d : Draft ν) : (retry a d).Follows d := by
  unfold retry
  split
  · exact (refl d).withState _
  · trivial

omit [Scalar ν] in
lemma save_follows (a : Attempt ν) (d : Draft ν) : (save a d).Follows d := by
  unfold save
  split
  · trivial
  · exact Ruling.save_follows _ a d

lemma finish_follows (a : Attempt ν) (d : Draft ν) : (finish a d).Follows d := by
  unfold finish
  split
  · trivial
  · split
    · exact ((refl d).cache _ _ _).graded _
    · exact (refl d).withState _

end Interactive

namespace Adaptive

open Draft.Follows

variable [Scalar ν]

lemma submit_follows (a : Attempt ν) (d : Draft ν) : (submit a d).Follows d := by
  unfold submit
  split
  · trivial
  · simp only
    split
    · exact Ruling.gradeDraft_follows _ a d
    · exact (Ruling.gradeDraft_follows _ a d).cache _ _ _

omit [Scalar ν] in
lemma finish_follows (a : Attempt ν) (d : Draft ν) : (finish a d).Follows d := by
  unfold finish
  split
  · trivial
  · exact (refl d).withState _

end Adaptive

namespace Behaviour

open Draft.Follows

/-- Whether the behaviour takes an action as a person's comment.  The adaptive behaviour looks for
finishing first. -/
def takesComment (b : Behaviour) (vars : Vars) : Bool :=
  vars.hasBehaviour "comment" && match b with
    | adaptive _ => !vars.hasBehaviour "finish"
    | _ => true

/-- A comment is recognised by what was submitted. -/
lemma takesComment_submitted (b : Behaviour) (vars : Vars) :
    b.takesComment vars.submitted = b.takesComment vars := by
  have hcomment := vars.behaviour?_submitted "comment" (by decide)
  have hfinish := vars.behaviour?_submitted "finish" (by decide)
  cases b <;> simp only [takesComment, Vars.hasBehaviour, hcomment, hfinish]

/-- Only what has a comment is taken as one. -/
lemma hasBehaviour_of_takesComment {b : Behaviour} {vars : Vars} (h : b.takesComment vars = true) :
    vars.hasBehaviour "comment" = true := by
  simp only [takesComment, Bool.and_eq_true] at h
  exact h.1

variable [Scalar ν]

lemma rule_of_takesComment {b : Behaviour} (a : Attempt ν) {d : Draft ν}
    (h : b.takesComment d.vars = true) : b.rule a d = b.onComment a d := by
  cases b <;> simp_all [takesComment, rule, Ruling.asks]

lemma onSave_follows (b : Behaviour) (a : Attempt ν) (d : Draft ν) : (b.onSave a d).Follows d := by
  cases b with
  | certainty => exact Certainty.save_follows a d
  | interactive => exact Interactive.save_follows a d
  | _ => exact Ruling.save_follows _ a d

lemma onFinish_follows (b : Behaviour) (a : Attempt ν) (d : Draft ν) :
    (b.onFinish a d).Follows d := by
  cases b with
  | deferred => exact Ruling.gradeLatest_follows a d
  | immediate => exact Ruling.gradeLatest_follows a d
  | certainty => exact Certainty.finish_follows a d
  | interactive => exact Interactive.finish_follows a d
  | manual =>
    simp only [onFinish]
    split
    · trivial
    · exact (refl d).withState _
  | information =>
    simp only [onFinish]
    split
    · trivial
    · exact (refl d).withState _
  | adaptive preferred => exact Adaptive.finish_follows a d
  | missing storedName => trivial

lemma onSubmit_follows (a : Attempt ν) (d : Draft ν) : (onSubmit a d).Follows d := by
  unfold onSubmit
  split
  · trivial
  · exact Ruling.gradeDraft_follows _ a d

omit [Scalar ν] in
lemma onSeen_follows (a : Attempt ν) (d : Draft ν) : (onSeen a d).Follows d := by
  unfold onSeen
  split
  · exact (refl d).withState _
  · trivial

/-! ## Actions that are no comments -/

/-- How a behaviour may react to an action that is no comment: each of its own actions has a ruling,
and what it does not know it discards. -/
inductive Reacts (a : Attempt ν) (d : Draft ν) : Behaviour → Ruling ν → Prop
  | finish (b : Behaviour) : Reacts a d b (b.onFinish a d)
  | save (b : Behaviour) : Reacts a d b (b.onSave a d)
  | submit : Reacts a d immediate (onSubmit a d)
  | submitSure : Reacts a d certainty (Certainty.submit a d)
  | submitTry : Reacts a d interactive (Interactive.submit a d)
  | retry : Reacts a d interactive (Interactive.retry a d)
  | seen : Reacts a d information (onSeen a d)
  | adapt (preferred : String) : Reacts a d (adaptive preferred) (Adaptive.submit a d)
  | ignore (b : Behaviour) : Reacts a d b .discard

lemma Reacts.follows {a : Attempt ν} {d : Draft ν} {b : Behaviour} {r : Ruling ν}
    (h : Reacts a d b r) : r.Follows d := by
  cases h with
  | finish b => exact onFinish_follows b a d
  | save b => exact onSave_follows b a d
  | submit => exact onSubmit_follows a d
  | submitSure => exact Certainty.submit_follows a d
  | submitTry => exact Interactive.submit_follows a d
  | retry => exact Interactive.retry_follows a d
  | seen => exact onSeen_follows a d
  | adapt preferred => exact Adaptive.submit_follows a d
  | ignore b => trivial

/-- What is not a comment is never refused: the behaviour reacts to it. -/
lemma rule_of_not_takesComment {b : Behaviour} (a : Attempt ν) {d : Draft ν}
    (h : b.takesComment d.vars = false) : ∃ r, b.rule a d = .ok r ∧ Reacts a d b r := by
  cases b with
  | adaptive preferred =>
    unfold rule
    simp only
    split
    · exact ⟨_, rfl, .finish _⟩
    · split
      · simp_all [takesComment, Ruling.asks]
      · exact ⟨_, rfl, .adapt preferred⟩
  | _ =>
    have hno : Ruling.asks d "comment" = false := by simpa [takesComment, Ruling.asks] using h
    unfold rule
    simp only [hno, Bool.false_eq_true, if_false]
    repeat' split
    all_goals exact ⟨_, rfl, by constructor⟩

lemma onComment_follows {b : Behaviour} {a : Attempt ν} {d : Draft ν} {r : Ruling ν}
    (h : b.onComment a d = .ok r) : r.Follows d := by
  unfold onComment at h
  split at h
  · split at h
    · cases h
    · exact Ruling.comment_follows h
  · exact Ruling.comment_follows h

lemma onComment_refuses {b : Behaviour} {a : Attempt ν} {d : Draft ν} {e : Fault}
    (ha : a.minFraction.isSome) (h : b.onComment a d = .error e) : e.isRefusal = true := by
  unfold onComment at h
  split at h
  · split at h
    · cases h; rfl
    · exact Ruling.comment_refuses ha h
  · exact Ruling.comment_refuses ha h

/-- No rule changes when an action was sent, by whom, or what was submitted. -/
theorem rule_follows {b : Behaviour} {a : Attempt ν} {d d' : Draft ν}
    (h : b.rule a d = .ok (.keep d')) : d'.Follows d := by
  cases hc : b.takesComment d.vars with
  | true =>
    rw [rule_of_takesComment a hc] at h
    exact onComment_follows h
  | false =>
    obtain ⟨r, hr, hreacts⟩ := rule_of_not_takesComment a hc
    rw [h] at hr
    cases hr
    exact hreacts.follows

/-- Only a comment is refused, and on a started attempt only for what it says. -/
theorem rule_refuses {b : Behaviour} {a : Attempt ν} {d : Draft ν} {e : Fault}
    (ha : a.minFraction.isSome) (h : b.rule a d = .error e) :
    Ruling.asks d "comment" = true ∧ e.isRefusal = true := by
  cases hc : b.takesComment d.vars with
  | true =>
    rw [rule_of_takesComment a hc] at h
    exact ⟨hasBehaviour_of_takesComment hc, onComment_refuses ha h⟩
  | false =>
    obtain ⟨r, hr, -⟩ := rule_of_not_takesComment a hc
    rw [h] at hr
    cases hr

end Behaviour

/-! ## The place of an attempt -/

/-- The history of an attempt in the place of another: its id, usage, slot, marks, flag and observer
are those of the other. -/
def Attempt.inPlaceOf (a host : Attempt ν) : Attempt ν :=
  { a with
    id := host.id
    usageId := host.usageId
    slot := host.slot
    maxMark := host.maxMark
    flagged := host.flagged
    observer := host.observer }

/-- Whether an action gives a mark that is not blank and does not say out of how many. -/
def Vars.hasRelativeMark (vars : Vars) : Bool :=
  (vars.behaviour? "mark").any (fun raw => Text.trim raw != "") && !vars.hasBehaviour "maxmark"

variable [Scalar ν]

lemma Ruling.comment_inPlaceOf (a host : Attempt ν) {d : Draft ν}
    (h : host.maxMark = a.maxMark ∨ d.vars.hasRelativeMark = false) :
    comment (a.inPlaceOf host) d = comment a d := by
  cases ht : markText? d with
  | none => rw [comment_of_noMark _ ht, comment_of_noMark _ ht]; rfl
  | some text =>
    have hout : outOf (a.inPlaceOf host) d = outOf a d := by
      unfold outOf
      cases hm : d.vars.behaviour? "maxmark" with
      | some raw => rfl
      | none =>
        refine congrArg Except.ok (h.elim id fun h => ?_)
        obtain ⟨raw, hraw, htrim⟩ := Option.bind_eq_some_iff.1 ht
        simp [Vars.hasRelativeMark, Vars.hasBehaviour, hm, hraw] at h
        simp [h] at htrim
    have haward : award (a.inPlaceOf host) d text = award a d text := by
      simp only [award, hout]
      rfl
    rw [comment_of_mark _ ht, comment_of_mark _ ht, haward]
    rfl

/-- A behaviour rules on an attempt in any place alike, except that a mark without its own maximum is
out of the attempt's marks. -/
theorem Behaviour.rule_inPlaceOf (b : Behaviour) (a host : Attempt ν) {d : Draft ν}
    (h : host.maxMark = a.maxMark ∨ (b.takesComment d.vars && d.vars.hasRelativeMark) = false) :
    b.rule (a.inPlaceOf host) d = b.rule a d := by
  cases hc : b.takesComment d.vars with
  | true =>
    have hcomment := Ruling.comment_inPlaceOf a host (d := d) (by simpa [hc] using h)
    rw [rule_of_takesComment _ hc, rule_of_takesComment _ hc]
    cases b <;> simp only [onComment, hcomment]
  | false =>
    -- nothing but a comment looks at the marks: both sides unfold to the same ruling
    cases b with
    | adaptive preferred =>
      unfold rule
      simp only
      split
      · rfl
      · split
        · simp_all [takesComment, Ruling.asks]
        · rfl
    | missing storedName =>
      have hno : Ruling.asks d "comment" = false := by simpa [takesComment, Ruling.asks] using hc
      simp only [rule, hno, Bool.false_eq_true, if_false]
    | _ =>
      have hno : Ruling.asks d "comment" = false := by simpa [takesComment, Ruling.asks] using hc
      simp only [rule, hno, Bool.false_eq_true, if_false]
      rfl

end Assessment
