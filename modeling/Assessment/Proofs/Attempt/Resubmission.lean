import Assessment.Proofs.Attempt.Retry
import Assessment.Proofs.Data.SortedMap

/-!
# Sending the same again

The interactive and the adaptive behaviour compare an action with all that the latest step submitted.
Main result: an action that brings no cached variables, is no comment and does not force its way is
kept at most once (`Attempt.resubmission_discarded`).  Whatever the attempt looks like, the second
time it is discarded and changes nothing.

The second time it can be stopped for different reasons: the attempt is finished, it waits for the
learner to ask to try again, it does not wait any more, or the latest step submitted just this.
`Interactive.ignores` and `Adaptive.ignores` say which of them counts for which action, and
`Behaviour.KeepsOnce` is what the two behaviours have in common: an action is discarded when it is
ignored, and kept in such a way that it is ignored from then on.
-/

namespace Assessment

variable {ν : Type}

/-- The behaviours that recognise a repeated action by all that it submits. -/
def Behaviour.comparesSubmissions : Behaviour → Bool
  | interactive | adaptive _ => true
  | _ => false

/-! ## The latest submission -/

/-- Variables without a name that begins with `lead` do not force anything. -/
lemma Vars.hasLead_eq_false {vars : Vars} {lead : String}
    (h : ∀ key ∈ vars.keys, ¬ lead.toList <+: bareName key) : vars.hasLead lead = false := by
  rw [hasLead, List.any_eq_false]
  intro key hkey
  rw [List.isPrefixOf_iff_prefix]
  refine h key ?_
  rw [SortedMap.mem_keys_iff] at hkey ⊢
  obtain ⟨value, hvalue⟩ := hkey
  rw [submitted, SortedMap.get?_filter, Option.filter_eq_some_iff] at hvalue
  exact ⟨value, hvalue.1⟩

namespace Attempt

/-- Whether the latest step submitted just these variables. -/
def lastSubmitted (a : Attempt ν) (vars : Vars) : Bool :=
  a.last?.any fun last => last.vars.submitted == vars.submitted

/-- The latest step of an attempt that was just submitted these variables. -/
lemma exists_of_lastSubmitted {a : Attempt ν} {vars : Vars} (h : a.lastSubmitted vars = true) :
    ∃ last, a.last? = some last ∧ last.vars.submitted = vars.submitted := by
  obtain ⟨last, hlast, hsame⟩ := (Option.any_eq_true _ _).1 h
  exact ⟨last, hlast, beq_iff_eq.1 hsame⟩

/-- A kept draft is found again as the latest submission. -/
lemma lastSubmitted_keep {vars : Vars} {time : Instant} {actor : Option String} (a : Attempt ν)
    {d : Draft ν} (h : d.Follows (Draft.new vars time actor)) :
    (a.keep d).lastSubmitted vars = true := by
  rw [lastSubmitted, last?_keep, Option.any_some, beq_iff_eq]
  exact h.submitted

end Attempt

lemma Sameness.bySubmission_holds {forcing : String} {vars : Vars}
    (h : vars.hasLead forcing = false) (a : Attempt ν) (time : Instant) (actor : Option String) :
    (bySubmission forcing).holds a (Draft.new vars time actor) = a.lastSubmitted vars := by
  simp only [holds, Draft.new, h, Attempt.lastSubmitted]
  cases a.last? <;> rfl

/-! ## Kept once -/

variable [Scalar ν]

/-- An action that a behaviour keeps at most once: it is discarded when the attempt ignores it, and
otherwise kept, after which the attempt ignores it. -/
structure Behaviour.KeepsOnce (b : Behaviour) (vars : Vars) (ignores : Attempt ν → Bool) : Prop where
  discards : ∀ {a : Attempt ν} (time : Instant) (actor : Option String), ignores a = true →
    b.rule a (Draft.new vars time actor) = .ok .discard
  keeps : ∀ {a : Attempt ν} (time : Instant) (actor : Option String), ignores a = false →
    ∃ d, b.rule a (Draft.new vars time actor) = .ok (.keep d) ∧ ignores (a.keep d) = true

/-- Finishing an open attempt is kept, and finishes it. -/
lemma Behaviour.exists_of_onFinish {b : Behaviour} (hb : ∀ storedName, b ≠ .missing storedName)
    {a : Attempt ν} (ha : a.state.isFinished = false) (d : Draft ν) :
    ∃ d', b.onFinish a d = .keep d' ∧ (a.keep d').state.isFinished = true := by
  have hends := b.onFinish_ends hb a d
  cases hd : b.onFinish a d with
  | discard =>
    rw [hd] at hends
    exact absurd (ha.symm.trans hends) Bool.false_ne_true
  | keep d' =>
    rw [hd] at hends
    exact ⟨d', rfl, (congrArg State.isFinished (a.state_keep d')).trans hends⟩

namespace Interactive

variable {a : Attempt ν} {d : Draft ν}

omit [Scalar ν] in
/-- Whether an attempt does not take an answer: it is finished, it waits for the learner to ask to try
again, or the answer was submitted just now. -/
def refuses (a : Attempt ν) (d : Draft ν) : Bool :=
  a.state.isFinished || awaitsRetry a || sameness.holds a d

lemma submit_of_refuses (h : refuses a d = true) : submit a d = .discard := if_pos h

omit [Scalar ν] in
lemma save_of_refuses (h : refuses a d = true) : save a d = .discard := by
  unfold refuses at h
  unfold save Ruling.save
  cases hawaits : awaitsRetry a with
  | true => rfl
  | false =>
    rw [hawaits, Bool.or_false] at h
    exact if_pos h

/-- An answer that is taken is kept when it is submitted. -/
lemma exists_of_submit (h : refuses a d = false) : ∃ d', submit a d = .keep d' := by
  unfold refuses at h
  simp only [submit, h, Bool.false_eq_true, if_false]
  split_ifs <;> exact ⟨_, rfl⟩

omit [Scalar ν] in
/-- An answer that is taken is kept when it is saved. -/
lemma exists_of_save (h : refuses a d = false) : ∃ d', save a d = .keep d' := by
  simp only [refuses, Bool.or_eq_false_iff] at h
  obtain ⟨⟨hopen, hawaits⟩, hnew⟩ := h
  obtain ⟨d', hd', -⟩ := Behaviour.save_of_open (d := d) hopen
  exact ⟨d', by simp only [save, hawaits, hnew, hd', Bool.false_eq_true, if_false]⟩

/-- Whether an attempt has a reason to discard an action that is no comment. -/
def ignores (vars : Vars) (a : Attempt ν) : Bool :=
  if vars.hasBehaviour "finish" then a.state.isFinished
  else if vars.hasBehaviour "tryagain" then !awaitsRetry a
  else a.state.isFinished || awaitsRetry a || a.lastSubmitted vars

section

variable {vars : Vars} (hcomment : vars.hasBehaviour "comment" = false)
  (hforced : vars.hasLead "omact_" = false) (time : Instant) (actor : Option String)

include hcomment in
lemma rule_of_no_comment (a : Attempt ν) :
    Behaviour.interactive.rule a (Draft.new vars time actor) =
      if vars.hasBehaviour "finish" then .ok (finish a (Draft.new vars time actor))
      else if vars.hasBehaviour "tryagain" then .ok (retry a (Draft.new vars time actor))
      else if vars.hasBehaviour "submit" then .ok (submit a (Draft.new vars time actor))
      else .ok (save a (Draft.new vars time actor)) :=
  (rule_eq a _).trans (if_neg (by simp [Draft.new, hcomment]))

omit [Scalar ν] in
include hforced in
lemma refuses_new (a : Attempt ν) : refuses a (Draft.new vars time actor) =
    (a.state.isFinished || awaitsRetry a || a.lastSubmitted vars) :=
  congrArg _ (Sameness.bySubmission_holds hforced a time actor)

include hcomment hforced in
/-- What an attempt ignores is discarded. -/
lemma discards_of_ignores (h : ignores vars a = true) :
    Behaviour.interactive.rule a (Draft.new vars time actor) = .ok .discard := by
  rw [rule_of_no_comment hcomment]
  unfold ignores at h
  split_ifs at h ⊢ with hfinish hretry hsubmit
  · exact congrArg Except.ok (if_pos h)
  · exact congrArg Except.ok (if_neg (by simpa using h))
  · rw [submit_of_refuses ((refuses_new hforced time actor a).trans h)]
  · rw [save_of_refuses ((refuses_new hforced time actor a).trans h)]

include hcomment hforced in
/-- What an attempt does not ignore is kept, and ignored from then on, unless it says itself how many
tries are left. -/
lemma keeps_of_not_ignores (hleft : vars.behaviour? "_triesleft" = none)
    (h : ignores vars a = false) :
    ∃ d, Behaviour.interactive.rule a (Draft.new vars time actor) = .ok (.keep d) ∧
      ignores vars (a.keep d) = true := by
  -- an answer that is kept follows what was sent, and is found again as the latest submission
  have hagain : ∀ {d : Draft ν}, d.Follows (Draft.new vars time actor) →
      ((a.keep d).state.isFinished || awaitsRetry (a.keep d) || (a.keep d).lastSubmitted vars) =
        true := fun hfollows => by rw [a.lastSubmitted_keep hfollows, Bool.or_true]
  rw [rule_of_no_comment hcomment]
  unfold ignores at h ⊢
  split_ifs at h ⊢ with hfinish hretry hsubmit
  · obtain ⟨d, hd, hfinished⟩ :=
      Behaviour.exists_of_onFinish (b := .interactive) (fun _ hb => by cases hb) h _
    exact ⟨d, congrArg Except.ok hd, hfinished⟩
  · -- asking to try again leaves a step that counts no try, so the attempt does not wait any more
    refine ⟨_, congrArg Except.ok (if_pos (by simpa using h)), ?_⟩
    rw [awaitsRetry_keep]
    simp [Draft.withState, Draft.new, Vars.hasBehaviour, hleft]
  · obtain ⟨d, hd⟩ := exists_of_submit ((refuses_new hforced time actor a).trans h)
    have hfollows := submit_follows a (Draft.new vars time actor)
    rw [hd] at hfollows
    exact ⟨d, congrArg Except.ok hd, hagain hfollows⟩
  · obtain ⟨d, hd⟩ := exists_of_save ((refuses_new hforced time actor a).trans h)
    have hfollows := save_follows a (Draft.new vars time actor)
    rw [hd] at hfollows
    exact ⟨d, congrArg Except.ok hd, hagain hfollows⟩

end

/-- An action that is no comment, forces nothing and does not say itself how many tries are left is
kept at most once. -/
lemma keepsOnce {vars : Vars} (hcomment : vars.hasBehaviour "comment" = false)
    (hleft : vars.behaviour? "_triesleft" = none) (hforced : vars.hasLead "omact_" = false) :
    Behaviour.interactive.KeepsOnce (ν := ν) vars (ignores vars) where
  discards time actor h := discards_of_ignores hcomment hforced time actor h
  keeps time actor h := keeps_of_not_ignores hcomment hforced time actor hleft h

end Interactive

namespace Adaptive

/-- Whether an attempt has a reason to discard an action that is no comment. -/
def ignores (vars : Vars) (a : Attempt ν) : Bool :=
  if vars.hasBehaviour "finish" then a.state.isFinished
  else a.state.isFinished || a.lastSubmitted vars

/-- The order in which the adaptive behaviour looks for what an action asks. -/
lemma rule_eq (preferred : String) (a : Attempt ν) (d : Draft ν) :
    (Behaviour.adaptive preferred).rule a d =
      if d.vars.hasBehaviour "finish" then .ok (finish a d)
      else if d.vars.hasBehaviour "comment" then Ruling.comment a d
      else .ok (submit a d) :=
  rfl

/-- An open attempt keeps what it was not submitted just now. -/
lemma exists_of_submit {a : Attempt ν} {d : Draft ν}
    (h : (a.state.isFinished || sameness.holds a d) = false) : ∃ d', submit a d = .keep d' := by
  simp only [submit, h, Bool.false_eq_true, if_false]
  split_ifs <;> exact ⟨_, rfl⟩

/-- An action that is no comment and forces nothing is kept at most once. -/
lemma keepsOnce (preferred : String) {vars : Vars} (hcomment : vars.hasBehaviour "comment" = false)
    (hforced : vars.hasLead "omact_" = false) :
    (Behaviour.adaptive preferred).KeepsOnce (ν := ν) vars (ignores vars) := by
  have hguard : ∀ (a : Attempt ν) (time : Instant) (actor : Option String),
      (a.state.isFinished || sameness.holds a (Draft.new vars time actor)) =
        (a.state.isFinished || a.lastSubmitted vars) := fun a time actor =>
    congrArg _ (Sameness.bySubmission_holds hforced a time actor)
  have hrule : ∀ (a : Attempt ν) (time : Instant) (actor : Option String),
      (Behaviour.adaptive preferred).rule a (Draft.new vars time actor) =
        if vars.hasBehaviour "finish" then .ok (finish a (Draft.new vars time actor))
        else .ok (submit a (Draft.new vars time actor)) := fun a time actor => by
    rw [rule_eq]
    simp only [Draft.new, hcomment, Bool.false_eq_true, if_false]
  refine ⟨fun {a} time actor h => ?_, fun {a} time actor h => ?_⟩
  · rw [hrule]
    unfold ignores at h
    split_ifs at h ⊢ with hfinish
    · exact congrArg Except.ok (if_pos h)
    · exact congrArg Except.ok (if_pos ((hguard a time actor).trans h))
  · rw [hrule]
    unfold ignores at h ⊢
    split_ifs at h ⊢ with hfinish
    · obtain ⟨d, hd, hfinished⟩ :=
        Behaviour.exists_of_onFinish (b := .adaptive preferred) (fun _ hb => by cases hb) h _
      exact ⟨d, congrArg Except.ok hd, hfinished⟩
    · obtain ⟨d, hd⟩ := exists_of_submit ((hguard a time actor).trans h)
      have hfollows := submit_follows a (Draft.new vars time actor)
      rw [hd] at hfollows
      exact ⟨d, congrArg Except.ok hd, by rw [a.lastSubmitted_keep hfollows, Bool.or_true]⟩

end Adaptive

namespace Attempt

/-- What is kept at most once is discarded the second time. -/
lemma act_twice {a : Attempt ν} {b : Behaviour} {vars : Vars} {ignores : Attempt ν → Bool}
    (hb : a.behaviour = some b) (h : b.KeepsOnce vars ignores) (time time' : Instant)
    (actor actor' : Option String) :
    let first := act vars time actor a
    let second := act vars time' actor' first.state
    (first.result = .ok .kept ∨ first.result = .ok .discarded) ∧
      second.result = .ok .discarded ∧ second.state = first.state ∧
      Event.notices second.events = [] := by
  intro first second
  cases hignores : ignores a with
  | true =>
    obtain ⟨hresult, hstate, -⟩ := act_of_discard hb (h.discards time actor hignores)
    have hagain := act_of_discard hb (h.discards time' actor' hignores)
    rw [← hstate] at hagain
    exact ⟨.inr hresult, hagain⟩
  | false =>
    obtain ⟨d, hrule, hfrom⟩ := h.keeps time actor hignores
    obtain ⟨hresult, hstate⟩ := act_of_keep hb hrule
    have hb' : (a.keep d).behaviour = some b := hb
    have hagain := act_of_discard hb' (h.discards time' actor' hfrom)
    rw [← hstate] at hagain
    exact ⟨.inl hresult, hagain⟩

/-- Sending the same again changes nothing.  Under the interactive and the adaptive behaviour send an
attempt, whatever its history, the same variables twice.  If none of them is cached, there is no
comment among them, and no name begins with `omact_` once the mark of its owner is removed, then
neither action fails and the second is discarded: the attempt is what it was after the first, and
storage hears of nothing. -/
theorem resubmission_discarded {a : Attempt ν} {b : Behaviour} (hb : a.behaviour = some b)
    (hcompares : b.comparesSubmissions = true) {vars : Vars}
    (hplain : ∀ key ∈ vars.keys, isCachedKey key = false)
    (hcomment : vars.hasBehaviour "comment" = false)
    (hforced : ∀ key ∈ vars.keys, ¬ "omact_".toList <+: bareName key)
    (time time' : Instant) (actor actor' : Option String) :
    let first := act vars time actor a
    let second := act vars time' actor' first.state
    (first.result = .ok .kept ∨ first.result = .ok .discarded) ∧
      second.result = .ok .discarded ∧ second.state = first.state ∧
      Event.notices second.events = [] := by
  have hlead := Vars.hasLead_eq_false hforced
  cases b with
  | interactive =>
    have hleft := Vars.behaviour?_eq_none hplain "triesleft"
    exact act_twice hb (Interactive.keepsOnce hcomment hleft hlead) time time' actor actor'
  | adaptive preferred =>
    exact act_twice hb (Adaptive.keepsOnce preferred hcomment hlead) time time' actor actor'
  | _ => cases hcompares

/-- After a wrong try the learner asks twice for another one: the second time the attempt does not
wait any more. -/
theorem resubmission_discarded_retry :
    let q : Question Float := .trueFalse
      { TrueFalse.new "q1" "The sky is blue" true with hints := ["Look up"] }
    let wrong : Action :=
      ⟨SortedMap.ofList [("answer", "0"), ("-submit", "1")], ⟨1500⟩, some "ada"⟩
    let a := ((new q "u" 1 none).opened
      ⟨.interactive, SortedMap.empty, ⟨0⟩, none, ⟨0, 0⟩⟩).afterActions [wrong]
    let vars : Vars := SortedMap.ofList [("-tryagain", "1")]
    let first := act vars ⟨2500⟩ (some "ada") a
    let second := act vars ⟨3500⟩ (some "ada") first.state
    (∀ key ∈ vars.keys, isCachedKey key = false) ∧ vars.hasBehaviour "comment" = false ∧
      (∀ key ∈ vars.keys, ¬ "omact_".toList <+: bareName key) ∧
      first.result = .ok .kept ∧ second.result = .ok .discarded ∧ second.state = first.state := by
  intro q wrong a vars first second
  have hb : a.behaviour = some .interactive := by decide +kernel
  have hplain : ∀ key ∈ vars.keys, isCachedKey key = false := by decide
  have hcomment : vars.hasBehaviour "comment" = false := by decide
  have hforced : ∀ key ∈ vars.keys, ¬ "omact_".toList <+: bareName key := by decide
  obtain ⟨-, hsecond, hstate, -⟩ := resubmission_discarded hb rfl hplain hcomment hforced ⟨2500⟩ ⟨3500⟩
    (some "ada") (some "ada")
  exact ⟨hplain, hcomment, hforced, by decide +kernel, hsecond, hstate⟩

/-- A name that begins with `omact_` forces the same to be kept again. -/
example :
    let q : Question Float := .trueFalse (TrueFalse.new "q1" "The sky is blue" true)
    let a := (new q "u" 1 none).opened ⟨.adaptive "adaptive", SortedMap.empty, ⟨0⟩, none, ⟨0, 0⟩⟩
    let vars : Vars := SortedMap.ofList [("-omact_show", "1")]
    let first := act vars ⟨1500⟩ (some "ada") a
    (act vars ⟨2500⟩ (some "ada") first.state).result = .ok .kept := by
  decide +kernel

end Attempt
end Assessment
