import Assessment.Proofs.Attempt.Tries
import Mathlib.Data.List.Basic

/-!
# Asking to try again

After a wrong try an interactive attempt waits: until the learner has asked to try again, nothing is
submitted and nothing saved.  Whether it waits is read off its latest step alone, so whatever step is
kept next ends the waiting.  That is the learner asking, or a person's comment; a comment with a mark
and finishing end the attempt itself (`Interactive.rule_of_awaitsRetry`).

Main result: between two counted tries the learner has asked to try again, unless a person commented
without a mark right after the first of them (`Attempt.retry_between_tries`).  Such a remark leaves the
state as it was, but the attempt does not wait any more (`Attempt.remark_releases`).

The invariant (`Attempt.Retries`) says of every counted try how it is followed (`Attempt.Followed`).
-/

namespace Assessment

variable {ν : Type}

namespace Vars

/-- Whether a person comments without giving a mark. -/
def isRemark (vars : Vars) : Bool :=
  vars.hasBehaviour "comment" && !(vars.behaviour? "mark").any fun raw => Text.trim raw != ""

/-- Whether an action ends the waiting after a wrong try and leaves the attempt open. -/
def releases (vars : Vars) : Bool := vars.hasBehaviour "tryagain" || vars.isRemark

end Vars

/-! ## One ruling -/

namespace Interactive

variable [Scalar ν] {a : Attempt ν} {d d' : Draft ν}

/-- What is kept while the attempt waits finishes it or releases it. -/
lemma rule_of_awaitsRetry (ha : awaitsRetry a = true)
    (h : Behaviour.interactive.rule a d = .ok (.keep d')) :
    d'.state.isFinished = true ∨ d'.vars.releases = true := by
  rw [rule_eq] at h
  split_ifs at h with hcomment hfinish hretry hsubmit
  · cases ht : Ruling.markText? d with
    | none =>
      rw [Ruling.comment_of_noMark a ht] at h
      cases h
      have hblank : (d.vars.behaviour? "mark").any (fun raw => Text.trim raw != "") = false := by
        cases hraw : d.vars.behaviour? "mark" with
        | none => rfl
        | some raw => simpa [Ruling.markText?, hraw] using ht
      exact .inr (by simp [Vars.releases, Vars.isRemark, hcomment, hblank])
    | some text =>
      rw [Ruling.comment_of_mark a ht] at h
      cases haward : Ruling.award a d text with
      | error e => rw [haward] at h; cases h
      | ok fraction =>
        rw [haward] at h
        cases h
        exact .inl (State.isFinished_of_isGraded (State.isGraded_ofManualFraction fraction))
  · have hends : (finish a d).Ends a :=
      Behaviour.onFinish_ends (b := .interactive) (fun _ hb => nomatch hb) a d
    rw [Except.ok.inj h] at hends
    exact .inl hends
  · rw [retry, if_pos ha] at h
    cases h
    exact .inr (by simp [Vars.releases, Draft.withState, hretry])
  · simp [submit, ha] at h
  · simp [save, ha] at h

omit [Scalar ν] in
lemma awaitsRetry_keep (a : Attempt ν) (d : Draft ν) : awaitsRetry (a.keep d) =
    (d.state.isActive && (d.vars.hasBehaviour "submit" && d.vars.hasBehaviour "_triesleft")) := by
  have hlast : (a.keep d).last? = some d.record := Attempt.last?_record _ _
  rw [awaitsRetry, Attempt.state_keep, hlast]
  rfl

/-- A try is counted on an open attempt that does not wait.  It ends the attempt, or the attempt waits
after it. -/
lemma waits_of_counted (hvars : d.vars.behaviour? "_triesleft" = none) (hd : d.fraction = none)
    (h : Behaviour.interactive.rule a d = .ok (.keep d'))
    (hcounts : d'.vars.hasBehaviour "_triesleft" = true) :
    a.state.isFinished = false ∧ awaitsRetry a = false ∧
      ((a.keep d').state.isFinished = true ∨ awaitsRetry (a.keep d') = true) := by
  have hnone : d.vars.hasBehaviour "_triesleft" = false := by rw [Vars.hasBehaviour, hvars]; rfl
  have htry : d.vars.isTry = true := by
    by_contra hno
    rw [Vars.hasBehaviour, left_of_not_isTry (eq_false_of_ne_true hno) hd h, hvars] at hcounts
    cases hcounts
  have hsubmit : d.vars.hasBehaviour "submit" = true := (Bool.and_eq_true_iff.1 htry).1
  rw [rule_of_isTry a htry, Except.ok.injEq] at h
  unfold submit at h
  split at h
  · cases h
  rename_i hguard
  simp only [Bool.or_eq_true, not_or, Bool.not_eq_true] at hguard
  refine ⟨hguard.1.1, hguard.1.2, ?_⟩
  simp only at h
  split at h
  · rename_i hr
    split at h
    · cases h
      refine .inl ?_
      rw [Attempt.state_keep]
      show (a.question.grade d.vars.questionPart).2.isFinished = true
      rw [Question.grade_state hr, State.isFinished_ofFraction]
    · cases h
      have hsubmit' : ∀ value : String,
          (d.vars.cache .behaviour "triesleft" value).hasBehaviour "submit" = true := fun value => by
        rw [Vars.hasBehaviour, Vars.behaviour?_cache_of_ne _ _ (by decide)]
        exact hsubmit
      rw [awaitsRetry_keep]
      exact .inr (Bool.and_eq_true_iff.2 ⟨rfl, Bool.and_eq_true_iff.2 ⟨hsubmit' _, hcounts⟩⟩)
  · cases h
    exact absurd (hnone.symm.trans hcounts) Bool.false_ne_true

end Interactive

/-! ## Whole attempts -/

namespace Attempt

/-- How a counted try is followed in an attempt: the attempt is finished, it waits and nothing came
after the try, or the next step released it. -/
inductive Followed (a : Attempt ν) : List (Step ν) → Prop
  | ended {later : List (Step ν)} (h : a.state.isFinished = true) : Followed a later
  | waits (h : Interactive.awaitsRetry a = true) : Followed a []
  | released {step : Step ν} {rest : List (Step ν)} (h : step.vars.releases = true) :
    Followed a (step :: rest)

/-- An interactive attempt in which the waiting after a counted try is ended by a release, before
another try is counted. -/
structure Retries (a : Attempt ν) : Prop where
  behaviour : a.behaviour = some .interactive
  steps : a.steps ≠ []
  followed : ∀ before counted later, a.steps.tail = before ++ counted :: later →
    counted.vars.hasBehaviour "_triesleft" = true → a.Followed later
  released : ∀ before first between second after,
    a.steps.tail = before ++ first :: (between ++ second :: after) →
    first.vars.hasBehaviour "_triesleft" = true → second.vars.hasBehaviour "_triesleft" = true →
    ∃ step rest, between = step :: rest ∧ step.vars.releases = true

namespace Retries

variable [Scalar ν] {a : Attempt ν} {d d' : Draft ν}

omit [Scalar ν] in
/-- An attempt with one step has counted no try yet. -/
lemma of_singleton {first : Step ν} (hb : a.behaviour = some .interactive) (hs : a.steps = [first]) :
    a.Retries where
  behaviour := hb
  steps := by simp [hs]
  followed := fun before counted later h => by simp [hs] at h
  released := fun before first' between second after h => by simp [hs] at h

/-- How a try is followed stays so, or is settled by the step that is kept. -/
lemma followed_keep {later : List (Step ν)} (h : a.Followed later) (hd : d.fraction = none)
    (hrule : Behaviour.interactive.rule a d = .ok (.keep d')) :
    (a.keep d').Followed (later ++ [d'.record]) := by
  cases h with
  | ended hended => exact .ended (isFinished_keep hended hd hrule)
  | waits hwaits =>
    obtain hfinished | hreleases := Interactive.rule_of_awaitsRetry hwaits hrule
    · exact .ended (by rwa [state_keep])
    · exact .released hreleases
  | released hreleases => exact .released hreleases

/-- A kept action that brings no cached variables keeps the invariant. -/
lemma keep (ha : a.Retries) (hvars : d.vars.behaviour? "_triesleft" = none) (hd : d.fraction = none)
    (hrule : Behaviour.interactive.rule a d = .ok (.keep d')) : (a.keep d').Retries := by
  refine ⟨ha.behaviour, by simp [Attempt.keep, record], fun before counted later h hcounts => ?_,
    fun before first between second after h hfirst hsecond => ?_⟩
  · obtain ⟨rfl, rfl, -⟩ | ⟨later', rfl, h'⟩ := tail_keep_cases ha.steps h
    · obtain ⟨-, -, hfinished | hwaits⟩ := Interactive.waits_of_counted hvars hd hrule hcounts
      · exact .ended hfinished
      · exact .waits hwaits
    · exact followed_keep (ha.followed before counted later' h' hcounts) hd hrule
  · rw [← List.cons_append, ← List.append_assoc] at h
    obtain ⟨rfl, rfl, h'⟩ | ⟨after', rfl, h'⟩ := tail_keep_cases ha.steps h
    · -- the try that is counted now shows that the attempt was open and did not wait
      obtain ⟨hopen, hnot, -⟩ := Interactive.waits_of_counted hvars hd hrule hsecond
      cases ha.followed before first between h' hfirst with
      | ended hended => simp [hopen] at hended
      | waits hwaits => simp [hnot] at hwaits
      | released hreleases => exact ⟨_, _, rfl, hreleases⟩
    · rw [List.append_assoc, List.cons_append] at h'
      exact ha.released before first between second after' h' hfirst hsecond

end Retries

variable [Scalar ν]

/-- A learner has to ask to try again.  Open an attempt under the interactive behaviour and send it any
actions that bring no cached variables, comments included.  Of the steps after the first take two that
count a try.  The step right after the earlier one asks to try again or is a comment without a mark.
So if nobody commented without a mark in between, the learner asked to try again in between. -/
theorem retry_between_tries (q : Question ν) (usageId : String) (slot : Nat) (maxMark : Option ν)
    (vars : Vars) (time : Instant) (actor : Option String) (draw : Draw) (log : List Action)
    (hlog : ∀ x ∈ log, ∀ key ∈ x.vars.keys, isCachedKey key = false) :
    let a := ((new q usageId slot maxMark).opened
      ⟨.interactive, vars, time, actor, draw⟩).afterActions log
    ∀ before first between second after,
      a.steps.tail = before ++ first :: (between ++ second :: after) →
      first.vars.hasBehaviour "_triesleft" = true → second.vars.hasBehaviour "_triesleft" = true →
      (∃ step rest, between = step :: rest ∧
        (step.vars.hasBehaviour "tryagain" = true ∨ step.vars.isRemark = true)) ∧
      ((∀ step ∈ between, step.vars.isRemark = false) →
        ∃ step ∈ between, step.vars.hasBehaviour "tryagain" = true) := by
  intro a before first between second after h hfirst hsecond
  have hopened := isOpened_opened (isFresh_new q usageId slot maxMark)
    ⟨.interactive, vars, time, actor, draw⟩
  obtain ⟨step₀, hstep₀, -, -⟩ := hopened.steps
  have ha : a.Retries := by
    refine afterActions_keeps (P := Retries) ?_ (.of_singleton hopened.behaviour hstep₀)
    intro x hx a b d ha hb hd
    obtain rfl : Behaviour.interactive = b := Option.some.inj (ha.behaviour.symm.trans hb)
    exact ha.keep (Vars.behaviour?_eq_none (hlog x hx) "triesleft") rfl hd
  obtain ⟨step, rest, rfl, hreleases⟩ := ha.released before first between second after h hfirst hsecond
  rw [Vars.releases, Bool.or_eq_true] at hreleases
  refine ⟨⟨step, rest, rfl, hreleases⟩, fun hno => ⟨step, List.mem_cons_self, ?_⟩⟩
  exact hreleases.resolve_right (by simp [hno step List.mem_cons_self])

/-- A statement with one hint: a wrong try, asking for another one, and the right answer. -/
theorem retry_between_tries_asked :
    let q : Question Float := .trueFalse
      { TrueFalse.new "q1" "The sky is blue" true with hints := ["Look up"] }
    let log : List Action :=
      [⟨SortedMap.ofList [("answer", "0"), ("-submit", "1")], ⟨1500⟩, some "ada"⟩,
        ⟨SortedMap.ofList [("-tryagain", "1")], ⟨2500⟩, some "ada"⟩,
        ⟨SortedMap.ofList [("answer", "1"), ("-submit", "1")], ⟨3500⟩, some "ada"⟩]
    let a := ((new q "u" 1 none).opened
      ⟨.interactive, SortedMap.empty, ⟨0⟩, none, ⟨0, 0⟩⟩).afterActions log
    (∀ x ∈ log, ∀ key ∈ x.vars.keys, isCachedKey key = false) ∧
      ∃ first between second, a.steps.tail = first :: (between ++ [second]) ∧
        first.vars.hasBehaviour "_triesleft" = true ∧
        second.vars.hasBehaviour "_triesleft" = true ∧
        (∀ step ∈ between, step.vars.isRemark = false) ∧
        ∃ step ∈ between, step.vars.hasBehaviour "tryagain" = true := by
  intro q log a
  have hlog : ∀ x ∈ log, ∀ key ∈ x.vars.keys, isCachedKey key = false := by decide
  have hthree : a.steps.tail.length = 3 := by decide +kernel
  obtain ⟨first, asked, second, htail⟩ := List.length_eq_three.1 hthree
  have hcounts : a.steps.tail.map (fun step => step.vars.hasBehaviour "_triesleft") =
      [true, false, true] := by decide +kernel
  have hremarks : a.steps.tail.map (fun step => step.vars.isRemark) = [false, false, false] := by
    decide +kernel
  simp only [htail, List.map_cons, List.map_nil, List.cons.injEq, and_true] at hcounts hremarks
  have hno : ∀ step ∈ [asked], step.vars.isRemark = false := by simp [hremarks]
  refine ⟨hlog, first, [asked], second, htail, hcounts.1, hcounts.2.2, hno, ?_⟩
  exact (retry_between_tries q "u" 1 none SortedMap.empty ⟨0⟩ none ⟨0, 0⟩ log hlog [] first [asked]
    second [] htail hcounts.1 hcounts.2.2).2 hno

/-- A comment without a mark after a wrong try, and another try is counted that nobody asked for. -/
theorem remark_releases :
    let q : Question Float := .trueFalse
      { TrueFalse.new "q1" "The sky is blue" true with hints := ["Look up", "At noon"] }
    let wrong : Action :=
      ⟨SortedMap.ofList [("answer", "0"), ("-submit", "1")], ⟨1500⟩, some "ada"⟩
    let remark : Action := ⟨gradeVars "Think again" (none : Option Float) (new q "u" 1 none), ⟨2500⟩,
      some "bob"⟩
    let right : Action :=
      ⟨SortedMap.ofList [("answer", "1"), ("-submit", "1")], ⟨3500⟩, some "ada"⟩
    let started := (new q "u" 1 none).opened ⟨.interactive, SortedMap.empty, ⟨0⟩, none, ⟨0, 0⟩⟩
    let a := started.afterActions [wrong, remark, right]
    (∀ x ∈ [wrong, remark, right], ∀ key ∈ x.vars.keys, isCachedKey key = false) ∧
      Interactive.awaitsRetry (started.afterActions [wrong]) = true ∧
      (started.afterActions [wrong, remark]).state = (started.afterActions [wrong]).state ∧
      Interactive.awaitsRetry (started.afterActions [wrong, remark]) = false ∧
      a.steps.tail.map (fun step => step.vars.hasBehaviour "_triesleft") = [true, false, true] ∧
      ∀ step ∈ a.steps, step.vars.hasBehaviour "tryagain" = false := by
  intro q wrong remark right started a
  refine ⟨?_, ?_, ?_, ?_, ?_, ?_⟩ <;> decide +kernel

end Attempt
end Assessment
