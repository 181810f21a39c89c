import Assessment.Proofs.Attempt.Finish
import Assessment.Proofs.Attempt.Repeat
import Assessment.Proofs.Behaviour.Bookkeeping
import Assessment.Proofs.Number.Exact

/-!
# Tries are accounted for

An interactive attempt keeps no counter.  The tries that are left stand as a text in a cached
variable of some earlier step, and every ruling looks back for the latest one.  Main result: with
actions that bring no cached variables, what is found there is always the number of tries that were
given less the number of steps that counted one (`Attempt.tries_accounted`), so the hints and the
penalties go by the steps that are there.

An action that is kept either leaves that variable alone or counts a try (`Interactive.Passes`,
`Interactive.rule_passes`).  A try is counted only while one is left, so the invariant
(`Attempt.Accounts`) holds again afterwards.
-/

namespace Assessment

variable {ν : Type}

/-! ## What is written and found -/

namespace Vars

/-- Whether the action is put to the behaviour as a try: an answer that is submitted, with nothing
that goes before submitting. -/
def isTry (vars : Vars) : Bool :=
  vars.hasBehaviour "submit" &&
    !(vars.hasBehaviour "comment" || vars.hasBehaviour "finish" || vars.hasBehaviour "tryagain")

lemma behaviour?_cache_self (vars : Vars) (name value : String) :
    (vars.cache .behaviour name value).behaviour? ("_" ++ name) = some value :=
  SortedMap.get?_insert_self _ _ _

lemma behaviour?_cache_of_ne (vars : Vars) {key name : String} (value : String)
    (h : Owner.behaviour.key key ≠ cachedBehaviourKey name) :
    (vars.cache .behaviour name value).behaviour? key = vars.behaviour? key :=
  SortedMap.get?_insert_of_ne _ h _

/-- Variables without a cached one hold nothing that a behaviour wrote down. -/
lemma behaviour?_eq_none {vars : Vars} (h : ∀ key ∈ vars.keys, isCachedKey key = false)
    (name : String) : vars.behaviour? ("_" ++ name) = none := by
  cases hv : vars.behaviour? ("_" ++ name) with
  | none => rfl
  | some value =>
    have hmem : Owner.behaviour.key ("_" ++ name) ∈ vars.keys :=
      List.mem_map_of_mem (SortedMap.get?_eq_some_iff.1 hv)
    have hcached := h _ hmem
    rw [isCachedKey_key] at hcached
    cases hcached

end Vars

/-! ## One ruling -/

namespace Interactive

/-- Whether an action counts a try: it submits a response that can be graded. -/
def counts (a : Attempt ν) (d : Draft ν) : Bool :=
  d.vars.isTry && a.question.isGradable d.vars.questionPart

variable [Scalar ν]

/-- What a raw fraction is worth after some tries: each of them costs the penalty, but never more
than what was earned, unless less than nothing was earned. -/
def worth (q : Question ν) (raw : ν) (tries : Nat) : ν :=
  Scalar.greatest (raw - q.penalty * Scalar.ofCount tries) (Scalar.least raw 0.0)

/-- What a kept draft does to the tries of an attempt: it counts none, it counts one after which
there are more, or it counts one that ends the attempt. -/
inductive Passes (a : Attempt ν) (d d' : Draft ν) : Prop
  | uncounted (hcounts : counts a d = false)
      (hvars : d'.vars.behaviour? "_triesleft" = d.vars.behaviour? "_triesleft")
  | again (hcounts : counts a d = true) (hmore : 1 < triesLeft a)
      (hvars : d'.vars.behaviour? "_triesleft" = some (triesLeft a - 1).repr)
      (hfraction : d'.fraction = none)
  | last (hcounts : counts a d = true) (hopen : a.state.isFinished = false)
      (hvars : d'.vars.behaviour? "_triesleft" = some (triesLeft a - 1).repr)
      (hraw : d'.vars.behaviour? "_rawfraction" =
        some (Scalar.plain (a.question.grade d.vars.questionPart).1))
      (hfraction : d'.fraction =
        some (penalised a (a.question.grade d.vars.questionPart).1 (triesLeft a)))
      (hstate : d'.state.isFinished = true)

variable {a : Attempt ν} {d d' : Draft ν}

/-- A submission that is kept counts a try when its response can be graded. -/
lemma submit_passes (htry : d.vars.isTry = true) (hd : d.fraction = none)
    (h : submit a d = .keep d') : Passes a d d' := by
  unfold submit at h
  split at h
  · cases h
  rename_i hguard
  have hopen : a.state.isFinished = false := by
    by_contra ha
    exact hguard (by rw [eq_true_of_ne_false ha, Bool.true_or, Bool.true_or])
  simp only at h
  split at h
  · rename_i hr
    have hcounts : counts a d = true := by
      rw [counts, htry, hr]
      rfl
    split at h
    · cases h
      refine .last hcounts hopen (Vars.behaviour?_cache_self _ "triesleft" _) ?_ rfl ?_
      · exact (Vars.behaviour?_cache_of_ne _ _ (by decide)).trans
          (Vars.behaviour?_cache_self _ "rawfraction" _)
      · show (a.question.grade d.vars.questionPart).2.isFinished = true
        rw [Question.grade_state hr, State.isFinished_ofFraction]
    · rename_i hmore
      cases h
      rw [Bool.or_eq_true, not_or, decide_eq_true_eq] at hmore
      exact .again hcounts (Nat.lt_of_not_le hmore.2)
        (Vars.behaviour?_cache_self _ "triesleft" _) hd
  · rename_i hr
    cases h
    refine .uncounted ?_ rfl
    rw [counts, htry, Bool.true_and, eq_false_of_ne_true hr]

/-- Finishing counts no try, and when it grades it penalises for those that were counted. -/
lemma finish_keeps (hd : d.fraction = none) (h : finish a d = .keep d') :
    d'.vars.behaviour? "_triesleft" = d.vars.behaviour? "_triesleft" ∧
      ∀ fraction, d'.fraction = some fraction →
        d'.vars.behaviour? "_rawfraction" =
            some (Scalar.plain (a.question.grade a.response).1) ∧
          fraction = penalised a (a.question.grade a.response).1 (triesLeft a) := by
  unfold finish at h
  split at h
  · cases h
  split at h
  · cases h
    refine ⟨Vars.behaviour?_cache_of_ne _ _ (by decide), fun fraction hfraction => ?_⟩
    exact ⟨Vars.behaviour?_cache_self _ "rawfraction" _, (Option.some.inj hfraction).symm⟩
  · cases h
    refine ⟨rfl, fun fraction hfraction => ?_⟩
    rw [Draft.withState, hd] at hfraction
    cases hfraction

/-- The order in which the interactive behaviour looks for what an action asks. -/
lemma rule_eq (a : Attempt ν) (d : Draft ν) : Behaviour.interactive.rule a d =
    if d.vars.hasBehaviour "comment" then Ruling.comment a d
    else if d.vars.hasBehaviour "finish" then .ok (finish a d)
    else if d.vars.hasBehaviour "tryagain" then .ok (retry a d)
    else if d.vars.hasBehaviour "submit" then .ok (submit a d)
    else .ok (save a d) :=
  rfl

lemma rule_of_isTry (a : Attempt ν) (h : d.vars.isTry = true) :
    Behaviour.interactive.rule a d = .ok (submit a d) := by
  simp only [Vars.isTry, Bool.and_eq_true, Bool.not_eq_true', Bool.or_eq_false_iff] at h
  obtain ⟨hsubmit, ⟨hcomment, hfinish⟩, hretry⟩ := h
  rw [rule_eq, hcomment, hfinish, hretry, hsubmit]
  rfl

lemma rule_of_finish (a : Attempt ν) (h : d.vars.hasBehaviour "finish" = true)
    (hcomment : d.vars.hasBehaviour "comment" = false) :
    Behaviour.interactive.rule a d = .ok (finish a d) := by
  rw [rule_eq, hcomment, h]
  rfl

/-- What is no try leaves the tries that are left as they are. -/
lemma left_of_not_isTry (hno : d.vars.isTry = false) (hd : d.fraction = none)
    (h : Behaviour.interactive.rule a d = .ok (.keep d')) :
    d'.vars.behaviour? "_triesleft" = d.vars.behaviour? "_triesleft" := by
  have hkey : ∀ name ∈ ([] : List String),
      Owner.behaviour.key "_triesleft" ≠ cachedBehaviourKey name := by simp
  rw [rule_eq] at h
  split_ifs at h with hcomment hfinish hretry hsubmit
  · exact Ruling.comment_writes h _ hkey
  · exact (finish_keeps hd (Except.ok.inj h)).1
  · have hwrites : (retry a d).Writes [] d := retry_writes
    rw [Except.ok.inj h] at hwrites
    exact hwrites _ hkey
  · simp [Vars.isTry, hcomment, hfinish, hretry, hsubmit] at hno
  · have hwrites : (save a d).Writes [] d := save_writes
    rw [Except.ok.inj h] at hwrites
    exact hwrites _ hkey

/-- Whatever the interactive behaviour keeps, it counts a try exactly for a submission that can be
graded. -/
lemma rule_passes (hd : d.fraction = none) (h : Behaviour.interactive.rule a d = .ok (.keep d')) :
    Passes a d d' := by
  cases htry : d.vars.isTry with
  | true =>
    rw [rule_of_isTry a htry, Except.ok.injEq] at h
    exact submit_passes htry hd h
  | false => exact .uncounted (by rw [counts, htry, Bool.false_and]) (left_of_not_isTry htry hd h)

end Interactive

/-! ## Whole attempts -/

/-- What a question remembers is not found among the variables of the behaviour. -/
lemma Question.behaviour?_seed [Scalar ν] (q : Question ν) (draw : Draw) (vars : Vars)
    (name : String) : (q.seed draw vars).behaviour? name = vars.behaviour? name := by
  cases q with
  | multiChoice q =>
    have hne : Owner.behaviour.key name ≠ Owner.question.key ("_" ++ "order") := by
      intro h
      have hchars := congrArg String.toList h
      simp [Owner.key] at hchars
    simp only [seed, MultiChoice.seed]
    split
    · rfl
    · exact SortedMap.get?_insert_of_ne _ hne _
  | _ => rfl

namespace Attempt

/-- The counted tries: the steps after the first that say how many tries are left. -/
def tries (a : Attempt ν) : Nat :=
  a.steps.tail.countP fun step => step.vars.hasBehaviour "_triesleft"

/-- A kept draft counts a try when it says how many are left. -/
lemma tries_keep {a : Attempt ν} (ha : a.steps ≠ []) (d : Draft ν) :
    (a.keep d).tries = a.tries + if d.vars.hasBehaviour "_triesleft" then 1 else 0 := by
  have hsteps : (a.keep d).steps = a.steps ++ [d.record] := rfl
  rw [tries, hsteps, List.tail_append_of_ne_nil ha, List.countP_append, List.countP_singleton]
  rfl

variable [Scalar ν]

/-- The first step of an interactive attempt that is opened with no data of its own. -/
lemma exists_first_opened {a : Attempt ν} {q : Question ν} (ha : a.IsFresh q) (time : Instant)
    (actor : Option String) (draw : Draw) :
    ∃ first, (a.opened ⟨.interactive, SortedMap.empty, time, actor, draw⟩).steps = [first] ∧
      first.vars = (q.seed draw SortedMap.empty).cache .behaviour "triesleft"
        (q.hints.length + 1).repr := by
  have hseed : (q.seed draw SortedMap.empty).hasBehaviour "_triesleft" = false := by
    rw [Vars.hasBehaviour, Question.behaviour?_seed]
    rfl
  refine ⟨_, by rw [opened, (start_of_isFresh ha ..).2, record, ha.steps, List.nil_append], ?_⟩
  show a.firstVars .interactive draw SortedMap.empty = _
  rw [firstVars, ha.question, Behaviour.seed, Interactive.seed, hseed, if_neg (by simp),
    Interactive.totalTries, ha.question]

/-- An interactive attempt at a question whose history says how many tries are left: one more than
there are hints, less those that were counted.  While it is open, one is left. -/
structure Accounts (a : Attempt ν) (q : Question ν) : Prop where
  question : a.question = q
  behaviour : a.behaviour = some .interactive
  steps : a.steps ≠ []
  left : a.behaviour? "_triesleft" = some (q.hints.length + 1 - a.tries).repr
  most : a.tries ≤ q.hints.length + 1
  unfinished : a.state.isFinished = false → a.tries ≤ q.hints.length
  awaits : Interactive.awaitsRetry a = true → 1 ≤ a.tries

namespace Accounts

variable {a : Attempt ν} {q : Question ν}

omit [Scalar ν] in
/-- The tries that the rulings go by are those that are left. -/
lemma triesLeft (ha : a.Accounts q) (hq : q.hints.length < Number.max32) :
    Interactive.triesLeft a = q.hints.length + 1 - a.tries := by
  have hread : Number.readNat? Number.max32 (q.hints.length + 1 - a.tries).repr =
      some (q.hints.length + 1 - a.tries) := Number.readNat?_repr (by omega)
  rw [Interactive.triesLeft, ha.left, Option.bind_some, hread]
  rfl

/-- The penalty is for the tries that were counted. -/
lemma penalised (ha : a.Accounts q) (hq : q.hints.length < Number.max32) (raw : ν) :
    Interactive.penalised a raw (Interactive.triesLeft a) = Interactive.worth q raw a.tries := by
  have hused : Interactive.totalTries a - Interactive.triesLeft a = a.tries := by
    have hmost := ha.most
    rw [ha.triesLeft hq, Interactive.totalTries, ha.question]
    omega
  rw [Interactive.penalised, Interactive.worth, hused, ha.question]

omit [Scalar ν] in
/-- The hint after a wrong try is the one of the try that was counted last. -/
lemma hint (ha : a.Accounts q) (hq : q.hints.length < Number.max32)
    (hawaits : Interactive.awaitsRetry a = true) :
    ∃ hint, q.hints[a.tries - 1]? = some hint ∧ a.hint? = some hint := by
  have hone := ha.awaits hawaits
  have hopen := ha.unfinished (Interactive.not_isFinished_of_awaitsRetry hawaits)
  obtain ⟨used, hused⟩ : ∃ used, a.tries = used + 1 := ⟨a.tries - 1, by omega⟩
  have hlt : used < q.hints.length := by omega
  have hcount : Interactive.totalTries a - Interactive.triesLeft a = used + 1 := by
    rw [ha.triesLeft hq, Interactive.totalTries, ha.question]
    omega
  refine ⟨q.hints[used], ?_, ?_⟩
  · rw [hused, Nat.add_sub_cancel, List.getElem?_eq_getElem hlt]
  · rw [hint?, ha.behaviour, Option.bind_some, Behaviour.hint?, Interactive.hint?, if_pos hawaits,
      hcount, ha.question]
    exact List.getElem?_eq_getElem hlt

/-- A fresh attempt that is opened with no data of its own has all its tries left. -/
lemma opened {a : Attempt ν} (ha : a.IsFresh q) (time : Instant) (actor : Option String)
    (draw : Draw) :
    (a.opened ⟨.interactive, SortedMap.empty, time, actor, draw⟩).Accounts q := by
  have hopened := isOpened_opened ha ⟨.interactive, SortedMap.empty, time, actor, draw⟩
  obtain ⟨first, hsteps, hvars⟩ := exists_first_opened ha time actor draw
  have hlast : (a.opened ⟨.interactive, SortedMap.empty, time, actor, draw⟩).last? =
      some first := by
    rw [last?, hsteps]
    rfl
  refine ⟨hopened.question, hopened.behaviour, by simp [hsteps], ?_, ?_, ?_, ?_⟩
  · rw [behaviour?, latestFirst, hsteps, tries, hsteps]
    simpa [hvars] using Vars.behaviour?_cache_self _ "triesleft" _
  · rw [tries, hsteps]
    exact Nat.zero_le _
  · rw [tries, hsteps]
    exact fun _ => Nat.zero_le _
  · intro hawaits
    simp only [Interactive.awaitsRetry, hlast, Bool.and_eq_true] at hawaits
    have hsubmit := hawaits.2.1
    rw [hvars, Vars.hasBehaviour, Vars.behaviour?_cache_of_ne _ _ (by decide),
      Question.behaviour?_seed] at hsubmit
    cases hsubmit

section

variable {d d' : Draft ν}

/-- A step counts a try exactly when it submits a response that can be graded. -/
lemma hasBehaviour_left (ha : a.Accounts q) (hvars : d.vars.behaviour? "_triesleft" = none)
    (hd : d.fraction = none) (h : Behaviour.interactive.rule a d = .ok (.keep d')) :
    d'.vars.hasBehaviour "_triesleft" =
      (d.vars.isTry && q.isGradable d.vars.questionPart) := by
  rw [Vars.hasBehaviour, ← ha.question, ← Interactive.counts]
  cases Interactive.rule_passes hd h with
  | uncounted hcounts hleft =>
    rw [hleft, hvars, hcounts]
    rfl
  | again hcounts _ hleft _ =>
    rw [hleft, hcounts]
    rfl
  | last hcounts _ hleft _ _ _ =>
    rw [hleft, hcounts]
    rfl

/-- A step that counts a try is one more than there were, says how many are left after it, and is
penalised for those before it. -/
lemma counted (ha : a.Accounts q) (hq : q.hints.length < Number.max32)
    (hvars : d.vars.behaviour? "_triesleft" = none) (hd : d.fraction = none)
    (h : Behaviour.interactive.rule a d = .ok (.keep d'))
    (hcounts : d'.vars.hasBehaviour "_triesleft" = true) :
    a.tries ≤ q.hints.length ∧ (d'.state.isFinished = false → a.tries < q.hints.length) ∧
      d'.vars.behaviour? "_triesleft" = some (q.hints.length - a.tries).repr ∧
      ∀ fraction, d'.fraction = some fraction →
        d'.vars.behaviour? "_rawfraction" =
          some (Scalar.plain (q.grade d.vars.questionPart).1) ∧
        fraction = Interactive.worth q (q.grade d.vars.questionPart).1 a.tries := by
  have hless : Interactive.triesLeft a - 1 = q.hints.length - a.tries := by
    rw [ha.triesLeft hq]
    omega
  cases Interactive.rule_passes hd h with
  | uncounted _ hleft =>
    rw [Vars.hasBehaviour, hleft, hvars] at hcounts
    cases hcounts
  | again _ hmore hleft hfraction =>
    rw [ha.triesLeft hq] at hmore
    refine ⟨by omega, fun _ => by omega, by rw [hleft, hless], fun fraction hfraction' => ?_⟩
    rw [hfraction] at hfraction'
    cases hfraction'
  | last _ hopen hleft hraw hfraction hstate =>
    refine ⟨ha.unfinished hopen, fun hstate' => ?_, by rw [hleft, hless],
      fun fraction hfraction' => ?_⟩
    · rw [hstate] at hstate'
      cases hstate'
    · rw [hfraction, Option.some.injEq] at hfraction'
      rw [← hfraction', ha.penalised hq, hraw, ha.question]
      exact ⟨rfl, rfl⟩

/-- A kept action that brings no cached variables keeps the account. -/
lemma keep (ha : a.Accounts q) (hq : q.hints.length < Number.max32)
    (hvars : d.vars.behaviour? "_triesleft" = none) (hd : d.fraction = none)
    (h : Behaviour.interactive.rule a d = .ok (.keep d')) : (a.keep d').Accounts q := by
  have hsteps : (a.keep d').steps ≠ [] := by simp [Attempt.keep, record]
  have htries := tries_keep ha.steps d'
  have hleft := a.behaviour?_keep d' "_triesleft"
  have hawaits : Interactive.awaitsRetry (a.keep d') = true →
      d'.vars.hasBehaviour "_triesleft" = true := by
    intro hawaits
    have hlast : (a.keep d').last? = some d'.record := last?_record _ _
    simp only [Interactive.awaitsRetry, hlast, Bool.and_eq_true] at hawaits
    exact hawaits.2.2
  cases hcounts : d'.vars.hasBehaviour "_triesleft" with
  | true =>
    obtain ⟨hmost, hmore, htells, -⟩ := ha.counted hq hvars hd h hcounts
    rw [hcounts, if_pos rfl] at htries
    rw [htells, Option.some_or] at hleft
    refine ⟨ha.question, ha.behaviour, hsteps, ?_, by omega, fun hopen => ?_, fun _ => by omega⟩
    · rw [hleft, htries, Nat.add_sub_add_right]
    · rw [state_keep] at hopen
      have := hmore hopen
      omega
  | false =>
    rw [hcounts, if_neg (by simp), Nat.add_zero] at htries
    rw [Option.isNone_iff_eq_none.1 (Option.isSome_eq_false_iff.1 hcounts), Option.none_or] at hleft
    refine ⟨ha.question, ha.behaviour, hsteps, ?_, ?_, fun hopen => ?_, fun h' => ?_⟩
    · rw [hleft, htries, ha.left]
    · rw [htries]
      exact ha.most
    · rw [htries]
      refine ha.unfinished ?_
      by_contra hfinished
      rw [isFinished_keep (eq_true_of_ne_false hfinished) hd h] at hopen
      cases hopen
    · rw [hawaits h'] at hcounts
      cases hcounts

end

end Accounts

/-- The step that an action added is the draft that the behaviour kept. -/
lemma exists_of_afterAction {a : Attempt ν} {b : Behaviour} (hb : a.behaviour = some b) {x : Action}
    {step : Step ν} (h : (a.afterAction x).steps = a.steps ++ [step]) :
    ∃ d, b.rule a (Draft.new x.vars x.time x.actor) = .ok (.keep d) ∧ step = d.record := by
  obtain ⟨hstate, -⟩ | ⟨b', d, hb', hd, hstate, -⟩ := act_cases a x.vars x.time x.actor
  · rw [afterAction, hstate] at h
    simp at h
  · rw [hb, Option.some.injEq] at hb'
    subst hb'
    have hsteps : (a.keep d).steps = a.steps ++ [d.record] := rfl
    rw [afterAction, hstate, hsteps, List.append_cancel_left_eq, List.cons.injEq] at h
    exact ⟨d, hd, h.1.symm⟩

/-- The tries of an interactive attempt are accounted for.  Take a question with `h` hints whose
tries fit into a counter of 32 bits, open an attempt at it under the interactive behaviour with no
data, and send it any actions that bring no cached variables.  Of the later steps let `n` have
counted a try.  Then the attempt says that `h + 1 - n` tries are left, and it has one left as long as
it is active.  When the learner has to ask to try again, a try was counted, and its hint is shown.

A further step counts a try exactly when it submits a response that can be graded.  It says that
`h - n` tries are left then, and when it grades, it earns what the raw fraction of the response is
worth after `n` tries and remembers the raw one.  A step that finishes and grades does so with the
latest response. -/
theorem tries_accounted (q : Question ν) (hq : q.hints.length < Number.max32) (usageId : String)
    (slot : Nat) (maxMark : Option ν) (time : Instant) (actor : Option String) (draw : Draw)
    (log : List Action) (hlog : ∀ x ∈ log, ∀ key ∈ x.vars.keys, isCachedKey key = false) :
    let started := (new q usageId slot maxMark).opened
      ⟨.interactive, SortedMap.empty, time, actor, draw⟩
    let a := started.afterActions log
    let h := q.hints.length
    let n := a.tries
    (a.behaviour? "_triesleft" = some (h + 1 - n).repr ∧ n ≤ h + 1) ∧
    (a.state.isActive = true → n ≤ h) ∧
    (Interactive.awaitsRetry a = true →
      1 ≤ n ∧ ∃ hint, q.hints[n - 1]? = some hint ∧ a.hint? = some hint) ∧
    ∀ x : Action, (∀ key ∈ x.vars.keys, isCachedKey key = false) →
      ∀ step, (a.afterAction x).steps = a.steps ++ [step] →
        step.vars.hasBehaviour "_triesleft" =
          (x.vars.isTry && q.isGradable x.vars.questionPart) ∧
        (step.vars.hasBehaviour "_triesleft" = true →
          step.vars.behaviour? "_triesleft" = some (h - n).repr ∧
          ∀ fraction, step.fraction = some fraction →
            let raw := (q.grade x.vars.questionPart).1
            step.vars.behaviour? "_rawfraction" = some (Scalar.plain raw) ∧
              fraction = Scalar.greatest (raw - q.penalty * Scalar.ofCount n)
                (Scalar.least raw 0.0)) ∧
        (x.vars.hasBehaviour "finish" = true → x.vars.hasBehaviour "comment" = false →
          ∀ fraction, step.fraction = some fraction →
            let raw := (q.grade a.response).1
            step.vars.behaviour? "_rawfraction" = some (Scalar.plain raw) ∧
              fraction = Scalar.greatest (raw - q.penalty * Scalar.ofCount n)
                (Scalar.least raw 0.0)) := by
  intro started a h n
  have hnone : ∀ x : Action, (∀ key ∈ x.vars.keys, isCachedKey key = false) →
      x.vars.behaviour? "_triesleft" = none :=
    fun x hx => Vars.behaviour?_eq_none hx "triesleft"
  have ha : a.Accounts q := by
    refine afterActions_keeps (P := fun a => a.Accounts q) ?_
      (Accounts.opened (isFresh_new q usageId slot maxMark) time actor draw)
    intro x hx a b d ha hb hd
    obtain rfl : Behaviour.interactive = b := Option.some.inj (ha.behaviour.symm.trans hb)
    exact ha.keep hq (hnone x (hlog x hx)) rfl hd
  refine ⟨⟨ha.left, ha.most⟩,
    fun hactive => ha.unfinished (State.not_isFinished_of_isActive hactive),
    fun hawaits => ⟨ha.awaits hawaits, ha.hint hq hawaits⟩, fun x hx step hstep => ?_⟩
  obtain ⟨d, hrule, rfl⟩ := exists_of_afterAction ha.behaviour hstep
  refine ⟨ha.hasBehaviour_left (hnone x hx) rfl hrule, fun hcounts => ?_,
    fun hfinish hcomment => ?_⟩
  · obtain ⟨-, -, htells, hgrades⟩ := ha.counted hq (hnone x hx) rfl hrule hcounts
    exact ⟨htells, hgrades⟩
  · intro fraction hfraction
    rw [Interactive.rule_of_finish a hfinish hcomment, Except.ok.injEq] at hrule
    obtain ⟨hraw, hworth⟩ := (Interactive.finish_keeps rfl hrule).2 fraction hfraction
    rw [ha.question] at hraw hworth
    exact ⟨hraw, hworth.trans (ha.penalised hq _)⟩

/-- A wrong try is answered by the only hint, and the right answer after it loses one penalty. -/
theorem tries_accounted_secondTry :
    let q : Question (Exact .decimal) := .trueFalse
      { TrueFalse.new "q1" "The sky is blue" true with
        penalty := Exact.rational (1 / 4), hints := ["Look up"] }
    let o : Opening := ⟨.interactive, SortedMap.empty, ⟨0⟩, none, ⟨0, 0⟩⟩
    let started := (new q "u" 1 none).opened o
    let wrong : Action := ⟨SortedMap.ofList [("answer", "0"), ("-submit", "1")], ⟨1500⟩, none⟩
    let again : Action := ⟨SortedMap.ofList [("-tryagain", "1")], ⟨2500⟩, none⟩
    let right : Action := ⟨SortedMap.ofList [("answer", "1"), ("-submit", "1")], ⟨3500⟩, none⟩
    let a := started.afterActions [wrong, again]
    q.hints.length < Number.max32 ∧
      (∀ x ∈ [wrong, again, right], ∀ key ∈ x.vars.keys, isCachedKey key = false) ∧
      (started.afterActions [wrong]).hint? = some "Look up" ∧
      a.behaviour? "_triesleft" = some "1" ∧
      ∃ step, (a.afterAction right).steps = a.steps ++ [step] ∧
        step.vars.behaviour? "_triesleft" = some "0" ∧
        step.vars.behaviour? "_rawfraction" = some "1" ∧
        step.fraction = some (Exact.rational (3 / 4)) := by
  intro q o started wrong again right a
  have hq : q.hints.length < Number.max32 := by decide
  have hplain : ∀ x ∈ [wrong, again, right], ∀ key ∈ x.vars.keys, isCachedKey key = false := by
    decide
  have account := tries_accounted q hq "u" 1 none ⟨0⟩ none ⟨0, 0⟩
  obtain ⟨-, -, hawaits, -⟩ :=
    account [wrong] fun x hx => hplain x (List.mem_append_left [again, right] hx)
  obtain ⟨⟨hleft, -⟩, -, -, hnext⟩ :=
    account [wrong, again] fun x hx => hplain x (List.mem_append_left [right] hx)
  have hwrong : (started.afterActions [wrong]).tries = 1 := by decide +kernel
  have htries : a.tries = 1 := by decide +kernel
  obtain ⟨hint, hhint, hshown⟩ := (hawaits (by decide +kernel)).2
  rw [hwrong] at hhint
  -- the last action is kept, so it adds the step that the account speaks of
  obtain ⟨-, later, hlater, -⟩ := afterActions_frame a [right]
  have hcount : (a.afterAction right).steps.length = a.steps.length + 1 := by decide +kernel
  obtain ⟨step, rfl⟩ : ∃ step, later = [step] := by
    rw [← List.length_eq_one_iff]
    have hlength := congrArg List.length hlater
    rw [List.length_append] at hlength
    have hcount' : (a.afterActions [right]).steps.length = a.steps.length + 1 := hcount
    omega
  obtain ⟨hcounts, hgraded, -⟩ := hnext right (hplain right (by simp)) step hlater
  obtain ⟨htells, hworth⟩ := hgraded (hcounts.trans (by decide +kernel))
  have hfraction : (a.afterAction right).fraction = some (Exact.rational (3 / 4)) := by
    decide +kernel
  have hlast : (a.afterAction right).fraction = step.fraction := by
    have hsteps : (a.afterAction right).steps = a.steps ++ [step] := hlater
    rw [fraction, last?, hsteps, List.getLast?_concat]
    rfl
  obtain ⟨hraw, -⟩ := hworth _ (hlast.symm.trans hfraction)
  refine ⟨hq, hplain, hshown.trans hhint.symm, ?_, step, hlater, ?_, ?_, hlast.symm.trans hfraction⟩
  · rw [hleft, htries]
    decide
  · rw [htells, htries]
    decide
  · rw [hraw]
    decide +kernel

end Attempt
end Assessment
