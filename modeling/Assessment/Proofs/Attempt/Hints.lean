import Assessment.Proofs.Attempt.Reproducible
import Assessment.Proofs.Attempt.Tries
import Mathlib.Data.List.Basic

/-!
# Replaying after the hints have changed

The hints of a question say how many tries there are, and an interactive attempt writes that number
down once, in its first step.  A replay keeps the first step.  So when the question has other hints by
then, the tries that are left go by the old number and the tries that there are by the new one.

Of a history that is replayed this changes nothing but fractions (`Attempt.Rehinted`): no ruling of the
interactive behaviour looks at a fraction, and none at the hints as long as the number of tries that
are left is found in the history (`Rehinted.rule`).  The fractions are penalised for the difference of
the two numbers: with `h` hints at the start and `h'` at the replay, a try is charged for `h' - h` tries
more than were counted before it, if that is not negative (`Attempt.replay_with_other_hints`).  With one
hint more, a right first try loses a penalty (`Attempt.hint_added_costs_penalty`).
-/

namespace Assessment

variable {ν : Type}

/-! ## Other hints -/

namespace Question

/-- The question with other hints, if it is of a type that has hints. -/
def withHints (hints : List String) : Question ν → Question ν
  | trueFalse q => trueFalse { q with hints := hints }
  | multiChoice q => multiChoice { q with hints := hints }
  | essay q => essay q
  | description q => description q
  | openAnswer q => openAnswer q

variable (hints : List String) (q : Question ν)

@[simp] lemma isComplete_withHints : (q.withHints hints).isComplete = q.isComplete := by
  cases q <;> rfl

@[simp] lemma isGradable_withHints : (q.withHints hints).isGradable = q.isGradable := by
  cases q <;> rfl

@[simp] lemma isSeeded_withHints : (q.withHints hints).isSeeded = q.isSeeded := by
  cases q <;> rfl

@[simp] lemma summarise_withHints : (q.withHints hints).summarise = q.summarise := by
  cases q <;> rfl

variable [Scalar ν]

@[simp] lemma grade_withHints : (q.withHints hints).grade = q.grade := by
  cases q <;> rfl

@[simp] lemma penalty_withHints : (q.withHints hints).penalty = q.penalty := by
  cases q <;> rfl

@[simp] lemma minFraction_withHints : (q.withHints hints).minFraction = q.minFraction := by
  cases q <;> rfl

@[simp] lemma defaultMark_withHints : (q.withHints hints).defaultMark = q.defaultMark := by
  cases q <;> rfl

end Question

/-! ## Without fractions -/

/-- The step without its fraction. -/
def Step.withoutFraction (step : Step ν) : Step ν := { step with fraction := none }

/-- The draft without its fraction. -/
def Draft.withoutFraction (d : Draft ν) : Draft ν := { d with fraction := none }

/-- The ruling without the fraction that it gives. -/
def Ruling.withoutFraction : Ruling ν → Ruling ν
  | discard => discard
  | keep d => keep d.withoutFraction

/-! ## What is read off the steps -/

namespace Attempt

lemma state_eq (a : Attempt ν) :
    a.state = (a.steps.map Step.state).getLast?.getD .notStarted := by
  rw [List.getLast?_map, state, last?]
  cases a.steps.getLast? <;> rfl

lemma response_eq (a : Attempt ν) : a.response =
    (((a.steps.map Step.vars).reverse.map Vars.questionPart).find? fun vars => !vars.isEmpty).getD
      SortedMap.empty := by
  simp only [response, latestFirst, List.map_reverse, List.map_map]
  rfl

lemma behaviour?_eq (a : Attempt ν) (name : String) : a.behaviour? name =
    (a.steps.map Step.vars).reverse.findSome? fun vars => vars.behaviour? name := by
  simp only [behaviour?, latestFirst, ← List.map_reverse, List.findSome?_map]
  rfl

lemma tries_eq (a : Attempt ν) : a.tries =
    (a.steps.map Step.vars).tail.countP fun vars => vars.hasBehaviour "_triesleft" := by
  rw [← List.map_tail, List.countP_map]
  rfl

end Attempt

namespace Interactive

lemma awaitsRetry_eq (a : Attempt ν) : awaitsRetry a = (a.state.isActive &&
    (a.steps.map Step.vars).getLast?.any fun vars =>
      vars.hasBehaviour "submit" && vars.hasBehaviour "_triesleft") := by
  rw [List.getLast?_map, awaitsRetry, Attempt.last?]
  cases a.steps.getLast? <;> rfl

lemma holds_eq (a : Attempt ν) (d : Draft ν) : sameness.holds a d =
    (!d.vars.hasLead "omact_" && (a.steps.map Step.vars).getLast?.any fun vars =>
      vars.submitted == d.vars.submitted) := by
  rw [List.getLast?_map, sameness, Sameness.holds, Attempt.last?]
  cases d.vars.hasLead "omact_" <;> cases a.steps.getLast? <;> rfl

end Interactive

/-! ## The same history -/

namespace Attempt

/-- The same attempt at the question with other hints, where steps may have other fractions. -/
structure Rehinted (hints : List String) (a a' : Attempt ν) : Prop where
  question : a'.question = a.question.withHints hints
  behaviour : a'.behaviour = a.behaviour
  maxMark : a'.maxMark = a.maxMark
  minFraction : a'.minFraction = a.minFraction
  steps : a'.steps.map Step.withoutFraction = a.steps.map Step.withoutFraction

namespace Rehinted

variable {hints : List String} {a a' : Attempt ν}

lemma vars (h : a.Rehinted hints a') : a'.steps.map Step.vars = a.steps.map Step.vars := by
  have hvars := congrArg (List.map Step.vars) h.steps
  rwa [List.map_map, List.map_map] at hvars

lemma state (h : a.Rehinted hints a') : a'.state = a.state := by
  have hstates := congrArg (List.map Step.state) h.steps
  rw [List.map_map, List.map_map] at hstates
  rw [state_eq, state_eq]
  exact congrArg (fun states => states.getLast?.getD .notStarted) hstates

lemma response (h : a.Rehinted hints a') : a'.response = a.response := by
  rw [response_eq, response_eq, h.vars]

lemma behaviour? (h : a.Rehinted hints a') (name : String) :
    a'.behaviour? name = a.behaviour? name := by
  rw [behaviour?_eq, behaviour?_eq, h.vars]

lemma tries (h : a.Rehinted hints a') : a'.tries = a.tries := by
  rw [tries_eq, tries_eq, h.vars]

lemma awaitsRetry (h : a.Rehinted hints a') :
    Interactive.awaitsRetry a' = Interactive.awaitsRetry a := by
  rw [Interactive.awaitsRetry_eq, Interactive.awaitsRetry_eq, h.state, h.vars]

lemma holds (h : a.Rehinted hints a') (d : Draft ν) :
    Interactive.sameness.holds a' d = Interactive.sameness.holds a d := by
  rw [Interactive.holds_eq, Interactive.holds_eq, h.vars]

/-! ### Rulings -/

lemma retry (h : a.Rehinted hints a') (d : Draft ν) :
    Interactive.retry a' d = Interactive.retry a d := by
  simp only [Interactive.retry, h.awaitsRetry]

lemma save (h : a.Rehinted hints a') (d : Draft ν) :
    Interactive.save a' d = Interactive.save a d := by
  simp only [Interactive.save, Ruling.save, h.state, h.awaitsRetry, h.holds d, h.question,
    Question.summarise_withHints, Question.isComplete_withHints]

lemma keep (h : a.Rehinted hints a') {d d' : Draft ν} (hd : d'.withoutFraction = d.withoutFraction) :
    (a.keep d).Rehinted hints (a'.keep d') := by
  have hrecord : d'.record.withoutFraction = d.record.withoutFraction :=
    congrArg Draft.record hd
  refine ⟨h.question, h.behaviour, h.maxMark, h.minFraction, ?_⟩
  simp only [Attempt.keep, record, List.map_append, List.map_cons, List.map_nil, h.steps, hrecord]

variable [Scalar ν]

lemma submit (h : a.Rehinted hints a') (hleft : Interactive.triesLeft a' = Interactive.triesLeft a)
    (d : Draft ν) :
    (Interactive.submit a' d).withoutFraction = (Interactive.submit a d).withoutFraction := by
  simp only [Interactive.submit, h.state, h.awaitsRetry, h.holds d, h.question, hleft,
    Question.summarise_withHints, Question.isGradable_withHints, Question.grade_withHints]
  split
  · rfl
  · split
    · split <;> rfl
    · rfl

lemma finish (h : a.Rehinted hints a') (d : Draft ν) :
    (Interactive.finish a' d).withoutFraction = (Interactive.finish a d).withoutFraction := by
  simp only [Interactive.finish, h.state, h.response, h.question, Question.isGradable_withHints,
    Question.grade_withHints]
  split
  · rfl
  · split <;> rfl

lemma comment (h : a.Rehinted hints a') (d : Draft ν) :
    (Ruling.comment a' d).map Ruling.withoutFraction =
      (Ruling.comment a d).map Ruling.withoutFraction := by
  cases ht : Ruling.markText? d with
  | none =>
    rw [Ruling.comment_of_noMark _ ht, Ruling.comment_of_noMark _ ht, h.state]
    rfl
  | some text =>
    have haward : Ruling.award a' d text = Ruling.award a d text := by
      simp only [Ruling.award, Ruling.outOf, Attempt.minFraction?, h.maxMark, h.minFraction]
    rw [Ruling.comment_of_mark _ ht, Ruling.comment_of_mark _ ht, haward, h.state]

/-- Where the same number of tries is left, the behaviour rules alike, fractions apart. -/
lemma rule (h : a.Rehinted hints a') (hleft : Interactive.triesLeft a' = Interactive.triesLeft a)
    (d : Draft ν) :
    (Behaviour.interactive.rule a' d).map Ruling.withoutFraction =
      (Behaviour.interactive.rule a d).map Ruling.withoutFraction := by
  rw [Interactive.rule_eq, Interactive.rule_eq]
  split_ifs
  · exact h.comment d
  · exact congrArg Except.ok (h.finish d)
  · exact congrArg (fun r => Except.ok (Ruling.withoutFraction r)) (h.retry d)
  · exact congrArg Except.ok (h.submit hleft d)
  · exact congrArg (fun r => Except.ok (Ruling.withoutFraction r)) (h.save d)

/-- An action comes to the same on both attempts. -/
lemma act (h : a.Rehinted hints a') (hb : a.behaviour = some .interactive)
    (hleft : Interactive.triesLeft a' = Interactive.triesLeft a) (vars : Vars) (time : Instant)
    (actor : Option String) :
    (Attempt.act vars time actor a').result = (Attempt.act vars time actor a).result ∧
      (Attempt.act vars time actor a).state.Rehinted hints (Attempt.act vars time actor a').state := by
  have hrule := h.rule hleft (Draft.new vars time actor)
  simp only [Attempt.act, h.behaviour.trans hb, hb]
  cases hr : Behaviour.interactive.rule a (Draft.new vars time actor) with
  | error e =>
    cases hr' : Behaviour.interactive.rule a' (Draft.new vars time actor) with
    | error e' =>
      rw [hr, hr'] at hrule
      cases hrule
      exact ⟨rfl, h⟩
    | ok r' => rw [hr, hr'] at hrule; cases hrule
  | ok r =>
    cases hr' : Behaviour.interactive.rule a' (Draft.new vars time actor) with
    | error e' => rw [hr, hr'] at hrule; cases hrule
    | ok r' =>
      rw [hr, hr'] at hrule
      cases r with
      | discard =>
        cases r' with
        | discard => exact ⟨rfl, h⟩
        | keep d' => cases hrule
      | keep d =>
        cases r' with
        | discard => cases hrule
        | keep d' => exact ⟨rfl, h.keep (Ruling.keep.inj (Except.ok.inj hrule))⟩

end Rehinted

/-! ## Replays -/

/-- A run of an interactive attempt and the same one at the question with other hints.  Where the second
one grades a try, it is penalised for the tries that were counted before it and for the hints that the
question has now and had not when the attempt was started. -/
structure Rerun [Scalar ν] (hints : List String) (q : Question ν) (a a' : Attempt ν) : Prop where
  rehinted : a.Rehinted hints a'
  accounts : a.Accounts q
  worth : ∀ before step after, a'.steps.tail = before ++ step :: after →
    step.vars.hasBehaviour "_triesleft" = true → ∀ fraction, step.fraction = some fraction →
      let raw := (q.grade step.vars.questionPart).1
      step.vars.behaviour? "_rawfraction" = some (Scalar.plain raw) ∧
        fraction = Interactive.worth q raw ((q.withHints hints).hints.length +
          before.countP (fun step => step.vars.hasBehaviour "_triesleft") - q.hints.length)

end Attempt

/-- What a behaviour writes is nothing that a question reads. -/
lemma Draft.Writes.questionPart {names : List String} {d d' : Draft ν} (h : d'.Writes names d) :
    d'.vars.questionPart = d.vars.questionPart := by
  apply SortedMap.ext_get?
  intro key
  rw [Vars.questionPart, Vars.questionPart, SortedMap.get?_filter, SortedMap.get?_filter]
  cases hkey : isBehaviourKey key with
  | true => simp
  | false =>
    rw [h key fun name _ heq => ?_]
    rw [heq] at hkey
    simp [isBehaviourKey, cachedBehaviourKey, Owner.key, String.toList_append] at hkey

namespace Attempt

variable [Scalar ν] {hints : List String} {q : Question ν} {a a' : Attempt ν}

namespace Rerun

lemma triesLeft (h : Rerun hints q a a') (hq : q.hints.length < Number.max32) :
    Interactive.triesLeft a' = q.hints.length + 1 - a.tries := by
  have hread : Number.readNat? Number.max32 (q.hints.length + 1 - a.tries).repr =
      some (q.hints.length + 1 - a.tries) := Number.readNat?_repr (by omega)
  rw [Interactive.triesLeft, h.rehinted.behaviour?, h.accounts.left, Option.bind_some, hread]
  rfl

/-- A try that is graded is penalised for the difference of the hints, too. -/
lemma worth_keep (h : Rerun hints q a a') (hq : q.hints.length < Number.max32) {d d' : Draft ν}
    (hvars : d.vars.behaviour? "_triesleft" = none) (hd : d.fraction = none)
    (hrule : Behaviour.interactive.rule a' d = .ok (.keep d'))
    (hcounts : d'.vars.hasBehaviour "_triesleft" = true) {fraction : ν}
    (hfraction : d'.fraction = some fraction) :
    d'.vars.behaviour? "_rawfraction" =
        some (Scalar.plain (q.grade d'.vars.questionPart).1) ∧
      fraction = Interactive.worth q (q.grade d'.vars.questionPart).1
        ((q.withHints hints).hints.length + a'.tries - q.hints.length) := by
  have hquestion : a'.question = q.withHints hints := by
    rw [h.rehinted.question, h.accounts.question]
  have hpart : d'.vars.questionPart = d.vars.questionPart := (Behaviour.rule_writes hrule).questionPart
  cases Interactive.rule_passes hd hrule with
  | uncounted _ hleft =>
    rw [Vars.hasBehaviour, hleft, hvars] at hcounts
    cases hcounts
  | again _ _ _ hnone =>
    rw [hnone] at hfraction
    cases hfraction
  | last _ _ _ hraw hgraded _ =>
    have hused : Interactive.totalTries a' - Interactive.triesLeft a' =
        (q.withHints hints).hints.length + a'.tries - q.hints.length := by
      have hmost := h.accounts.most
      rw [h.triesLeft hq, h.rehinted.tries, Interactive.totalTries, hquestion]
      omega
    rw [hgraded, Option.some.injEq] at hfraction
    rw [hraw, ← hfraction, hpart, Interactive.penalised, Interactive.worth, hused, hquestion,
      Question.grade_withHints, Question.penalty_withHints]
    exact ⟨rfl, rfl⟩

/-- An action that brings no cached variables is sent to both. -/
lemma act (h : Rerun hints q a a') (hq : q.hints.length < Number.max32) {vars : Vars}
    (hvars : vars.behaviour? "_triesleft" = none) (time : Instant) (actor : Option String) :
    (Attempt.act vars time actor a').result = (Attempt.act vars time actor a).result ∧
      Rerun hints q (Attempt.act vars time actor a).state (Attempt.act vars time actor a').state := by
  have hb := h.accounts.behaviour
  have hleft : Interactive.triesLeft a' = Interactive.triesLeft a :=
    (h.triesLeft hq).trans (h.accounts.triesLeft hq).symm
  obtain ⟨hresult, hrehinted⟩ := h.rehinted.act hb hleft vars time actor
  refine ⟨hresult, hrehinted, ?_, ?_⟩
  · obtain ⟨hstate, -⟩ | ⟨b, d, hb', hd, hstate, -⟩ := act_cases a vars time actor <;> rw [hstate]
    · exact h.accounts
    · obtain rfl := Option.some.inj (hb.symm.trans hb')
      exact h.accounts.keep hq hvars rfl hd
  · obtain ⟨hstate, -⟩ | ⟨b, d, hb', hd, hstate, -⟩ := act_cases a' vars time actor <;> rw [hstate]
    · exact h.worth
    · obtain rfl := Option.some.inj ((h.rehinted.behaviour.trans hb).symm.trans hb')
      have hsteps : a'.steps ≠ [] := fun hnil => h.accounts.steps (by
        have hmap := h.rehinted.steps
        rwa [hnil, List.map_nil, eq_comm, List.map_eq_nil_iff] at hmap)
      intro before step after htail hcounts fraction hfraction
      obtain ⟨rfl, rfl, rfl⟩ | ⟨after', rfl, htail'⟩ := tail_keep_cases hsteps htail
      · exact h.worth_keep hq hvars rfl hd hcounts hfraction
      · exact h.worth before step after' htail' hcounts fraction hfraction

/-- Two fresh attempts, at the question and at the one with other hints, that are opened with the same
seeded variables. -/
lemma opened {host host' : Attempt ν} (hh : host.IsFresh q) (hh' : host'.IsFresh (q.withHints hints))
    (hmax : host'.maxMark = host.maxMark) {o : Opening} (ho : o.behaviour = .interactive)
    (hq : q.isSeeded o.vars = true) (hb : Behaviour.interactive.isSeeded o.vars = true)
    (haccounts : (host.opened o).Accounts q) : Rerun hints q (host.opened o) (host'.opened o) := by
  have hvars : host.firstVars o.behaviour o.draw o.vars = o.vars := by
    rw [firstVars, hh.question, Question.seed_of_isSeeded hq, ho, Behaviour.seed_of_isSeeded hb]
  have hvars' : host'.firstVars o.behaviour o.draw o.vars = o.vars := by
    have hq' : (q.withHints hints).isSeeded o.vars = true := by rwa [Question.isSeeded_withHints]
    rw [firstVars, hh'.question, Question.seed_of_isSeeded hq', ho, Behaviour.seed_of_isSeeded hb]
  have hstate := (start_of_isFresh hh o.behaviour o.vars o.time o.actor o.draw).2
  have hstate' := (start_of_isFresh hh' o.behaviour o.vars o.time o.actor o.draw).2
  rw [hvars, ← Attempt.opened] at hstate
  rw [hvars', ← Attempt.opened] at hstate'
  refine ⟨?_, haccounts, fun before step after htail => ?_⟩
  · rw [hstate, hstate']
    refine ⟨?_, rfl, hmax, ?_, ?_⟩
    · show host'.question = host.question.withHints hints
      rw [hh.question, hh'.question]
    · show some (o.behaviour.minFraction (q.withHints hints)) = some (o.behaviour.minFraction q)
      rw [ho]
      exact congrArg some (q.minFraction_withHints hints)
    · simp only [record, hh.steps, hh'.steps]
  · rw [hstate', record, hh'.steps] at htail
    simp at htail

/-- The two attempts stay the same, fractions apart, as a history is replayed on them. -/
lemma replayStep (h : Rerun hints q a a') (hq : q.hints.length < Number.max32) (step : Step ν) :
    (Attempt.replayStep step a').result = (Attempt.replayStep step a).result ∧
      Rerun hints q (Attempt.replayStep step a).state (Attempt.replayStep step a').state := by
  obtain ⟨hresult, hstate⟩ := h.act hq
    (Vars.behaviour?_eq_none step.vars.not_isCachedKey_submitted "triesleft") step.time step.actor
  exact ⟨congrArg (fun r => r.map fun _ => ()) hresult, hstate⟩

end Rerun

/-- A fresh attempt that is opened with what the first step of another one remembers has all its tries
left. -/
lemma Accounts.reopened {host : Attempt ν} (ha : a.IsFresh q) (hh : host.IsFresh q) (time : Instant)
    (actor : Option String) (draw draw' : Draw) {first : Step ν}
    (hfirst : (a.opened ⟨.interactive, SortedMap.empty, time, actor, draw⟩).steps = [first]) :
    (host.opened ⟨.interactive, first.vars, first.time, first.actor, draw'⟩).Accounts q := by
  have hopened := Accounts.opened ha time actor draw
  have hok := (start_of_isFresh hh .interactive first.vars first.time first.actor draw').1
  have hstate := (Replays.opened ha hh
    (o := ⟨.interactive, SortedMap.empty, time, actor, draw⟩) rfl draw').2
  rw [replay_eq hopened.behaviour rfl hfirst, Op.bind_of_ok hok] at hstate
  rw [Attempt.opened]
  refine hstate ▸ ?_
  exact ⟨hopened.question, hopened.behaviour, hopened.steps, hopened.left, hopened.most,
    hopened.unfinished, hopened.awaits⟩

/-- What a replay does with the history of an interactive attempt is the same at its question and at
the question with other hints. -/
lemma Rerun.replay {host host' : Attempt ν} (ha : a.IsFresh q) (hh : host.IsFresh q)
    (hh' : host'.IsFresh (q.withHints hints)) (hmax : host'.maxMark = host.maxMark)
    (hq : q.hints.length < Number.max32) (time : Instant) (actor : Option String)
    (draw draw' : Draw) (log : List Action) :
    let donor := (a.opened ⟨.interactive, SortedMap.empty, time, actor, draw⟩).afterActions log
    (Attempt.replay donor draw' host').result = (Attempt.replay donor draw' host).result ∧
      Rerun hints q (Attempt.replay donor draw' host).state
        (Attempt.replay donor draw' host').state := by
  intro donor
  obtain ⟨first, hfirst, hvars⟩ := exists_first_opened ha time actor draw
  obtain ⟨-, later, hlater, -⟩ :=
    afterActions_frame (a.opened ⟨.interactive, SortedMap.empty, time, actor, draw⟩) log
  have hsteps : donor.steps = first :: later := by rw [hlater, hfirst, List.singleton_append]
  have hb : donor.behaviour = some .interactive :=
    (behaviour_afterActions ..).trans (Accounts.opened ha time actor draw).behaviour
  -- the first step is seeded, so both attempts start with what it remembers
  have hseeded : q.isSeeded first.vars = true := by
    rw [hvars]
    exact Question.isSeeded_cache (q.isSeeded_seed draw _) _ _
  have hleft : Behaviour.interactive.isSeeded first.vars = true := by
    rw [hvars]
    exact Vars.hasBehaviour_cache_self _ "triesleft" _
  have hopened : Rerun hints q
      (host.opened ⟨.interactive, first.vars, first.time, first.actor, draw'⟩)
      (host'.opened ⟨.interactive, first.vars, first.time, first.actor, draw'⟩) :=
    Rerun.opened hh hh' hmax rfl hseeded hleft
      (Accounts.reopened ha hh time actor draw draw' hfirst)
  rw [replay_eq hb rfl hsteps, Op.bind_of_ok (start_of_isFresh hh ..).1,
    Op.bind_of_ok (start_of_isFresh hh' ..).1]
  exact Op.forEach_relates (fun step _ _ _ h => h.replayStep hq step) hopened

/-- A replay at a question whose hints have changed.  Take a question with `h` hints whose tries fit
into a counter of 32 bits, open an attempt at it under the interactive behaviour with no data, and send
it any actions that bring no cached variables.  Then give the question other hints, `h'` of them, and
replay the history on a fresh attempt.  By then the history may have been read back at any question:
at the one that it was made at, or at the one with other hints.  If the marks are as they were, or every
comment in the history says out of how many its mark is, the history is reproduced, but for its
fractions.

However the replay ends, a step of it that counts a try and grades it remembers the raw fraction.  The
step before which `k` tries were counted is penalised for `h' + k - h` tries, or for none if that is
negative: for those that were counted as long as the question has as many hints as it had. -/
theorem replay_with_other_hints (q : Question ν) (hq : q.hints.length < Number.max32)
    (hints : List String) (known : Question ν) (usageId usageId' : String) (slot slot' : Nat)
    (maxMark maxMark' : Option ν) (time : Instant) (actor : Option String) (draw draw' : Draw)
    (log : List Action) (hlog : ∀ x ∈ log, ∀ key ∈ x.vars.keys, isCachedKey key = false) :
    let q' := q.withHints hints
    let history := ((new q usageId slot maxMark).opened
      ⟨.interactive, SortedMap.empty, time, actor, draw⟩).afterActions log
    let donor : Attempt ν := { history with question := known }
    let replayed := Attempt.replay donor draw' (new q' usageId' slot' maxMark')
    let h := q.hints.length
    let h' := q'.hints.length
    (maxMark'.getD q'.defaultMark = maxMark.getD q.defaultMark ∨ history.MarksAreAbsolute →
      replayed.result = .ok () ∧
        replayed.state.steps.map Step.withoutFraction = history.steps.map Step.withoutFraction) ∧
    ∀ before step after, replayed.state.steps.tail = before ++ step :: after →
      step.vars.hasBehaviour "_triesleft" = true → ∀ fraction, step.fraction = some fraction →
        let raw := (q'.grade step.vars.questionPart).1
        let k := before.countP fun step => step.vars.hasBehaviour "_triesleft"
        step.vars.behaviour? "_rawfraction" = some (Scalar.plain raw) ∧
          fraction = Scalar.greatest (raw - q'.penalty * Scalar.ofCount (h' + k - h))
            (Scalar.least raw 0.0) ∧
          (h' = h → fraction = Scalar.greatest (raw - q'.penalty * Scalar.ofCount k)
            (Scalar.least raw 0.0)) := by
  intro q' history donor replayed h h'
  have hfresh := isFresh_new q usageId slot maxMark
  have hhost := isFresh_new q usageId' slot' maxMark'
  have hmaxMark : (new q' usageId' slot' maxMark').maxMark = (new q usageId' slot' maxMark').maxMark :=
    congrArg maxMark'.getD (q.defaultMark_withHints hints)
  obtain ⟨hresult, hrerun⟩ := Rerun.replay hfresh hhost
    (isFresh_new q' usageId' slot' maxMark') hmaxMark hq time actor draw draw' log
  refine ⟨fun hm => ?_, fun before step after htail hcounts fraction hfraction => ?_⟩
  · obtain ⟨hmax, first, hfirst⟩ :=
      exists_steps_opened hfresh ⟨.interactive, SortedMap.empty, time, actor, draw⟩
    have hhistory : history.Replays (new q usageId' slot' maxMark') :=
      (Replays.opened hfresh hhost rfl).afterActions (by simp [hfirst]) hlog
        (hm.imp_left fun hm => hmaxMark.symm.trans (hm.trans hmax.symm))
    obtain ⟨hok, hstate⟩ := hhistory draw'
    refine ⟨hresult.trans hok, hrerun.rehinted.steps.trans ?_⟩
    rw [hstate]
    rfl
  · obtain ⟨hraw, hworth⟩ := hrerun.worth before step after htail hcounts fraction hfraction
    rw [Interactive.worth] at hworth
    simp only [q', Question.grade_withHints, Question.penalty_withHints]
    refine ⟨hraw, hworth, fun hsame => ?_⟩
    rw [hworth, show (q.withHints hints).hints.length = q.hints.length from hsame,
      Nat.add_sub_cancel_left]

/-- The right answer to a statement with one hint, given after a wrong one, and replayed with two hints:
it loses two penalties instead of one. -/
theorem replay_with_other_hints_secondTry :
    let q : Question (Exact .decimal) := .trueFalse
      { TrueFalse.new "q1" "The sky is blue" true with
        penalty := Exact.rational (1 / 4), hints := ["Look up"] }
    let q' := q.withHints ["Look up", "At noon"]
    let log : List Action :=
      [⟨SortedMap.ofList [("answer", "0"), ("-submit", "1")], ⟨1500⟩, none⟩,
        ⟨SortedMap.ofList [("-tryagain", "1")], ⟨2500⟩, none⟩,
        ⟨SortedMap.ofList [("answer", "1"), ("-submit", "1")], ⟨3500⟩, none⟩]
    let history := ((new q "u" 1 none).opened
      ⟨.interactive, SortedMap.empty, ⟨0⟩, none, ⟨0, 0⟩⟩).afterActions log
    let donor : Attempt (Exact .decimal) := { history with question := q' }
    let replayed := Attempt.replay donor ⟨1, 1⟩ (new q' "v" 2 none)
    q.hints.length < Number.max32 ∧
      (∀ x ∈ log, ∀ key ∈ x.vars.keys, isCachedKey key = false) ∧
      replayed.result = .ok () ∧ history.fraction = some (Exact.rational (3 / 4)) ∧
      ∃ first wrong again right, replayed.state.steps = [first, wrong, again, right] ∧
        right.vars.hasBehaviour "_triesleft" = true ∧
        right.vars.behaviour? "_rawfraction" = some "1" ∧
        right.fraction = some (Exact.rational (1 / 2)) := by
  intro q q' log history donor replayed
  have hq : q.hints.length < Number.max32 := by decide
  have hlog : ∀ x ∈ log, ∀ key ∈ x.vars.keys, isCachedKey key = false := by decide
  obtain ⟨hreproduced, hworth⟩ := replay_with_other_hints q hq ["Look up", "At noon"] q' "u" "v"
    1 2 none none ⟨0⟩ none ⟨0, 0⟩ ⟨1, 1⟩ log hlog
  obtain ⟨hok, -⟩ := hreproduced (.inl (by decide +kernel))
  have hhistory : history.fraction = some (Exact.rational (3 / 4)) := by decide +kernel
  have hfractions : replayed.state.steps.map Step.fraction =
      [none, none, none, some (Exact.rational (1 / 2))] := by decide +kernel
  have hcounted : replayed.state.steps.map (fun step => step.vars.hasBehaviour "_triesleft") =
      [true, true, false, true] := by decide +kernel
  have hraw : (replayed.state.steps.map fun step =>
      Scalar.plain (q'.grade step.vars.questionPart).1).getLast? = some "1" := by decide +kernel
  obtain ⟨first, wrong, again, right, hsteps⟩ :
      ∃ first wrong again right, replayed.state.steps = [first, wrong, again, right] :=
    List.length_eq_four.1 (by decide +kernel)
  rw [hsteps] at hfractions hcounted hraw
  simp only [List.map_cons, List.map_nil, List.cons.injEq, and_true] at hfractions hcounted
  obtain ⟨-, -, -, hright⟩ := hfractions
  obtain ⟨-, -, -, hcounts⟩ := hcounted
  have htail : replayed.state.steps.tail = [wrong, again] ++ right :: [] := by
    rw [hsteps]
    rfl
  obtain ⟨hremembers, -, -⟩ := hworth [wrong, again] right [] htail hcounts _ hright
  exact ⟨hq, hlog, hok, hhistory, first, wrong, again, right, hsteps, hcounts,
    hremembers.trans hraw, hright⟩

/-- A hint that is added after the right answer was given at the first try costs a penalty: no try was
counted before it, and it is charged for one. -/
theorem hint_added_costs_penalty :
    let q : Question (Exact .decimal) := .trueFalse
      { TrueFalse.new "q1" "The sky is blue" true with penalty := Exact.rational (1 / 4) }
    let q' := q.withHints ["Look up"]
    let right : Action := ⟨SortedMap.ofList [("answer", "1"), ("-submit", "1")], ⟨1500⟩, none⟩
    let donor := ((new q "u" 1 none).opened
      ⟨.interactive, SortedMap.empty, ⟨0⟩, none, ⟨0, 0⟩⟩).afterActions [right]
    let replayed := Attempt.replay donor ⟨1, 1⟩ (new q' "v" 1 none)
    (∀ key ∈ right.vars.keys, isCachedKey key = false) ∧ replayed.result = .ok () ∧
      ∃ first step, replayed.state.steps = [first, step] ∧
        step.vars.hasBehaviour "_triesleft" = true ∧
        step.fraction = some (Exact.rational (3 / 4)) ∧
        let raw := (q'.grade step.vars.questionPart).1
        raw = Exact.rational 1 ∧
          Scalar.greatest (raw - q'.penalty * Scalar.ofCount 0) (Scalar.least raw 0.0) =
            Exact.rational 1 ∧
          step.fraction ≠ some
            (Scalar.greatest (raw - q'.penalty * Scalar.ofCount 0) (Scalar.least raw 0.0)) := by
  intro q q' right donor replayed
  have hfractions : replayed.state.steps.map Step.fraction =
      [none, some (Exact.rational (3 / 4))] := by decide +kernel
  have hcounted : replayed.state.steps.map (fun step => step.vars.hasBehaviour "_triesleft") =
      [true, true] := by decide +kernel
  have hraw : (replayed.state.steps.map fun step =>
      (q'.grade step.vars.questionPart).1).getLast? = some (Exact.rational 1) := by decide +kernel
  obtain ⟨first, step, hsteps⟩ : ∃ first step, replayed.state.steps = [first, step] :=
    List.length_eq_two.1 (by decide +kernel)
  rw [hsteps] at hfractions hcounted hraw
  simp only [List.map_cons, List.map_nil, List.cons.injEq, and_true] at hfractions hcounted
  have hanswer : (q'.grade step.vars.questionPart).1 = Exact.rational 1 := Option.some.inj hraw
  have hfull : Scalar.greatest (Exact.rational 1 - q'.penalty * Scalar.ofCount 0)
      (Scalar.least (Exact.rational 1) 0.0) = Exact.rational 1 := by decide +kernel
  refine ⟨by decide, by decide +kernel, first, step, hsteps, hcounted.2, hfractions.2, ?_⟩
  simp only [hanswer, hfull, hfractions.2]
  exact ⟨trivial, trivial, by decide +kernel⟩

end Attempt
end Assessment
