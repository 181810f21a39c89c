import Assessment.Proofs.Attempt.Ending
import Assessment.Proofs.Attempt.Replay

/-!
# Resuming an attempt

An attempt can be started where another one stands.  Its first step gets the variables of the first
step of the other, overlaid with the latest response and, under certainty, with the latest certainty
(`Attempt.overlay`, `Attempt.resumeData_eq`).  It is resumed with just these in its turn: what would
be put in is there already, and seeding finds what it has seeded.  So resuming again, any number of
times and on any unstarted attempts, changes nothing (`Attempt.Resumes`).

Main result: an attempt that resumes another one also ends like it (`Attempt.resumed_like_prior`),
unless the behaviour is interactive, where resuming gives the tries back.  The latest response
replaces the fields of the first step one by one and not as a whole, so this asks that the other
attempt was started without an answer.
-/

namespace Assessment

variable {ν : Type}

/-- Putting in the question's part of variables changes nothing about them. -/
lemma Vars.union_questionPart (vars : Vars) : vars.union vars.questionPart = vars := by
  apply SortedMap.ext_get?
  intro key
  rw [SortedMap.get?_union, questionPart, SortedMap.get?_filter]
  cases vars.get? key with
  | none => rfl
  | some value =>
    show ((some value).filter fun _ => !isBehaviourKey key).or (some value) = some value
    cases isBehaviourKey key <;> rfl

/-- Variables with all that a question remembers have it when others are put in. -/
lemma Question.isSeeded_mono {q : Question ν} {vars vars' : Vars} (h : q.isSeeded vars = true)
    (hmono : ∀ key, (vars.get? key).isSome = true → (vars'.get? key).isSome = true) :
    q.isSeeded vars' = true := by
  cases q with
  | multiChoice q => exact hmono _ h
  | _ => rfl

/-- Variables with all that a behaviour remembers have it when others are put in. -/
lemma Behaviour.isSeeded_mono {b : Behaviour} {vars vars' : Vars} (h : b.isSeeded vars = true)
    (hmono : ∀ key, (vars.get? key).isSome = true → (vars'.get? key).isSome = true) :
    b.isSeeded vars' = true := by
  cases b with
  | interactive | adaptive preferred => exact hmono _ h
  | _ => rfl

namespace Attempt

/-! ## The overlay -/

/-- The variables of a first step with the latest response and the behaviour's part put in. -/
def overlay (a : Attempt ν) (b : Behaviour) (vars : Vars) : Vars :=
  Vars.withBehaviour (vars.union a.response) (b.resumeVars a)

/-- An attempt is resumed with the overlay on its first step. -/
lemma resumeData_eq {a : Attempt ν} {b : Behaviour} {first : Step ν} {later : List (Step ν)}
    (hb : a.behaviour = some b) (hs : a.steps = first :: later) :
    a.resumeData = .ok (a.overlay b first.vars) := by
  have hfirst : a.step? 0 = .ok first := by
    rw [step?, hs]
    rfl
  rw [resumeData, behaviourOr, hb]
  show b.resumeData a = _
  rw [Behaviour.resumeData, hfirst]
  rfl

/-- Besides the response the overlay puts in the latest certainty, under certainty and if one was
said. -/
lemma overlay_cases (a : Attempt ν) (b : Behaviour) (vars : Vars) :
    (a.overlay b vars = vars.union a.response ∧
        (b = .certainty → a.behaviour? "certainty" = none)) ∨
      ∃ value, b = .certainty ∧ a.behaviour? "certainty" = some value ∧
        a.overlay b vars = (vars.union a.response).insert (Owner.behaviour.key "certainty") value := by
  cases b with
  | certainty =>
    cases hsaid : a.behaviour? "certainty" with
    | none => exact .inl ⟨by rw [overlay, Behaviour.resumeVars, hsaid]; rfl, fun _ => rfl⟩
    | some value =>
      exact .inr ⟨value, rfl, rfl, by rw [overlay, Behaviour.resumeVars, hsaid]; rfl⟩
  | _ => exact .inl ⟨rfl, fun h => by cases h⟩

/-- The overlay has every variable of the first step. -/
lemma isSome_overlay (a : Attempt ν) (b : Behaviour) {vars : Vars} (key : String)
    (h : (vars.get? key).isSome = true) : ((a.overlay b vars).get? key).isSome = true := by
  have hunion : ((vars.union a.response).get? key).isSome = true := by
    rw [SortedMap.get?_union, Option.isSome_or, h, Bool.or_true]
  obtain ⟨hdata, -⟩ | ⟨value, -, -, hdata⟩ := a.overlay_cases b vars
  · rwa [hdata]
  · rw [hdata, SortedMap.get?_insert]
    split
    · rfl
    · exact hunion

/-- The answer in the overlay is the latest one, and that of the first step if the latest response has
none. -/
lemma get?_overlay_answerField (a : Attempt ν) (b : Behaviour) (vars : Vars) :
    (a.overlay b vars).get? answerField =
      (a.response.get? answerField).or (vars.get? answerField) := by
  rw [← SortedMap.get?_union]
  obtain ⟨hdata, -⟩ | ⟨value, -, -, hdata⟩ := a.overlay_cases b vars
  · rw [hdata]
  · rw [hdata, SortedMap.get?_insert_of_ne _ (by decide)]

/-- A response holds nothing of the behaviour's. -/
lemma get?_response_of_isBehaviourKey (a : Attempt ν) {key : String} (h : isBehaviourKey key = true) :
    a.response.get? key = none := by
  cases hvalue : a.response.get? key with
  | none => rfl
  | some value =>
    exfalso
    rw [response] at hvalue
    cases hfind : (a.latestFirst.map fun step => step.vars.questionPart).find?
        (fun vars => !vars.isEmpty) with
    | none => rw [hfind] at hvalue; cases hvalue
    | some vars =>
      rw [hfind, Option.getD_some] at hvalue
      obtain ⟨step, -, rfl⟩ := List.mem_map.1 (List.mem_of_find?_eq_some hfind)
      have hkey := (Vars.get?_of_get?_questionPart hvalue).1
      rw [h] at hkey
      cases hkey

/-- The certainty in the overlay on the first step is the latest one. -/
lemma behaviour?_overlay {a : Attempt ν} {first : Step ν} {later : List (Step ν)}
    (hs : a.steps = first :: later) :
    (a.overlay .certainty first.vars).behaviour? "certainty" = a.behaviour? "certainty" := by
  obtain ⟨hdata, hnone⟩ | ⟨value, -, hvalue, hdata⟩ := a.overlay_cases .certainty first.vars
  · have hfirst : first.vars.behaviour? "certainty" = none :=
      List.findSome?_eq_none_iff.1 (hnone rfl) first (by simp [latestFirst, hs])
    rw [hdata, Vars.behaviour?, SortedMap.get?_union, a.get?_response_of_isBehaviourKey (by decide),
      Option.none_or, hnone rfl]
    exact hfirst
  · rw [hdata, hvalue]
    exact SortedMap.get?_insert_self _ _ _

/-- On an attempt with one step the overlay changes nothing. -/
lemma overlay_of_singleton (a : Attempt ν) (b : Behaviour) {first : Step ν} (hs : a.steps = [first]) :
    a.overlay b first.vars = first.vars := by
  have hsaid : a.behaviour? "certainty" = first.vars.behaviour? "certainty" := by
    rw [behaviour?, latestFirst, hs]
    cases hvalue : first.vars.behaviour? "certainty" <;> simp [hvalue]
  obtain ⟨hdata, -⟩ | ⟨value, -, hvalue, hdata⟩ := a.overlay_cases b first.vars
  · rw [hdata, response_of_singleton hs, Vars.union_questionPart]
  · rw [hdata, response_of_singleton hs, Vars.union_questionPart]
    exact SortedMap.insert_of_get? (hsaid.symm.trans hvalue)

/-! ## One resumption -/

/-- An attempt at a question under a behaviour that is resumed with these variables, and neither the
question nor the behaviour has anything to add to them. -/
structure Resumable (a : Attempt ν) (q : Question ν) (b : Behaviour) (vars : Vars) : Prop where
  question : a.question = q
  behaviour : a.behaviour = some b
  data : a.resumeData = .ok vars
  questionSeeded : q.isSeeded vars = true
  behaviourSeeded : b.isSeeded vars = true

/-- An open attempt that gives the answer in these variables and, under certainty, has the certainty in
them as the latest one.  How it ends is settled by the variables. -/
structure EndsAs (a : Attempt ν) (q : Question ν) (b : Behaviour) (vars : Vars) : Prop extends
    a.AnswersAs q b vars.questionPart where
  certainty : b = .certainty → a.behaviour? "certainty" = vars.behaviour? "certainty"

/-- An open attempt with one step ends as this step says. -/
lemma EndsAs.of_singleton {a : Attempt ν} {q : Question ν} {b : Behaviour} {first : Step ν}
    (hq : a.question = q) (hb : a.behaviour = some b) (hs : a.steps = [first])
    (hopen : a.state.isFinished = false) : a.EndsAs q b first.vars := by
  refine ⟨⟨hq, hb, hopen, ?_⟩, ?_⟩
  · rw [response_of_singleton hs]
    exact .refl q _
  · rintro rfl
    rw [← behaviour?_overlay hs, a.overlay_of_singleton .certainty hs]

variable [Scalar ν]

/-- Starting an attempt without steps where another one stands. -/
lemma startFrom_of_resumable {a host : Attempt ν} {q : Question ν} {b : Behaviour} {vars : Vars}
    (ha : a.Resumable q b vars) (hq : host.question = q) (hs : host.steps = []) (time : Instant)
    (actor : Option String) (draw : Draw) :
    let resumed := startFrom a time actor draw host
    resumed.result = .ok () ∧ (∃ first, resumed.state.steps = [first] ∧ first.vars = vars) ∧
      resumed.state.Resumable q b vars ∧ resumed.state.EndsAs q b vars := by
  intro resumed
  have hempty : host.steps.isEmpty = true := by simp [hs]
  have hstart : resumed = start b vars time actor draw host := by
    simp only [resumed, startFrom, ha.behaviour, ha.data]
  have hresult : resumed.result = .ok () := by simp only [hstart, start, hempty, if_true]
  have hquestion : resumed.state.question = q := by
    simpa only [hstart, start, hempty, if_true, record] using hq
  have hbehaviour : resumed.state.behaviour = some b := by
    simp only [hstart, start, hempty, if_true, record]
  -- seeding has nothing to add
  have hfirst : host.firstDraft b vars time actor draw =
      (Draft.new vars time actor).withState .todo := by
    rw [firstDraft, hq, Question.seed_of_isSeeded ha.questionSeeded,
      Behaviour.seed_of_isSeeded ha.behaviourSeeded]
  obtain ⟨first, hsteps, hvars, hstate⟩ :
      ∃ first, resumed.state.steps = [first] ∧ first.vars = vars ∧ first.state = .todo := by
    simp only [hstart, start, hfirst, record, hs, List.nil_append]
    exact ⟨_, rfl, rfl, rfl⟩
  have hopen : resumed.state.state.isFinished = false := by
    rw [state, last?, hsteps]
    exact congrArg State.isFinished hstate
  have hdata : resumed.state.resumeData = .ok vars := by
    rw [resumeData_eq hbehaviour hsteps, overlay_of_singleton _ b hsteps, hvars]
  exact ⟨hresult, ⟨first, hsteps, hvars⟩,
    ⟨hquestion, hbehaviour, hdata, ha.questionSeeded, ha.behaviourSeeded⟩,
    hvars ▸ .of_singleton hquestion hbehaviour hsteps hopen⟩

/-- Attempts that end as the same step end alike. -/
lemma EndsAs.finish_eq {a a' : Attempt ν} {q : Question ν} {b : Behaviour} {vars : Vars}
    (ha : a.EndsAs q b vars) (ha' : a'.EndsAs q b vars) (hb : b ≠ .interactive)
    (hmissing : ∀ storedName, b ≠ .missing storedName) (time time' : Instant)
    (actor actor' : Option String) :
    let ended := finish time actor a
    let ended' := finish time' actor' a'
    ended.result = .ok .kept ∧ ended'.result = .ok .kept ∧
      ended'.state.state = ended.state.state ∧ ended'.state.fraction = ended.state.fraction := by
  intro ended ended'
  obtain ⟨hkept, hstate, hfraction, -⟩ := ha.ends hmissing time actor
  obtain ⟨hkept', hstate', hfraction', -⟩ := ha'.ends hmissing time' actor'
  have hending : b.ending a vars.questionPart = b.ending a' vars.questionPart := by
    cases b with
    | certainty =>
      simp only [Behaviour.ending, Behaviour.earned, ha.question, ha'.question, ha.certainty rfl,
        ha'.certainty rfl]
    | interactive => exact absurd rfl hb
    | _ => simp only [Behaviour.ending, Behaviour.earned, ha.question, ha'.question]
  exact ⟨hkept, hkept', by rw [hstate', hstate, hending], by rw [hfraction', hfraction, hending]⟩

/-! ## Resuming again and again -/

/-- The attempts that come of one by resuming: the attempt itself, and any attempt at the question
without steps that was started where one of them stands. -/
inductive Resumes (q : Question ν) (prior : Attempt ν) : Attempt ν → Prop
  | prior : Resumes q prior prior
  | resumed {a : Attempt ν} (ha : Resumes q prior a) (host : Attempt ν) (hq : host.question = q)
    (hs : host.steps = []) (time : Instant) (actor : Option String) (draw : Draw) :
    Resumes q prior (startFrom a time actor draw host).state

namespace Resumes

variable {prior a : Attempt ν} {q : Question ν} {b : Behaviour} {vars : Vars}

/-- Whatever comes of an attempt by resuming is resumed with the same variables. -/
lemma resumable (h : Resumes q prior a) (hprior : prior.Resumable q b vars) :
    a.Resumable q b vars := by
  induction h with
  | prior => exact hprior
  | resumed _ host hq hs time actor draw ih =>
    exact (startFrom_of_resumable ih hq hs time actor draw).2.2.1

/-- Whatever comes of an attempt by resuming ends as it does. -/
lemma endsAs (h : Resumes q prior a) (hprior : prior.Resumable q b vars)
    (hends : prior.EndsAs q b vars) : a.EndsAs q b vars := by
  cases h with
  | prior => exact hends
  | resumed ha host hq hs time actor draw =>
    exact (startFrom_of_resumable (ha.resumable hprior) hq hs time actor draw).2.2.2

end Resumes

/-! ## Attempts with a history -/

/-- An attempt that was started and sent any actions: its first step is the one that it was started
with, and it is resumed with the overlay on this step. -/
lemma exists_overlay (q : Question ν) (usageId : String) (slot : Nat) (maxMark : Option ν)
    (o : Opening) (log : List Action) :
    let a := ((new q usageId slot maxMark).opened o).afterActions log
    ∃ first later, a.steps = first :: later ∧
      first.vars.get? answerField = o.vars.get? answerField ∧
      a.Resumable q o.behaviour (a.overlay o.behaviour first.vars) := by
  intro a
  have hfresh := isFresh_new q usageId slot maxMark
  have hopened := isOpened_opened hfresh o
  obtain ⟨first, hfirst, hvars⟩ := exists_first_vars hfresh o
  obtain ⟨-, later, hlater, -⟩ := afterActions_frame ((new q usageId slot maxMark).opened o) log
  have hsteps : a.steps = first :: later := by rw [hlater, hfirst, List.singleton_append]
  have hq : a.question = q := (question_afterActions _ log).trans hopened.question
  have hb : a.behaviour = some o.behaviour :=
    (behaviour_afterActions _ log).trans hopened.behaviour
  have hquestion : q.isSeeded first.vars = true := by
    rw [hvars]
    exact Question.isSeeded_behaviourSeed (q.isSeeded_seed o.draw o.vars) o.behaviour _ o.draw
  have hbehaviour : o.behaviour.isSeeded first.vars = true := by
    rw [hvars]
    exact o.behaviour.isSeeded_seed _ o.draw _
  refine ⟨first, later, hsteps, ?_, hq, hb, resumeData_eq hb hsteps,
    Question.isSeeded_mono hquestion (a.isSome_overlay o.behaviour),
    Behaviour.isSeeded_mono hbehaviour (a.isSome_overlay o.behaviour)⟩
  rw [← Vars.get?_submitted _ (by decide), hvars, submitted_firstVars,
    Vars.get?_submitted _ (by decide)]

/-- Starting where another attempt stands resumes it.  Start an attempt at any question, under any
behaviour and with any data, send it any actions, and take whatever comes of it by resuming, itself
included.  All of it is resumed with the same variables: starting any attempt without steps at the
same question from there succeeds, its only step has exactly these variables, and it is resumed with
them in its turn.  If the attempt was started without an answer and is still open, then under every
behaviour but the interactive and the missing one all of it ends in the same state with the same
fraction when it is finished. -/
theorem resumed_like_prior (q : Question ν) (usageId : String) (slot : Nat) (maxMark : Option ν)
    (o : Opening) (log : List Action) :
    let prior := ((new q usageId slot maxMark).opened o).afterActions log
    ∃ vars, prior.resumeData = .ok vars ∧ ∀ a, Resumes q prior a →
      (∀ host : Attempt ν, host.question = q → host.steps = [] →
        ∀ (time : Instant) (actor : Option String) (draw : Draw),
          let resumed := startFrom a time actor draw host
          resumed.result = .ok () ∧ (∃ first, resumed.state.steps = [first] ∧ first.vars = vars) ∧
            resumed.state.behaviour = some o.behaviour ∧ resumed.state.resumeData = .ok vars) ∧
      (o.vars.get? answerField = none → prior.state.isFinished = false →
        o.behaviour ≠ .interactive → (∀ storedName, o.behaviour ≠ .missing storedName) →
        ∀ (time time' : Instant) (actor actor' : Option String),
          let ended := finish time actor prior
          let ended' := finish time' actor' a
          ended.result = .ok .kept ∧ ended'.result = .ok .kept ∧
            ended'.state.state = ended.state.state ∧
            ended'.state.fraction = ended.state.fraction) := by
  intro prior
  obtain ⟨first, later, hsteps, hanswer, hprior⟩ := exists_overlay q usageId slot maxMark o log
  refine ⟨_, hprior.data, fun a ha => ⟨fun host hq hs time actor draw => ?_, ?_⟩⟩
  · obtain ⟨hresult, hfirst, hresumable, -⟩ :=
      startFrom_of_resumable (ha.resumable hprior) hq hs time actor draw
    exact ⟨hresult, hfirst, hresumable.behaviour, hresumable.data⟩
  · intro hvars hopen hb hmissing time time' actor actor'
    have hends : prior.EndsAs q o.behaviour (prior.overlay o.behaviour first.vars) := by
      refine ⟨⟨hprior.question, hprior.behaviour, hopen, Question.sameAnswer_of_get? q ?_⟩,
        fun hcertainty => ?_⟩
      · rw [Vars.get?_questionPart _ (by decide), get?_overlay_answerField, hanswer, hvars,
          Option.or_none]
      · rw [hcertainty, behaviour?_overlay hsteps]
    exact hends.finish_eq (ha.endsAs hprior hends) hb hmissing time time' actor actor'

/-- A shuffled question under certainty, answered twice and the second time without a certainty.  An
attempt that resumes the one that resumes it shows the answers in the order of the first and ends like
it. -/
theorem resumed_like_prior_twice :
    let q : Question Float := .multiChoice
      { MultiChoice.new "q1" "Pick the prime"
          [⟨"Four", 0.0, none⟩, ⟨"Five", 1.0, none⟩, ⟨"Six", 0.0, none⟩] with shuffle := true }
    let o : Opening := ⟨.certainty, SortedMap.empty, ⟨0⟩, none, ⟨1, 1⟩⟩
    let log : List Action :=
      [⟨SortedMap.ofList [("answer", "0"), ("-certainty", "3")], ⟨1500⟩, some "ada"⟩,
        ⟨SortedMap.ofList [("answer", "1")], ⟨2500⟩, some "ada"⟩]
    let prior := ((new q "u" 1 none).opened o).afterActions log
    let between := (startFrom prior ⟨3500⟩ (some "ada") ⟨2, 2⟩ (new q "v" 1 none)).state
    let a := (startFrom between ⟨4500⟩ (some "ada") ⟨3, 3⟩ (new q "w" 1 none)).state
    o.vars.get? answerField = none ∧ prior.state.isFinished = false ∧
      a.resumeData = prior.resumeData ∧
      a.question? "_order" = prior.question? "_order" ∧
      (finish ⟨5500⟩ (some "ada") a).state.state =
        (finish ⟨5500⟩ (some "ada") prior).state.state ∧
      (finish ⟨5500⟩ (some "ada") a).state.fraction =
        (finish ⟨5500⟩ (some "ada") prior).state.fraction := by
  intro q o log prior between a
  have hopen : prior.state.isFinished = false := by decide +kernel
  obtain ⟨vars, hdata, hall⟩ := resumed_like_prior q "u" 1 none o log
  have hbetween : Resumes q prior between :=
    .resumed .prior (new q "v" 1 none) rfl rfl ⟨3500⟩ (some "ada") ⟨2, 2⟩
  have ha : Resumes q prior a :=
    .resumed hbetween (new q "w" 1 none) rfl rfl ⟨4500⟩ (some "ada") ⟨3, 3⟩
  obtain ⟨-, -, -, hresumed⟩ :=
    (hall between hbetween).1 (new q "w" 1 none) rfl rfl ⟨4500⟩ (some "ada") ⟨3, 3⟩
  obtain ⟨-, -, hstate, hfraction⟩ := (hall a ha).2 rfl hopen (by simp [o]) (by simp [o]) ⟨5500⟩ ⟨5500⟩
    (some "ada") (some "ada")
  exact ⟨rfl, hopen, hresumed.trans hdata.symm, by decide +kernel, hstate, hfraction⟩

/-- An essay that was started with a text and then got a field beside it: the latest response has no
text, but the resumed attempt has. -/
example :
    let q : Question Float := .essay (Essay.new "q1" "Why is the sky blue?")
    let o : Opening := ⟨.manual, SortedMap.ofList [("answer", "Rayleigh")], ⟨0⟩, none, ⟨0, 0⟩⟩
    let prior := ((new q "u" 1 none).opened o).afterActions
      [⟨SortedMap.ofList [("attachments", "1")], ⟨1500⟩, some "ada"⟩]
    let resumed := (startFrom prior ⟨2500⟩ (some "ada") ⟨0, 0⟩ (new q "v" 1 none)).state
    (finish ⟨3500⟩ (some "ada") prior).state.state = .gaveUp ∧
      (finish ⟨3500⟩ (some "ada") resumed).state.state = .needsGrading := by
  decide +kernel

end Attempt
end Assessment
