import Assessment.Proofs.Attempt.Replay
import Assessment.Proofs.Data.SortedMap

/-!
# Histories that a replay reproduces

`Attempt.replay_reproduces` is about an attempt that is opened and then sent actions.  An attempt of a
usage has been through more.  Its steps have been given ids, which a replay does not give back; it was
stored and loaded, so that its behaviour was made anew from its name; it may be the result of a replay
itself.  `Attempt.recast` leaves out what does not matter of this: the ids of the steps, and which
usage the behaviour was made for.  No ruling looks at either (`Behaviour.rule_recast`).

An attempt is *reproducible* (`Attempt.Reproducible`) when its question is the one in the bank, its
behaviour can replay, and its history is replayed in any other place and for any usage.  The last part
only has to hold while the marks that were given are absolute: a history with other marks is not
reproduced out of other marks, and what comes of replaying it is a history in its own right.  Starting
makes an attempt reproducible, an action without cached variables of its own keeps it so, and hence a
replay makes the fresh attempt so whatever the history is that is replayed
(`Attempt.Reproducible.replay`).
-/

namespace Assessment

variable {ν : Type}

/-! ## What a replay does not look at -/

/-- The behaviour as it is made for a usage that prefers `preferred`. -/
def Behaviour.under (preferred : String) : Behaviour → Behaviour
  | adaptive _ => adaptive preferred
  | b => b

/-- The step without its id. -/
def Step.unnumbered (s : Step ν) : Step ν := { s with id := none }

namespace Attempt

/-- The attempt without the ids of its steps. -/
def unnumbered (a : Attempt ν) : Attempt ν := { a with steps := a.steps.map Step.unnumbered }

/-- The attempt without the ids of its steps, under the behaviour of a usage that prefers
`preferred`. -/
def recast (preferred : String) (a : Attempt ν) : Attempt ν :=
  { a.unnumbered with behaviour := a.behaviour.map (Behaviour.under preferred) }

end Attempt

namespace Behaviour

@[simp] lemma canRegrade_under (p : String) (b : Behaviour) :
    (b.under p).canRegrade = b.canRegrade := by
  cases b <;> rfl

@[simp] lemma under_under (p p' : String) (b : Behaviour) : (b.under p').under p = b.under p := by
  cases b <;> rfl

/-- A behaviour was made for some usage. -/
lemma exists_under (b : Behaviour) : ∃ p, b.under p = b := by
  cases b with
  | adaptive preferred => exact ⟨preferred, rfl⟩
  | _ => exact ⟨"", rfl⟩

@[simp] lemma takesComment_under (p : String) (b : Behaviour) (vars : Vars) :
    (b.under p).takesComment vars = b.takesComment vars := by
  cases b <;> rfl

@[simp] lemma isSeeded_under (p : String) (b : Behaviour) (vars : Vars) :
    (b.under p).isSeeded vars = b.isSeeded vars := by
  cases b <;> rfl

@[simp] lemma minFraction_under [Scalar ν] (p : String) (b : Behaviour) (q : Question ν) :
    (b.under p).minFraction q = b.minFraction q := by
  cases b <;> rfl

/-- A behaviour that can replay is made anew from its name. -/
lemma makeOrMissing_name {b : Behaviour} (h : b.canRegrade = true) (p : String) :
    Registry.standard.makeOrMissing b.name p = b.under p := by
  have hget : Registry.standard.get? "adaptive" = some .adaptive := by decide
  cases b with
  | missing storedName => cases h
  | adaptive preferred => simp [Registry.makeOrMissing, name, hget, Factory.make, under]
  | _ => rfl

end Behaviour

namespace Attempt

variable (p : String) (a : Attempt ν)

@[simp] lemma last?_recast : (a.recast p).last? = a.last?.map Step.unnumbered :=
  List.getLast?_map

@[simp] lemma state_recast : (a.recast p).state = a.state := by
  unfold state
  rw [last?_recast]
  cases a.last? <;> rfl

@[simp] lemma fraction_recast : (a.recast p).fraction = a.fraction := by
  unfold fraction
  rw [last?_recast]
  cases a.last? <;> rfl

lemma latestFirst_recast : (a.recast p).latestFirst = a.latestFirst.map Step.unnumbered :=
  List.map_reverse.symm

@[simp] lemma response_recast : (a.recast p).response = a.response := by
  simp only [response, latestFirst_recast, List.map_map]
  rfl

@[simp] lemma behaviour?_recast (name : String) :
    (a.recast p).behaviour? name = a.behaviour? name := by
  simp only [behaviour?, latestFirst_recast, List.findSome?_map]
  rfl

@[simp] lemma length_steps_recast : (a.recast p).steps.length = a.steps.length :=
  List.length_map _

@[simp] lemma question_recast : (a.recast p).question = a.question := rfl

end Attempt

/-! ## Rulings do not look at it -/

section Recast

variable (p : String) (a : Attempt ν) (d : Draft ν)

lemma Sameness.holds_recast (s : Sameness) : s.holds (a.recast p) d = s.holds a d := by
  cases s with
  | never => rfl
  | byAnswer => simp only [holds, Attempt.question_recast, Attempt.response_recast]
  | bySubmission forcing =>
    simp only [holds, Attempt.last?_recast]
    cases a.last? <;> rfl

lemma Behaviour.isSame_recast [Scalar ν] (b : Behaviour) :
    (b.under p).isSame (a.recast p) d = b.isSame a d := by
  cases b <;> simp only [under, isSame, sameness, Certainty.isSame, Sameness.holds_recast,
    Attempt.behaviour?_recast]

lemma Ruling.save_recast (isSame : Bool) : save isSame (a.recast p) d = save isSame a d := by
  simp only [save, Attempt.state_recast]
  rfl

lemma Certainty.save_recast [Scalar ν] : save (a.recast p) d = save a d := by
  have hsame : isSame (a.recast p) d = isSame a d := Behaviour.isSame_recast p a d .certainty
  simp only [save, Ruling.save_recast, hsame]

namespace Interactive

lemma awaitsRetry_recast : awaitsRetry (a.recast p) = awaitsRetry a := by
  simp only [awaitsRetry, Attempt.state_recast, Attempt.last?_recast]
  cases a.last? <;> rfl

lemma triesLeft_recast : triesLeft (a.recast p) = triesLeft a := by
  simp only [triesLeft, Attempt.behaviour?_recast]
  rfl

lemma save_recast : save (a.recast p) d = save a d := by
  simp only [save, awaitsRetry_recast, Sameness.holds_recast, Ruling.save_recast]

end Interactive

variable [Scalar ν]

lemma Ruling.gradeLatest_recast : gradeLatest (a.recast p) d = gradeLatest a d := by
  simp only [gradeLatest, Attempt.state_recast, Attempt.response_recast]
  rfl

lemma Ruling.comment_recast : comment (a.recast p) d = comment a d := by
  simp only [comment, Attempt.state_recast, Attempt.fraction_recast]
  rfl

lemma Certainty.submit_recast : submit (a.recast p) d = submit a d := by
  simp only [submit, Attempt.state_recast]
  rfl

lemma Certainty.finish_recast : finish (a.recast p) d = finish a d := by
  simp only [finish, Attempt.state_recast, Attempt.response_recast, Attempt.behaviour?_recast]
  rfl

namespace Interactive

lemma submit_recast : submit (a.recast p) d = submit a d := by
  simp only [submit, Attempt.state_recast, awaitsRetry_recast, triesLeft_recast,
    Sameness.holds_recast]
  rfl

lemma finish_recast : finish (a.recast p) d = finish a d := by
  simp only [finish, Attempt.state_recast, Attempt.response_recast, triesLeft_recast]
  rfl

end Interactive

lemma Adaptive.submit_recast : submit (a.recast p) d = submit a d := by
  simp only [submit, Attempt.state_recast, Attempt.length_steps_recast, Sameness.holds_recast]
  rfl

namespace Behaviour

variable (b : Behaviour)

lemma onSave_recast : (b.under p).onSave (a.recast p) d = b.onSave a d := by
  have hsame := isSame_recast p a d b
  cases b with
  | certainty => exact Certainty.save_recast p a d
  | interactive => exact Interactive.save_recast p a d
  | _ => simp only [under, onSave, Ruling.save_recast] at hsame ⊢; rw [hsame]

lemma onFinish_recast : (b.under p).onFinish (a.recast p) d = b.onFinish a d := by
  cases b with
  | deferred => exact Ruling.gradeLatest_recast p a d
  | immediate => exact Ruling.gradeLatest_recast p a d
  | certainty => exact Certainty.finish_recast p a d
  | interactive => exact Interactive.finish_recast p a d
  | manual =>
    simp only [under, onFinish, Attempt.state_recast, Attempt.response_recast]
    rfl
  | information => simp only [under, onFinish, Attempt.state_recast]
  | adaptive preferred => simp only [under, onFinish, Adaptive.finish, Attempt.state_recast]
  | missing storedName => rfl

lemma onComment_recast : (b.under p).onComment (a.recast p) d = b.onComment a d := by
  cases b <;> simp only [under, onComment, Ruling.comment_recast]

/-- No ruling looks at the ids of steps, or at the usage that the behaviour was made for. -/
theorem rule_recast : (b.under p).rule (a.recast p) d = b.rule a d := by
  have hsave := b.onSave_recast p a d
  have hfinish := b.onFinish_recast p a d
  have hcomment := b.onComment_recast p a d
  have hsubmit : onSubmit (a.recast p) d = onSubmit a d := by
    simp only [onSubmit, Attempt.state_recast]
    rfl
  have hseen : onSeen (a.recast p) d = onSeen a d := by simp only [onSeen, Attempt.state_recast]
  have hretry : Interactive.retry (a.recast p) d = Interactive.retry a d := by
    simp only [Interactive.retry, Interactive.awaitsRetry_recast]
  cases b <;> simp only [under] at hsave hfinish hcomment <;>
    simp only [under, rule, hsave, hfinish, hcomment, hsubmit, hseen, hretry,
      Certainty.submit_recast, Interactive.submit_recast, Adaptive.submit_recast]

end Behaviour
end Recast

/-! ## Reproducible attempts -/

lemma Vars.not_isCachedKey_submitted (vars : Vars) :
    ∀ key ∈ vars.submitted.keys, isCachedKey key = false := by
  intro key hkey
  obtain ⟨value, hvalue⟩ := SortedMap.mem_keys_iff.1 hkey
  rw [submitted, SortedMap.get?_filter, Option.filter_eq_some_iff] at hvalue
  simpa using hvalue.2

namespace Attempt

variable {a a' host : Attempt ν} {p : String}

lemma marksAreAbsolute_recast : (a.recast p).MarksAreAbsolute ↔ a.MarksAreAbsolute := by
  have htail : (a.recast p).steps.tail = a.steps.tail.map Step.unnumbered := List.map_tail.symm
  constructor
  · intro h b hb step hstep
    have habs := h (b.under p) (by simp [recast, hb]) step.unnumbered
      (htail ▸ List.mem_map.2 ⟨step, hstep, rfl⟩)
    rwa [Behaviour.takesComment_under] at habs
  · intro h b hb step hstep
    obtain ⟨b, hb', rfl⟩ := Option.map_eq_some_iff.1 hb
    obtain ⟨step, hstep', rfl⟩ := List.mem_map.1 (htail ▸ hstep)
    rw [Behaviour.takesComment_under]
    exact h b hb' step hstep'

lemma recast_keep (a : Attempt ν) (d : Draft ν) (p : String) :
    (a.keep d).recast p = (a.recast p).keep d := by
  simp [recast, unnumbered, keep, record, Draft.record, Step.unnumbered]

/-- A replay does not look at the ids of steps. -/
lemma replay_unnumbered [Scalar ν] (donor : Attempt ν) (draw : Draw) :
    replay donor.unnumbered draw = replay donor draw := by
  have hrest : ∀ rest : List (Step ν), Op.forEach replayStep (rest.map Step.unnumbered) =
      Op.forEach replayStep rest := by
    intro rest
    induction rest with
    | nil => rfl
    | cons step rest ih =>
      rw [List.map_cons, Op.forEach_cons, Op.forEach_cons, ih]
      rfl
  cases hb : donor.behaviour with
  | none => simp [replay, unnumbered, hb]
  | some b =>
    cases hs : donor.steps with
    | nil => simp [replay, unnumbered, hb, hs]
    | cons first rest => simp [replay, unnumbered, hb, hs, hrest, Step.unnumbered]

/-- An attempt at a question of the bank whose history is replayed in any place and for any usage,
as long as the marks that were given in it are absolute. -/
structure Reproducible [Scalar ν] (questions : SortedMap String (Question ν)) (a : Attempt ν) :
    Prop where
  question : questions.get? a.question.id = some a.question
  behaviour : ∀ b, a.behaviour = some b → b.canRegrade = true
  started : a.behaviour.isSome = true ↔ a.steps ≠ []
  fresh : a.steps = [] → a.responseSummary = none
  replays : a.steps ≠ [] → a.MarksAreAbsolute → ∀ (p : String) (host : Attempt ν),
    host.IsFresh a.question → (a.recast p).Replays host

namespace Reproducible

variable [Scalar ν] {questions : SortedMap String (Question ν)}

/-- An attempt that was not started is reproducible. -/
lemma of_new {question : Question ν} (h : questions.get? question.id = some question)
    (usageId : String) (slot : Nat) (maxMark : Option ν) :
    (Attempt.new question usageId slot maxMark).Reproducible questions :=
  ⟨h, fun b hb => (by cases hb), by simp [Attempt.new], fun _ => rfl, fun hne => absurd rfl hne⟩

/-- The place of an attempt does not matter. -/
lemma congr (h : a.Reproducible questions)
    (hsame : ∀ p, a'.recast p = (a.recast p).inPlaceOf a') : a'.Reproducible questions := by
  obtain ⟨hquestion, hbehaviour, hsteps, hresponse⟩ :
      a'.question = a.question ∧
      a'.behaviour.map (Behaviour.under "") = a.behaviour.map (Behaviour.under "") ∧
      a'.steps.map Step.unnumbered = a.steps.map Step.unnumbered ∧
      a'.responseSummary = a.responseSummary := by
    have hrecast := hsame ""
    simp only [recast, unnumbered, inPlaceOf, Attempt.mk.injEq] at hrecast
    tauto
  have hnil : a'.steps = [] ↔ a.steps = [] := by
    rw [← List.map_eq_nil_iff (f := Step.unnumbered), hsteps, List.map_eq_nil_iff]
  refine ⟨hquestion ▸ h.question, fun b hb => ?_, ?_, fun hempty => ?_, ?_⟩
  · rw [hb, Option.map_some, eq_comm, Option.map_eq_some_iff] at hbehaviour
    obtain ⟨b', hb', hunder⟩ := hbehaviour
    rw [← Behaviour.canRegrade_under "" b, ← hunder, Behaviour.canRegrade_under]
    exact h.behaviour b' hb'
  · rw [Ne, hnil, ← Ne, ← h.started, ← Option.isSome_map (f := Behaviour.under ""), hbehaviour,
      Option.isSome_map]
  · exact hresponse.trans (h.fresh (hnil.1 hempty))
  · intro hne habsolute p host hhost
    have habsolute' : a.MarksAreAbsolute := by
      rw [← marksAreAbsolute_recast (p := p)] at habsolute ⊢
      rw [hsame p] at habsolute
      exact habsolute
    rw [hsame p]
    exact h.replays (fun hempty => hne (hnil.2 hempty)) habsolute' p host (hquestion ▸ hhost)

lemma observedBy (h : a.Reproducible questions) (o : Observer) :
    (a.observedBy o).Reproducible questions := h.congr fun _ => rfl

/-- Starting makes an attempt reproducible. -/
lemma start (h : a.Reproducible questions) {b : Behaviour} (hb : b.canRegrade = true) (vars : Vars)
    (time : Instant) (actor : Option String) (draw : Draw) :
    (Attempt.start b vars time actor draw a).state.Reproducible questions := by
  by_cases hempty : a.steps = []
  · have ha : a.IsFresh a.question := ⟨rfl, hempty, h.fresh hempty⟩
    have hstate := (start_of_isFresh ha b vars time actor draw).2
    have hsteps : (Attempt.start b vars time actor draw a).state.steps ≠ [] := by
      rw [hstate]
      simp [record]
    have hquestion : (Attempt.start b vars time actor draw a).state.question = a.question := by
      rw [hstate]
      rfl
    have hbehaviour : (Attempt.start b vars time actor draw a).state.behaviour = some b := by
      rw [hstate]
      rfl
    refine ⟨hquestion ▸ h.question, fun b' hb' => ?_, by simp [hbehaviour, hsteps],
      fun hnil => absurd hnil hsteps, fun _ _ p host hhost => ?_⟩
    · obtain rfl := Option.some.inj (hbehaviour.symm.trans hb')
      exact hb
    · -- for another usage the attempt is opened with what the first step remembers
      have hq : a.question.isSeeded (a.firstVars b draw vars) = true :=
        Question.isSeeded_behaviourSeed (a.question.isSeeded_seed draw vars) b a draw
      have hb' : (b.under p).isSeeded (a.firstVars b draw vars) = true := by
        rw [Behaviour.isSeeded_under]
        exact b.isSeeded_seed a draw _
      have hvars : a.firstVars (b.under p) draw (a.firstVars b draw vars) =
          a.firstVars b draw vars := by
        rw [firstVars, Question.seed_of_isSeeded hq, Behaviour.seed_of_isSeeded hb']
      have hrecast : (Attempt.start b vars time actor draw a).state.recast p =
          a.opened ⟨b.under p, a.firstVars b draw vars, time, actor, draw⟩ := by
        have hopened := (start_of_isFresh ha (b.under p) (a.firstVars b draw vars) time actor draw).2
        rw [opened, hopened, hstate, hvars]
        simp [recast, unnumbered, record, hempty, Draft.record, Step.unnumbered]
      rw [hrecast]
      exact Replays.opened ha (hquestion ▸ hhost) (by simpa using hb)
  · have hstate : (Attempt.start b vars time actor draw a).state = a := by
      simp [Attempt.start, hempty]
    rwa [hstate]

/-- An action without cached variables of its own keeps an attempt reproducible. -/
lemma act (h : a.Reproducible questions) {vars : Vars}
    (hvars : ∀ key ∈ vars.keys, isCachedKey key = false) (time : Instant) (actor : Option String) :
    (Attempt.act vars time actor a).state.Reproducible questions := by
  obtain ⟨hstate, -⟩ | ⟨b, d, hb, hd, hstate, -⟩ := act_cases a vars time actor
  · rwa [hstate]
  · have hsteps : a.steps ≠ [] := h.started.1 (by simp [hb])
    have hkept : (a.keep d).steps ≠ [] := by simp [keep, record]
    rw [hstate]
    refine ⟨h.question, h.behaviour, ?_, fun hnil => absurd hnil hkept, ?_⟩
    · exact iff_of_true (Option.isSome_iff_exists.2 ⟨b, hb⟩) hkept
    · intro _ habsolute p host hhost
      have hreplays := h.replays hsteps (habsolute.of_keep hsteps) p host hhost
      have habsolute' : ((a.recast p).keep d).MarksAreAbsolute := by
        rw [← recast_keep, marksAreAbsolute_recast]
        exact habsolute
      rw [recast_keep]
      exact hreplays.keep (x := ⟨vars, time, actor⟩) (by simpa [recast, unnumbered] using hsteps) hvars
        (b := b.under p) (by simp [recast, unnumbered, hb]) ((b.rule_recast p a _).trans hd)
        (.inr habsolute')

/-- Whatever history is replayed on a fresh attempt makes it reproducible. -/
lemma replay (h : host.Reproducible questions) (donor : Attempt ν) (draw : Draw) :
    (Attempt.replay donor draw host).state.Reproducible questions := by
  cases hb : donor.behaviour with
  | none => simpa [Attempt.replay, hb] using h
  | some b =>
    cases hr : b.canRegrade with
    | false => simpa [Attempt.replay, hb, hr] using h
    | true =>
      cases hs : donor.steps with
      | nil => simpa [Attempt.replay, hb, hr, hs] using h
      | cons first rest =>
        rw [replay_eq hb hr hs]
        refine Op.bind_keeps (h.start hr _ _ _ _) fun _ hstarted => ?_
        exact Op.forEach_keeps (fun step _ _ hs =>
          hs.act step.vars.not_isCachedKey_submitted step.time step.actor) hstarted

/-- A reproducible attempt is replayed to itself without the ids of its steps. -/
theorem replays_unnumbered (h : a.Reproducible questions) (hsteps : a.steps ≠ [])
    (habsolute : a.MarksAreAbsolute) (hhost : host.IsFresh a.question) (draw : Draw) :
    (Attempt.replay a draw host).result = .ok () ∧
      (Attempt.replay a draw host).state = a.unnumbered.inPlaceOf host := by
  obtain ⟨b, hb⟩ := Option.isSome_iff_exists.1 (h.started.2 hsteps)
  obtain ⟨p, hp⟩ := b.exists_under
  have hrecast : a.recast p = a.unnumbered := by
    simp [recast, unnumbered, hb, hp]
  have hreplays := h.replays hsteps habsolute p host hhost draw
  rwa [hrecast, replay_unnumbered] at hreplays

end Reproducible
end Attempt
end Assessment
