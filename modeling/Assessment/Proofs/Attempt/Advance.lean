import Assessment.Proofs.Op
import Assessment.Attempt.Acting
import Mathlib.Logic.Relation

/-!
# What an operation can do to an attempt

Apart from its flag, an attempt changes by recording a step and in no other way
(`Attempt.Advance`): starting records the first step and fixes the behaviour, and an action that is
kept records the next one.  Every operation on an attempt either does nothing that storage has to
hear of or advances the attempt, whether it succeeds or fails (`Attempt.Advances`), so what an
advance keeps, every operation keeps.

An attempt is *sound* (`Attempt.Sound`) when its least fraction, the time of its latest change and its
steps go together with its behaviour, and its steps are recorded.  A replay that succeeds makes a
started attempt out of a fresh one, in the same place (`Attempt.replay_spec`).
-/

namespace Assessment

/-- The notices among events. -/
def Event.notices (events : List Event) : List Notice := events.filterMap Event.notice?

@[simp] lemma Event.notices_nil : Event.notices [] = [] := rfl

@[simp] lemma Event.notices_notice (n : Notice) (events : List Event) :
    Event.notices (.notice n :: events) = n :: Event.notices events := rfl

@[simp] lemma Event.notices_tally (t : Tally) (events : List Event) :
    Event.notices (.tally t :: events) = Event.notices events := rfl

lemma Event.notices_map_notice (notices : List Notice) :
    Event.notices (notices.map Event.notice) = notices := by
  simp [Event.notices, List.filterMap_map, Function.comp_def, Event.notice?]

@[simp] lemma Observer.heard_nil {α : Type} (o : Observer) : o.heard ([] : List α) = [] := by
  cases o <;> rfl

lemma Observer.mem_of_mem_heard {α : Type} {o : Observer} {told : List α} {x : α}
    (h : x ∈ o.heard told) : x ∈ told := by
  cases o with
  | nobody => cases h
  | changes => exact h

lemma Event.notices_heard (o : Observer) (events : List Event) :
    Event.notices (o.heard events) = o.heard (Event.notices events) := by
  cases o <;> rfl

namespace Attempt

variable {ν : Type}

/-! ## Advances -/

/-- The attempt with the behaviour that it was started under and what is fixed at the start. -/
def begun [Scalar ν] (a : Attempt ν) (b : Behaviour) : Attempt ν :=
  { a with
    minFraction := some (b.minFraction a.question)
    questionSummary := a.question.summary
    rightAnswerSummary := a.question.rightSummary
    behaviour := some b }

/-- An attempt records one more step, and storage is told so. -/
inductive Advance [Scalar ν] (a : Attempt ν) : Attempt ν → List Notice → Prop
  | start (b : Behaviour) (d : Draft ν) (ha : a.steps = []) :
    Advance a ((a.begun b).record d) [.stepAdded a.slot 0]
  | keep (b : Behaviour) (d d' : Draft ν) (hb : a.behaviour = some b)
    (hd : b.rule a d = .ok (.keep d')) :
    Advance a (a.keep d') [.stepAdded a.slot a.steps.length, .attemptModified a.slot]

variable [Scalar ν]

/-- An operation advances the attempt, or does nothing that storage has to hear of. -/
def Advances {α : Type} (op : Op Fault (Attempt ν) α) : Prop :=
  ∀ a, ((op a).state = a ∧ Event.notices (op a).events = []) ∨
    a.Advance (op a).state (Event.notices (op a).events)

lemma advances_start (b : Behaviour) (vars : Vars) (time : Instant) (actor : Option String)
    (draw : Draw) : Advances (ν := ν) (start b vars time actor draw) := by
  intro a
  unfold start
  split
  · rename_i h
    exact .inr (.start b _ (List.isEmpty_iff.1 h))
  · exact .inl ⟨rfl, rfl⟩

lemma advances_startPreferred (registry : Registry) (preferred : String) (time : Instant)
    (actor : Option String) (draw : Draw) :
    Advances (ν := ν) (startPreferred registry preferred time actor draw) := by
  intro a
  unfold startPreferred
  split
  · exact .inl ⟨rfl, rfl⟩
  · exact advances_start _ _ _ _ _ a

lemma advances_startFrom (prior : Attempt ν) (time : Instant) (actor : Option String)
    (draw : Draw) : Advances (startFrom prior time actor draw) := by
  intro a
  unfold startFrom
  split
  · exact advances_start _ _ _ _ _ a
  · exact .inl ⟨rfl, rfl⟩
  · exact .inl ⟨rfl, rfl⟩

/-- An action changes nothing, or it adds the step that the behaviour keeps. -/
lemma act_cases (a : Attempt ν) (vars : Vars) (time : Instant) (actor : Option String) :
    ((act vars time actor a).state = a ∧ Event.notices (act vars time actor a).events = []) ∨
    ∃ b d, a.behaviour = some b ∧ b.rule a (Draft.new vars time actor) = .ok (.keep d) ∧
      (act vars time actor a).state = a.keep d ∧
      Event.notices (act vars time actor a).events =
        [.stepAdded a.slot a.steps.length, .attemptModified a.slot] := by
  unfold act
  cases hb : a.behaviour with
  | none => exact .inl ⟨rfl, rfl⟩
  | some b =>
    simp only
    cases hr : b.rule a (Draft.new vars time actor) with
    | error e => exact .inl ⟨rfl, rfl⟩
    | ok r =>
      cases r with
      | discard => exact .inl ⟨rfl, rfl⟩
      | keep d => exact .inr ⟨b, d, rfl, hr, rfl, rfl⟩

lemma advances_act (vars : Vars) (time : Instant) (actor : Option String) :
    Advances (ν := ν) (act vars time actor) := by
  intro a
  obtain hsame | ⟨b, d, hb, hd, hstate, hnotices⟩ := act_cases a vars time actor
  · exact .inl hsame
  · rw [hstate, hnotices]
    exact .inr (.keep b _ d hb hd)

lemma advances_finish (time : Instant) (actor : Option String) :
    Advances (ν := ν) (finish time actor) :=
  advances_act _ _ _

lemma advances_grade (comment : String) (mark : Option ν) (time : Instant)
    (actor : Option String) : Advances (grade comment mark time actor) :=
  fun a => advances_act _ _ _ a

lemma advances_replayStep (step : Step ν) : Advances (replayStep step) :=
  fun a => advances_act _ _ _ a

/-! ## What an advance keeps -/

/-- Two attempts at the same question in the same place, out of the same marks and flagged alike. -/
structure SamePlace (a a' : Attempt ν) : Prop where
  id : a'.id = a.id
  usageId : a'.usageId = a.usageId
  slot : a'.slot = a.slot
  question : a'.question = a.question
  maxMark : a'.maxMark = a.maxMark
  flagged : a'.flagged = a.flagged

omit [Scalar ν] in
lemma SamePlace.refl (a : Attempt ν) : a.SamePlace a := ⟨rfl, rfl, rfl, rfl, rfl, rfl⟩

omit [Scalar ν] in
lemma SamePlace.trans {a a' a'' : Attempt ν} (h : a.SamePlace a') (h' : a'.SamePlace a'') :
    a.SamePlace a'' :=
  ⟨h'.id.trans h.id, h'.usageId.trans h.usageId, h'.slot.trans h.slot, h'.question.trans h.question,
    h'.maxMark.trans h.maxMark, h'.flagged.trans h.flagged⟩

/-- The parts of a sound attempt go together: it is started when it has a least fraction and a time
of its latest change, it has no steps before, and its steps are recorded ones. -/
structure Sound (a : Attempt ν) : Prop where
  minFraction : a.minFraction.isSome = a.behaviour.isSome
  modified : a.modified.isSome = a.behaviour.isSome
  steps : a.steps ≠ [] → a.behaviour.isSome = true
  readOnly : ∀ step ∈ a.steps, step.readOnly = true

omit [Scalar ν] in
/-- Soundness does not depend on the observer. -/
lemma Sound.observedBy {a : Attempt ν} (h : a.Sound) (o : Observer) : (a.observedBy o).Sound :=
  ⟨h.minFraction, h.modified, h.steps, h.readOnly⟩

namespace Advance

variable {a a' : Attempt ν} {notices : List Notice}

lemma samePlace (h : a.Advance a' notices) : a.SamePlace a' := by
  cases h <;> exact ⟨rfl, rfl, rfl, rfl, rfl, rfl⟩

lemma observer (h : a.Advance a' notices) : a'.observer = a.observer := by
  cases h <;> rfl

/-- An advance records one step after those that are there. -/
lemma steps (h : a.Advance a' notices) : ∃ d : Draft ν, a'.steps = a.steps ++ [d.record] := by
  cases h with
  | start b d ha => exact ⟨d, rfl⟩
  | keep b d d' hb hd => exact ⟨d', rfl⟩

lemma isStarted (h : a.Advance a' notices) : a'.behaviour.isSome = true := by
  cases h with
  | start b d ha => rfl
  | keep b d d' hb hd => simp [Attempt.keep, record, hb]

lemma sound (h : a.Advance a' notices) (ha : a.Sound) : a'.Sound := by
  have hstarted := h.isStarted
  obtain ⟨d, hsteps⟩ := h.steps
  refine ⟨?_, ?_, fun _ => hstarted, fun step hstep => ?_⟩
  · cases h with
    | start b d hnil => rfl
    | keep b d d' hb hd => exact ha.minFraction
  · cases h with
    | start b d hnil => rfl
    | keep b d d' hb hd => simp [Attempt.keep, record, hb]
  · rw [hsteps] at hstep
    rcases List.mem_append.1 hstep with hstep | hstep
    · exact ha.readOnly step hstep
    · obtain rfl := List.mem_singleton.1 hstep
      rfl

end Advance

/-! ## Replays -/

lemma sound_new (q : Question ν) (usageId : String) (slot : Nat) (maxMark : Option ν) :
    (new q usageId slot maxMark).Sound :=
  ⟨rfl, rfl, fun h => absurd rfl h, by simp [new]⟩

/-- What advances can make of an attempt: the same place, sound, and no step with an id but those
that had one. -/
structure Successor (a a' : Attempt ν) : Prop where
  place : a.SamePlace a'
  sound : a'.Sound
  steps : ∃ later : List (Step ν), a'.steps = a.steps ++ later ∧ ∀ step ∈ later, step.id = none

omit [Scalar ν] in
lemma Successor.refl {a : Attempt ν} (ha : a.Sound) : a.Successor a :=
  ⟨.refl a, ha, [], by simp, by simp⟩

omit [Scalar ν] in
lemma Successor.observedBy {a a' : Attempt ν} (h : a.Successor a') (o : Observer) :
    a.Successor (a'.observedBy o) :=
  ⟨⟨h.place.id, h.place.usageId, h.place.slot, h.place.question, h.place.maxMark, h.place.flagged⟩,
    h.sound.observedBy o, h.steps⟩

lemma Successor.advance {a a' a'' : Attempt ν} {notices : List Notice} (h : a.Successor a')
    (h' : a'.Advance a'' notices) : a.Successor a'' := by
  obtain ⟨later, hlater, hids⟩ := h.steps
  obtain ⟨d, hd⟩ := h'.steps
  refine ⟨h.place.trans h'.samePlace, h'.sound h.sound, later ++ [d.record], ?_, ?_⟩
  · rw [hd, hlater, List.append_assoc]
  · intro step hstep
    rcases List.mem_append.1 hstep with hstep | hstep
    · exact hids step hstep
    · obtain rfl := List.mem_singleton.1 hstep
      rfl

/-- What operations that advance an attempt leave of it. -/
lemma Successor.run {α : Type} {a a' : Attempt ν} (h : a.Successor a') {op : Op Fault (Attempt ν) α}
    (hop : Advances op) : a.Successor (op a').state := by
  obtain ⟨hsame, -⟩ | hadvance := hop a'
  · rwa [hsame]
  · exact h.advance hadvance

omit [Scalar ν] in
/-- The steps that are made of an attempt without any have no ids. -/
lemma Successor.id_eq_none {a a' : Attempt ν} (h : a.Successor a') (ha : a.steps = []) :
    ∀ step ∈ a'.steps, step.id = none := by
  obtain ⟨later, hlater, hids⟩ := h.steps
  rwa [hlater, ha, List.nil_append]

/-- What a replay does with a history under a behaviour that can replay. -/
lemma replay_eq {donor : Attempt ν} {b : Behaviour} {first : Step ν} {rest : List (Step ν)}
    (hb : donor.behaviour = some b) (hr : b.canRegrade = true) (hs : donor.steps = first :: rest)
    (draw : Draw) :
    replay donor draw = Op.bind (start b first.vars first.time first.actor draw) fun _ =>
      Op.forEach replayStep rest := by
  simp [replay, hb, hr, hs]

/-- Only a history under a behaviour that can replay is replayed. -/
lemma exists_of_replay_ok {donor a : Attempt ν} {draw : Draw}
    (h : (replay donor draw a).result = .ok ()) :
    ∃ b first rest, donor.behaviour = some b ∧ b.canRegrade = true ∧ donor.steps = first :: rest := by
  unfold replay at h
  cases hb : donor.behaviour with
  | none => simp [hb] at h
  | some b =>
    cases hr : b.canRegrade with
    | false => simp [hb, hr] at h
    | true =>
      cases hs : donor.steps with
      | nil => simp [hb, hr, hs] at h
      | cons first rest => exact ⟨b, first, rest, rfl, hr, rfl⟩

/-- A replay that succeeds makes a started attempt of the one it is made on, and leaves that in its
place. -/
lemma replay_spec {donor a : Attempt ν} {draw : Draw} (ha : a.Sound)
    (h : (replay donor draw a).result = .ok ()) :
    a.Successor (replay donor draw a).state ∧ (replay donor draw a).state.steps ≠ [] := by
  obtain ⟨b, first, rest, hb, hr, hs⟩ := exists_of_replay_ok h
  rw [replay_eq hb hr hs] at h ⊢
  cases hstart : (start b first.vars first.time first.actor draw a).result with
  | error e => rw [Op.bind_of_error hstart] at h; cases h
  | ok u =>
    have hsteps : (start b first.vars first.time first.actor draw a).state.steps ≠ [] := by
      unfold start at hstart ⊢
      split at hstart
      · simp_all [record]
      · cases hstart
    have hfirst := (Successor.refl ha).run (advances_start b first.vars first.time first.actor draw)
    rw [Op.bind_of_ok hstart]
    refine Op.forEach_keeps (P := fun x => a.Successor x ∧ x.steps ≠ []) ?_ ⟨hfirst, hsteps⟩
    rintro step - x ⟨hx, hne⟩
    refine ⟨hx.run (advances_replayStep step), ?_⟩
    obtain ⟨hsame, -⟩ | hadvance := advances_replayStep step x
    · rwa [hsame]
    · obtain ⟨d, hd⟩ := hadvance.steps
      simp [hd]

end Attempt
end Assessment
