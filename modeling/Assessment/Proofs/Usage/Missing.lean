import Assessment.Proofs.Usage.Batch
import Assessment.Proofs.Usage.Regrade

/-!
# Attempts whose behaviour is missing

The missing behaviour stands in for one that is not on offer.  It records comments and nothing else
(`Behaviour.hasComment_of_missing`), and it cannot replay, so a regrade of such an attempt is refused
(`Usage.regrade_of_missing`), and as long as there is one, so is a regrade of them all
(`Usage.regradeAll_of_missing`).

Once its attempts are started, a usage is served by routine operations (`Operation.isRoutine`).  They come
down to acting on a slot, setting its flag and replaying it, so what these three keep all of them keep
(`Operation.routine_keeps`).  What they keep here is that every attempt is carried on
(`Attempt.Carried`): it is at the same question under the same behaviour, and if that is the missing
one, then only comments have come after its steps.
-/

namespace Assessment

variable {ν : Type} [Scalar ν]

/-! ## Comments -/

/-- The missing behaviour keeps only what has a comment. -/
lemma Behaviour.hasComment_of_missing {name : String} {a : Attempt ν} {d d' : Draft ν}
    (h : (missing name).rule a d = .ok (.keep d')) : d'.vars.hasBehaviour "comment" = true := by
  have hsubmitted : d'.vars.behaviour? "comment" = d.vars.behaviour? "comment" := by
    rw [← d'.vars.behaviour?_submitted "comment" (by decide), (rule_follows h).submitted,
      d.vars.behaviour?_submitted "comment" (by decide)]
  cases hasks : Ruling.asks d "comment" with
  | true =>
    rw [Vars.hasBehaviour, hsubmitted]
    exact hasks
  | false => simp [rule, hasks] at h

/-! ## Attempts that are carried on -/

namespace Attempt

/-- An attempt later on: at the same question under the same behaviour, and with comments at most after
its steps if this is the missing one. -/
structure Carried (a a' : Attempt ν) : Prop where
  id : a'.id = a.id
  question : a'.question = a.question
  behaviour : a'.behaviour = a.behaviour
  comments : ∀ name, a.behaviour = some (.missing name) → ∃ later, a'.steps = a.steps ++ later ∧
    ∀ step ∈ later, step.vars.hasBehaviour "comment" = true

namespace Carried

variable {a a' : Attempt ν}

omit [Scalar ν] in
lemma refl (a : Attempt ν) : a.Carried a := ⟨rfl, rfl, rfl, fun _ _ => ⟨[], by simp, by simp⟩⟩

omit [Scalar ν] in
lemma setFlag (h : a.Carried a') (flagged : Bool) :
    a.Carried (Attempt.setFlag flagged a').state := by
  unfold Attempt.setFlag
  split
  · exact h
  · exact ⟨h.id, h.question, h.behaviour, h.comments⟩

lemma act (h : a.Carried a') (vars : Vars) (time : Instant) (actor : Option String) :
    a.Carried (Attempt.act vars time actor a').state := by
  obtain ⟨hsame, -⟩ | ⟨b, d, hb, hd, hstate, -⟩ := act_cases a' vars time actor
  · rwa [hsame]
  · rw [hstate]
    refine ⟨h.id, h.question, h.behaviour, fun name hname => ?_⟩
    obtain ⟨later, hlater, hcomments⟩ := h.comments name hname
    obtain rfl : b = .missing name := Option.some.inj (hb.symm.trans (h.behaviour.trans hname))
    refine ⟨later ++ [d.record], by simp [keep, record, hlater], fun step hstep => ?_⟩
    obtain hstep | hstep := List.mem_append.1 hstep
    · exact hcomments step hstep
    · obtain rfl := List.mem_singleton.1 hstep
      exact Behaviour.hasComment_of_missing hd

end Carried

/-- A replay starts the attempt under the behaviour of the one that is replayed, which stays. -/
lemma behaviour_replay {donor a : Attempt ν} {draw : Draw}
    (h : (replay donor draw a).result = .ok ()) :
    (replay donor draw a).state.behaviour = donor.behaviour := by
  obtain ⟨b, first, rest, hb, hr, hs⟩ := exists_of_replay_ok h
  rw [replay_eq hb hr hs] at h ⊢
  cases hstart : (start b first.vars first.time first.actor draw a).result with
  | error e => rw [Op.bind_of_error hstart] at h; cases h
  | ok _ =>
    rw [Op.bind_of_ok hstart, hb]
    refine Op.forEach_keeps (P := fun x : Attempt ν => x.behaviour = some b) (fun step _ x hx => ?_) ?_
    · obtain ⟨hsame, -⟩ | ⟨_, d, -, -, hstate, -⟩ :=
        act_cases x step.vars.submitted step.time step.actor
      · exact (congrArg Attempt.behaviour hsame).trans hx
      · exact (congrArg Attempt.behaviour hstate).trans hx
    · unfold start at hstart ⊢
      split at hstart
      · rename_i hempty
        simp [hempty, record]
      · cases hstart

omit [Scalar ν] in
lemma Carried.observedBy {a a' : Attempt ν} (h : a.Carried a') (o : Observer) :
    a.Carried (a'.observedBy o) :=
  ⟨h.id, h.question, h.behaviour, h.comments⟩

/-- An attempt that replays another one carries it on. -/
lemma Carried.replay {a old : Attempt ν} (h : a.Carried old) (u : Usage ν) (slot : Nat)
    (maxMark : Option ν) {draw : Draw}
    (hok : (Attempt.replay old draw (u.successor slot old maxMark)).result = .ok ()) :
    a.Carried (Attempt.replay old draw (u.successor slot old maxMark)).state := by
  obtain ⟨hnew, -⟩ := replay_spec (u.sound_successor slot old maxMark) hok
  refine ⟨hnew.place.id.trans h.id, hnew.place.question.trans h.question,
    (behaviour_replay hok).trans h.behaviour, fun name hname => ?_⟩
  -- a missing behaviour is not replayed
  obtain ⟨b, -, -, hb, hr, -⟩ := exists_of_replay_ok hok
  obtain rfl : b = .missing name := Option.some.inj (hb.symm.trans (h.behaviour.trans hname))
  cases hr

end Attempt

/-! ## Unsaved changes -/

omit [Scalar ν] in
/-- Notices clear the stored steps of an attempt only if one of them says so. -/
lemma Changes.has_stepsDeleted_foldl {c : Changes} {notices : List Notice} {slot : Nat}
    (hnotices : .stepsDeleted slot ∉ notices) (hc : c.stepsDeleted.has slot = false) :
    (notices.foldl note c).stepsDeleted.has slot = false := by
  induction notices generalizing c with
  | nil => exact hc
  | cons n rest ih =>
    obtain ⟨hn, hrest⟩ := not_or.1 (List.mem_cons.not.1 hnotices)
    refine ih hrest ?_
    cases n with
    | stepsDeleted s =>
      have hne : slot ≠ s := fun heq => hn (congrArg _ heq)
      simp only [note]
      split
      · exact hc
      · simp [hne, hc]
    | usageModified | attemptAdded s => exact hc
    | attemptModified s | stepAdded s index =>
      simp only [note]
      split <;> exact hc

namespace Usage

/-- Whether the attempt in a slot is under the missing behaviour, with the name that is stored of it. -/
def IsMissing (u : Usage ν) (slot : Nat) (name : String) : Prop :=
  ∃ a, u.attempts.get? slot = some a ∧ a.behaviour = some (.missing name)

/-! ## Usages that are carried on -/

/-- A usage later on: its attempts are carried on, and its unsaved changes clear no stored steps where
the behaviour is missing. -/
structure Carried (u u' : Usage ν) : Prop where
  id : u'.id = u.id
  attempts : u.attempts.Matches Attempt.Carried u'.attempts
  uncleared : ∀ slot name, u.IsMissing slot name →
    (u'.pending.getD Changes.none).stepsDeleted.has slot = false

namespace Carried

variable {u u' : Usage ν}

omit [Scalar ν] in
/-- An attempt that carries on the one in its slot is put there, and no notice clears steps where the
behaviour is missing. -/
lemma insert (h : u.Carried u') {slot : Nat} {a a' : Attempt ν} (ha : u.attempts.get? slot = some a)
    (ha' : a.Carried a') {notices : List Notice}
    (hnotices : ∀ slot' name, u.IsMissing slot' name → .stepsDeleted slot' ∉ notices) :
    u.Carried (({ u' with attempts := u'.attempts.insert slot a' } : Usage ν).noted notices) where
  id := h.id
  attempts := h.attempts.insert ha ha'
  uncleared := by
    intro slot' name hmissing
    have hcleared := h.uncleared slot' name hmissing
    cases hpending : u'.pending with
    | none => simp [noted, Changes.none]
    | some c =>
      rw [hpending, Option.getD_some] at hcleared
      simp only [noted, Option.map_some, Option.getD_some]
      exact Changes.has_stepsDeleted_foldl (hnotices slot' name hmissing) hcleared

omit [Scalar ν] in
/-- What is done on a slot carries the usage on if it carries the attempt on and clears no steps. -/
lemma onSlot {α : Type} (h : u.Carried u') {slot : Nat} {op : Op Fault (Attempt ν) α}
    (hop : ∀ a a' : Attempt ν, a.Carried a' → a.Carried (op a').state)
    (hnotices : ∀ (a : Attempt ν) slot', .stepsDeleted slot' ∉ Event.notices (op a).events) :
    u.Carried (Usage.onSlot slot op u').state := by
  unfold Usage.onSlot
  cases ha' : u'.attempts.get? slot with
  | none => exact h
  | some a' =>
    obtain ⟨a, ha, hcarried⟩ := h.attempts.of_get?_eq_some ha'
    simp only [noting_eq, Event.notices_heard]
    exact h.insert ha (hop a a' hcarried) fun slot' _ _ hmem =>
      hnotices a' slot' (Observer.mem_of_mem_heard hmem)

lemma act (h : u.Carried u') (slot : Nat) (vars : Vars) (time : Instant) (actor : Option String) :
    u.Carried (Usage.act slot vars time actor u').state := by
  refine h.onSlot (fun _ _ hcarried => hcarried.act vars time actor) fun a slot' => ?_
  obtain ⟨-, hnotices⟩ | ⟨_, _, -, -, -, hnotices⟩ := Attempt.act_cases a vars time actor <;>
    simp [hnotices]

omit [Scalar ν] in
lemma setFlag (h : u.Carried u') (slot : Nat) (flagged : Bool) :
    u.Carried (Usage.setFlag slot flagged u').state := by
  refine h.onSlot (fun _ _ hcarried => hcarried.setFlag flagged) fun a slot' => ?_
  unfold Attempt.setFlag
  split <;> simp

lemma regrade (h : u.Carried u') (slot : Nat) (maxMark : Option ν) (draw : Draw) :
    u.Carried (Usage.regrade slot maxMark draw u').state := by
  unfold Usage.regrade
  cases hold : u'.attempts.get? slot with
  | none => exact h
  | some old =>
    simp only
    split
    · exact h
    · rename_i hok
      obtain ⟨a, ha, hcarried⟩ := h.attempts.of_get?_eq_some hold
      simp only [noting_eq, Event.notices_map_notice]
      have hnew := (hcarried.replay u' slot maxMark hok).observedBy u'.observer
      refine h.insert ha hnew fun slot' name hmissing hmem => ?_
      -- only the slot that is replayed is cleared, and its behaviour is not missing
      obtain rfl : slot' = slot := by simpa [replacementNotices] using hmem
      obtain ⟨a', ha', hname⟩ := hmissing
      obtain rfl := Option.some.inj (ha.symm.trans ha')
      obtain ⟨b, -, -, hb, hr, -⟩ := Attempt.exists_of_replay_ok hok
      obtain rfl : b = .missing name :=
        Option.some.inj (hb.symm.trans (hcarried.behaviour.trans hname))
      cases hr

end Carried

/-! ## Routine operations -/

namespace Operation

/-- Whether the operation serves attempts that are there: it adds none, starts none, and leaves the
preferred behaviour. -/
def isRoutine : Operation ν → Bool
  | add .. | start .. | startAll .. | startFrom .. | setPreferred .. => false
  | act .. | submit .. | finish .. | finishAll .. | grade .. | setFlag .. | setFlagChecked ..
  | regrade .. | regradeAll .. => true

/-- What acting on a slot, setting its flag and replaying it keep, every routine operation keeps. -/
theorem routine_keeps {P : Usage ν → Prop}
    (hact : ∀ slot vars time actor u, P u → P (Usage.act slot vars time actor u).state)
    (hflag : ∀ slot flagged u, P u → P (Usage.setFlag slot flagged u).state)
    (hregrade : ∀ slot maxMark draw u, P u → P (Usage.regrade slot maxMark draw u).state)
    {o : Operation ν} (ho : o.isRoutine = true) {u : Usage ν} (hu : P u) : P (o.after u) := by
  cases o with
  | add question maxMark | start slot time actor draw | startAll time actor draws
  | startFrom slot prior time actor draw | setPreferred name => cases ho
  | act slot vars time actor => exact hact slot vars time actor u hu
  | submit batch time actor =>
    refine Op.bind_keeps ((checkBatch_spec batch u).1.symm ▸ hu) fun _ hchecked => ?_
    refine Op.bind_keeps (Op.forEach_keeps (fun slot _ u' hu' => ?_) hchecked) fun _ hacted => ?_
    · rw [submitSlot_state]
      exact hact slot _ time actor u' hu'
    · exact Op.forEach_keeps (fun flag _ u' hu' => hflag flag.1 flag.2 u' hu') hacted
  | finish slot time actor => exact hact slot Attempt.finishVars time actor u hu
  | finishAll time actor =>
    refine Op.forEach_keeps (fun slot _ u' hu' => ?_) hu
    exact Op.bind_keeps (hact slot Attempt.finishVars time actor u' hu') fun _ hfinished => hfinished
  | grade slot comment mark time actor =>
    -- what a comment submits depends on the attempt, as a mark is out of the attempt's own marks
    cases ha : u.attempts.get? slot with
    | none => simpa only [after, Usage.grade, onSlot, ha] using hu
    | some a =>
      have hsame : (Usage.grade slot comment mark time actor u).state =
          (Usage.act slot (Attempt.gradeVars comment mark a) time actor u).state := by
        simp only [Usage.grade, Usage.act, onSlot, ha, Attempt.grade]
      exact (congrArg P hsame).mpr (hact slot _ time actor u hu)
  | setFlag slot flagged => exact hflag slot flagged u hu
  | setFlagChecked slot flagged secret actor checksum =>
    simp only [after, Usage.setFlagChecked]
    split
    · exact hu
    · split
      · exact Op.bind_keeps (hflag slot flagged u hu) fun _ hflagged => hflagged
      · exact hu
  | regrade slot maxMark draw => exact hregrade slot maxMark draw u hu
  | regradeAll draws =>
    simp only [after, Usage.regradeAll]
    split
    · exact hu
    · exact Op.forEach_keeps (fun slot _ u' hu' => hregrade slot none (draws slot) u' hu') hu

end Operation

/-- Routine operations carry a usage on. -/
lemma Carried.operation {u u' : Usage ν} (h : u.Carried u') {o : Operation ν}
    (ho : o.isRoutine = true) : u.Carried (o.after u') :=
  Operation.routine_keeps (fun slot vars time actor _ hu => hu.act slot vars time actor)
    (fun slot flagged _ hu => hu.setFlag slot flagged)
    (fun slot maxMark draw _ hu => hu.regrade slot maxMark draw) ho h

/-! ## Regrading -/

variable {u : Usage ν} {slot : Nat} {name : String}

/-- Where the behaviour is missing, a regrade is refused and changes nothing. -/
lemma regrade_of_missing (h : u.IsMissing slot name) (maxMark : Option ν) (draw : Draw) :
    (regrade slot maxMark draw u).result = .error (.cannotRegrade name) ∧
      (regrade slot maxMark draw u).state = u := by
  obtain ⟨a, ha, hb⟩ := h
  have hreplay : Attempt.replay a draw (u.successor slot a maxMark) =
      Op.fail (.cannotRegrade name) (u.successor slot a maxMark) := by
    simp only [Attempt.replay, hb, Behaviour.canRegrade, Behaviour.name]
    rfl
  simp only [regrade, ha, hreplay, Op.fail_apply, and_self]

/-- A usage with a missing behaviour is not regraded as a whole either. -/
lemma regradeAll_of_missing (h : u.IsMissing slot name) (draws : Nat → Draw) :
    ∃ slot' name', u.IsMissing slot' name' ∧
      (regradeAll draws u).result = .error (.cannotRegrade name') ∧
      (regradeAll draws u).state = u := by
  obtain ⟨a, ha, hb⟩ := h
  obtain ⟨b, hfound⟩ : ∃ b, u.notReplayable? = some b := by
    refine Option.isSome_iff_exists.1 (List.findSome?_isSome_iff.2
      ⟨a, SortedMap.mem_values_iff.2 ⟨slot, ha⟩, ?_⟩)
    simp [hb, Behaviour.canRegrade]
  obtain ⟨a', hmem, hb'⟩ := List.exists_of_findSome?_eq_some hfound
  obtain ⟨slot', ha'⟩ := SortedMap.mem_values_iff.1 hmem
  obtain ⟨b', hbehaviour, hcannot⟩ := Option.bind_eq_some_iff.1 hb'
  obtain ⟨name', rfl⟩ : ∃ name', b' = .missing name' := by
    cases b' <;> simp [Behaviour.canRegrade] at hcannot
    exact ⟨_, rfl⟩
  obtain rfl : .missing name' = b := by simpa [Behaviour.canRegrade] using hcannot
  rw [regradeAll_of_refused hfound]
  exact ⟨slot', name', ⟨a', ha', hbehaviour⟩, rfl, rfl⟩

end Usage
end Assessment
