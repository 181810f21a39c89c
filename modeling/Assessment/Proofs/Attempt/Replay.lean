import Assessment.Proofs.Attempt.History

/-!
# Replaying a history gives the history back

A replay feeds an attempt's history through a fresh attempt at the same question: the first step with
all its variables, every later step only with what was submitted.  Everything a behaviour remembers
in cached variables has to be found again on the way, and it is: the replayed attempt is the donor in
the place of the fresh one (`Replays`), so its steps, least fraction and response summary are those
of the donor (`replay_reproduces`) and replaying it once more changes nothing.

The first step is found again because seeding leaves a seeded step alone (`firstVars_firstVars`).
Every later step is found again because a ruling does not look at the place of an attempt
(`Behaviour.rule_inPlaceOf`) and a kept draft carries the submitted variables unchanged
(`Behaviour.rule_follows`); this is an induction over the actions that were sent (`Replays.act`).

Two hypotheses are needed.  An action that names cached variables itself would be replayed without
them.  A mark given without its own maximum is out of the attempt's marks, so such a comment is
replayed to another fraction when the marks are changed; grading through `Attempt.grade` always gives
both.
-/

namespace Assessment

variable {ν : Type}

namespace Attempt

/-- Whether every comment after the first step that gives a mark also says out of how many. -/
def MarksAreAbsolute (a : Attempt ν) : Prop :=
  ∀ b, a.behaviour = some b → ∀ step ∈ a.steps.tail,
    (b.takesComment step.vars && step.vars.hasRelativeMark) = false

end Attempt

/-! ## Seeding -/

lemma Vars.get?_cache (vars : Vars) (owner : Owner) (name value key : String) :
    (vars.cache owner name value).get? key =
      if key = owner.key ("_" ++ name) then some value else vars.get? key := by
  rw [cache, SortedMap.get?_insert]

lemma Vars.hasBehaviour_cache_self (vars : Vars) (name value : String) :
    (vars.cache .behaviour name value).hasBehaviour ("_" ++ name) = true := by
  simp only [hasBehaviour, behaviour?, get?_cache, if_true, Option.isSome_some]

lemma Vars.hasBehaviour_cache {vars : Vars} {key : String} (h : vars.hasBehaviour key = true)
    (owner : Owner) (name value : String) :
    (vars.cache owner name value).hasBehaviour key = true := by
  simp only [hasBehaviour, behaviour?, get?_cache] at h ⊢
  split
  · rfl
  · exact h

/-- Whether the first step has all that the question remembers. -/
def Question.isSeeded : Question ν → Vars → Bool
  | multiChoice _, vars => (vars.question? "_order").isSome
  | _, _ => true

/-- Whether the first step has all that the behaviour remembers. -/
def Behaviour.isSeeded : Behaviour → Vars → Bool
  | interactive, vars => vars.hasBehaviour "_triesleft"
  | adaptive _, vars => vars.hasBehaviour "_randomseed"
  | _, _ => true

namespace Question

/-- A variable of the behaviour says nothing to the question. -/
lemma isSeeded_cache {q : Question ν} {vars : Vars} (h : q.isSeeded vars = true)
    (name value : String) : q.isSeeded (vars.cache .behaviour name value) = true := by
  cases q with
  | multiChoice q =>
    simp only [isSeeded, Vars.question?, Vars.get?_cache] at h ⊢
    split
    · rfl
    · exact h
  | _ => rfl

lemma isSeeded_behaviourSeed {q : Question ν} {vars : Vars} (h : q.isSeeded vars = true)
    (b : Behaviour) (a : Attempt ν) (draw : Draw) : q.isSeeded (b.seed a draw vars) = true := by
  cases b with
  | interactive =>
    simp only [Behaviour.seed, Interactive.seed]
    split
    · exact h
    · exact isSeeded_cache h _ _
  | adaptive preferred =>
    simp only [Behaviour.seed, Adaptive.seed]
    split
    · exact h
    · exact isSeeded_cache (isSeeded_cache (isSeeded_cache h _ _) _ _) _ _
  | _ => exact h

lemma seed_of_isSeeded {q : Question ν} {vars : Vars} (h : q.isSeeded vars = true) (draw : Draw) :
    q.seed draw vars = vars := by
  cases q with
  | multiChoice q =>
    simp only [isSeeded] at h
    simp [seed, MultiChoice.seed, h]
  | _ => rfl

lemma isSeeded_seed (q : Question ν) (draw : Draw) (vars : Vars) :
    q.isSeeded (q.seed draw vars) = true := by
  cases q with
  | multiChoice q =>
    simp only [isSeeded, seed, MultiChoice.seed]
    split
    · assumption
    · simp [Vars.question?, Vars.get?_cache]
  | _ => rfl

end Question

namespace Behaviour

lemma seed_of_isSeeded {b : Behaviour} {vars : Vars} (h : b.isSeeded vars = true) (a : Attempt ν)
    (draw : Draw) : b.seed a draw vars = vars := by
  cases b with
  | interactive =>
    simp only [isSeeded] at h
    simp [seed, Interactive.seed, h]
  | adaptive preferred =>
    simp only [isSeeded] at h
    simp [seed, Adaptive.seed, h]
  | _ => rfl

lemma isSeeded_seed (b : Behaviour) (a : Attempt ν) (draw : Draw) (vars : Vars) :
    b.isSeeded (b.seed a draw vars) = true := by
  cases b with
  | interactive =>
    simp only [isSeeded, seed, Interactive.seed]
    split
    · assumption
    · exact Vars.hasBehaviour_cache_self vars "triesleft" _
  | adaptive preferred =>
    simp only [isSeeded, seed, Adaptive.seed]
    split
    · assumption
    · have h := Vars.hasBehaviour_cache_self vars "randomseed" draw.seed.toNat.repr
      exact Vars.hasBehaviour_cache (Vars.hasBehaviour_cache h _ _ _) _ _ _
  | _ => rfl

end Behaviour

namespace Attempt

/-- A first step that is started with again remembers what it remembered. -/
lemma firstVars_firstVars {a a' : Attempt ν} (h : a'.question = a.question) (b : Behaviour)
    (draw draw' : Draw) (vars : Vars) :
    a'.firstVars b draw' (a.firstVars b draw vars) = a.firstVars b draw vars := by
  have hq : a.question.isSeeded (a.firstVars b draw vars) = true :=
    Question.isSeeded_behaviourSeed (a.question.isSeeded_seed draw vars) b a draw
  have hb : b.isSeeded (a.firstVars b draw vars) = true := b.isSeeded_seed a draw _
  rw [firstVars, h, Question.seed_of_isSeeded hq, Behaviour.seed_of_isSeeded hb]

end Attempt

/-! ## What was submitted -/

lemma Vars.hasRelativeMark_submitted (vars : Vars) :
    vars.submitted.hasRelativeMark = vars.hasRelativeMark := by
  have hmark := vars.behaviour?_submitted "mark" (by decide)
  have hmax := vars.behaviour?_submitted "maxmark" (by decide)
  simp only [hasRelativeMark, hasBehaviour, hmark, hmax]

namespace Attempt

variable [Scalar ν]

/-! ## A whole history -/

/-- The donor's history can be replayed on the host, and gives the donor in the place of the host. -/
def Replays (donor host : Attempt ν) : Prop :=
  ∀ draw, (replay donor draw host).result = .ok () ∧
    (replay donor draw host).state = donor.inPlaceOf host

/-- A history of one step more is replayed by replaying the step after the rest. -/
lemma replay_append (donor donor' : Attempt ν) (hb : donor'.behaviour = donor.behaviour)
    (hs : donor.steps ≠ []) {step : Step ν} (hs' : donor'.steps = donor.steps ++ [step])
    {draw : Draw} {host : Attempt ν}
    (h : (replay donor draw host).result = .ok ()) :
    (replay donor' draw host).result = (replayStep step (replay donor draw host).state).result ∧
      (replay donor' draw host).state = (replayStep step (replay donor draw host).state).state := by
  obtain ⟨first, rest, hfirst⟩ := List.exists_cons_of_ne_nil hs
  cases hdonor : donor.behaviour with
  | none => simp [replay, hdonor] at h
  | some b =>
    cases hr : b.canRegrade with
    | false => simp [replay, hdonor, hr] at h
    | true =>
      have heq : replay donor' draw =
          Op.bind (replay donor draw) fun _ => Op.forEach replayStep [step] := by
        have hfirst' : donor'.steps = first :: (rest ++ [step]) := by rw [hs', hfirst]; rfl
        rw [replay_eq hdonor hr hfirst, replay_eq (hb.trans hdonor) hr hfirst', Op.bind_assoc,
          Op.forEach_append]
      rw [heq, Op.bind_of_ok h]
      cases hstep : (replayStep step (replay donor draw host).state).result with
      | error e => simp [Op.forEach_cons_of_error hstep]
      | ok a => simp [Op.forEach_cons_of_ok hstep]

/-- The first step is replayed: seeding finds what it has seeded. -/
lemma Replays.opened {a host : Attempt ν} {q : Question ν} (ha : a.IsFresh q) (hh : host.IsFresh q)
    {o : Opening} (ho : o.behaviour.canRegrade = true) : (a.opened o).Replays host := by
  intro draw
  have hopened := (start_of_isFresh ha o.behaviour o.vars o.time o.actor o.draw).2
  rw [← Attempt.opened] at hopened
  have hb : (a.opened o).behaviour = some o.behaviour := by rw [hopened]; rfl
  have hsteps : (a.opened o).steps =
      [((Draft.new (a.firstVars o.behaviour o.draw o.vars) o.time o.actor).withState
        .todo).record] := by
    rw [hopened]
    simp [record, ha.steps]
  obtain ⟨hok, hstate⟩ := start_of_isFresh hh o.behaviour (a.firstVars o.behaviour o.draw o.vars)
    o.time.cut o.actor draw
  have hseeded : host.firstVars o.behaviour draw (a.firstVars o.behaviour o.draw o.vars) =
      a.firstVars o.behaviour o.draw o.vars :=
    firstVars_firstVars (hh.question.trans ha.question.symm) o.behaviour o.draw draw o.vars
  rw [replay_eq hb ho hsteps]
  have hfirst := Op.bind_of_ok (f := fun _ => Op.forEach replayStep []) hok
  simp only [Draft.record, Draft.withState, Draft.new]
  rw [hfirst, hstate, hseeded, hopened]
  refine ⟨rfl, ?_⟩
  simp [record, inPlaceOf, Draft.record, Draft.withState, Draft.new, ha.steps, hh.steps,
    ha.question, hh.question, ha.responseSummary, hh.responseSummary]

omit [Scalar ν] in
/-- Marks that are absolute in a history are absolute in the part of it before the last action. -/
lemma MarksAreAbsolute.of_keep {a : Attempt ν} {d : Draft ν} (ha : a.steps ≠ [])
    (h : (a.keep d).MarksAreAbsolute) : a.MarksAreAbsolute := by
  intro b hb step hstep
  refine h b hb step ?_
  simp only [keep, record, List.tail_append_of_ne_nil ha]
  exact List.mem_append_left _ hstep

lemma MarksAreAbsolute.of_afterAction {a : Attempt ν} {x : Action} (ha : a.steps ≠ [])
    (h : (a.afterAction x).MarksAreAbsolute) : a.MarksAreAbsolute := by
  unfold afterAction at h
  obtain ⟨hstate, -⟩ | ⟨b, d, -, -, hstate, -⟩ := act_cases a x.vars x.time x.actor
  · rwa [hstate] at h
  · rw [hstate] at h
    exact h.of_keep ha

/-- A kept action is replayed: it is fed back as it was sent, and the ruling on it does not depend on
the place of the attempt. -/
lemma Replays.keep {donor host : Attempt ν} (h : donor.Replays host) (hs : donor.steps ≠ [])
    {x : Action} (hx : ∀ key ∈ x.vars.keys, isCachedKey key = false) {b : Behaviour}
    (hb : donor.behaviour = some b) {d : Draft ν}
    (hd : b.rule donor (Draft.new x.vars x.time x.actor) = .ok (.keep d))
    (hm : host.maxMark = donor.maxMark ∨ (donor.keep d).MarksAreAbsolute) :
    (donor.keep d).Replays host := by
  have hfollows := Behaviour.rule_follows hd
  have hsent : d.vars.submitted = x.vars :=
    hfollows.submitted.trans (Vars.submitted_eq_self hx)
  have hdraft : Draft.new (ν := ν) d.vars.submitted d.time d.actor =
      Draft.new x.vars x.time x.actor := by
    rw [hsent, hfollows.time, hfollows.actor]
    simp [Draft.new]
  have habsolute : host.maxMark = donor.maxMark ∨
      (b.takesComment x.vars && x.vars.hasRelativeMark) = false := by
    refine hm.imp_right fun hm => ?_
    have hlast : d.record ∈ (donor.keep d).steps.tail := by
      simp only [Attempt.keep, record, List.tail_append_of_ne_nil hs]
      exact List.mem_append_right _ List.mem_cons_self
    have habs := hm b hb _ hlast
    simp only [Draft.record] at habs
    rw [← hsent, Behaviour.takesComment_submitted, Vars.hasRelativeMark_submitted]
    exact habs
  intro draw
  obtain ⟨hok, hstate⟩ := h draw
  obtain ⟨hresult', hstate'⟩ :=
    replay_append donor (donor.keep d) rfl hs rfl hok
  have hrule : b.rule (donor.inPlaceOf host) (Draft.new d.vars.submitted d.time d.actor) =
      .ok (.keep d) := by
    rw [hdraft, Behaviour.rule_inPlaceOf b donor host habsolute, hd]
  obtain ⟨hkept, hkeep⟩ := act_of_keep (a := donor.inPlaceOf host) hb hrule
  rw [hresult', hstate', hstate]
  simp only [replayStep, Draft.record]
  exact ⟨by rw [hkept]; rfl, by rw [hkeep]; rfl⟩

/-- Whatever becomes of an action, the history after it is replayed if the history before it was. -/
lemma Replays.afterAction {donor host : Attempt ν} (h : donor.Replays host) (hs : donor.steps ≠ [])
    {x : Action} (hx : ∀ key ∈ x.vars.keys, isCachedKey key = false)
    (hm : host.maxMark = donor.maxMark ∨ (donor.afterAction x).MarksAreAbsolute) :
    (donor.afterAction x).Replays host := by
  unfold Attempt.afterAction at hm ⊢
  obtain ⟨hstate, -⟩ | ⟨b, d, hb, hd, hstate, -⟩ := act_cases donor x.vars x.time x.actor
  · rw [hstate]
    exact h
  · rw [hstate] at hm ⊢
    exact h.keep hs hx hb hd hm

/-- Marks are absolute in a history of actions that all say out of how many their mark is. -/
lemma marksAreAbsolute_afterActions {a : Attempt ν} {first : Step ν} (ha : a.steps = [first])
    {log : List Action} (hlog : ∀ x ∈ log, x.vars.hasRelativeMark = false) :
    (a.afterActions log).MarksAreAbsolute := by
  obtain ⟨-, later, hlater, hfrom⟩ := afterActions_frame a log
  intro b _ step hstep
  rw [hlater, ha] at hstep
  obtain ⟨x, hx, hsubmitted⟩ := hfrom step hstep
  rw [← Vars.hasRelativeMark_submitted, hsubmitted, Vars.hasRelativeMark_submitted, hlog x hx,
    Bool.and_false]

/-- A run of actions is replayed. -/
lemma Replays.afterActions {a host : Attempt ν} (h : a.Replays host) (hs : a.steps ≠ [])
    {log : List Action} (hlog : ∀ x ∈ log, ∀ key ∈ x.vars.keys, isCachedKey key = false)
    (hm : host.maxMark = a.maxMark ∨ (a.afterActions log).MarksAreAbsolute) :
    (a.afterActions log).Replays host := by
  induction log using List.reverseRecOn with
  | nil => exact h
  | append_singleton log x ih =>
    obtain ⟨hmax, later, hlater, -⟩ := afterActions_frame a log
    have hne : (a.afterActions log).steps ≠ [] := by simp [hlater, hs]
    rw [afterActions_append] at hm ⊢
    refine Replays.afterAction (ih (fun y hy => hlog y (List.mem_append_left _ hy)) ?_) hne
      (hlog x (List.mem_append_right _ List.mem_cons_self)) (hmax ▸ hm)
    exact hm.imp_right fun hm => hm.of_afterAction hne

/-- A comment that is made by grading says out of how many its mark is. -/
lemma hasRelativeMark_gradeVars (comment : String) (mark : Option ν) (a : Attempt ν) :
    (gradeVars comment mark a).hasRelativeMark = false := by
  cases mark with
  | none =>
    have hmark : (gradeVars comment none a).behaviour? "mark" = none := by
      simp [gradeVars, Vars.behaviour?, SortedMap.ofList, SortedMap.get?_insert, Owner.key]
    simp [Vars.hasRelativeMark, hmark]
  | some mark =>
    have hmax : (gradeVars comment (some mark) a).hasBehaviour "maxmark" = true := by
      simp [gradeVars, Vars.hasBehaviour, Vars.behaviour?, SortedMap.ofList, Owner.key]
    simp [Vars.hasRelativeMark, hmax]

/-- Replaying reproduces the history.  An attempt that was started under a behaviour that can replay,
and then was sent any actions without cached variables of their own, is replayed on a fresh attempt
at the same question to the same steps, least fraction and response summary.  The fresh attempt may
have other marks when every comment in the history says out of how many its mark is.  Replaying the
result gives it once more. -/
theorem replay_reproduces (q : Question ν) (usageId usageId' : String) (slot slot' : Nat)
    (maxMark maxMark' : Option ν) (o : Opening) (ho : o.behaviour.canRegrade = true)
    (log : List Action) (hlog : ∀ x ∈ log, ∀ key ∈ x.vars.keys, isCachedKey key = false)
    (hm : maxMark'.getD q.defaultMark = maxMark.getD q.defaultMark ∨
      (((new q usageId slot maxMark).opened o).afterActions log).MarksAreAbsolute)
    (draw draw' : Draw) :
    let donor := ((new q usageId slot maxMark).opened o).afterActions log
    let host := new q usageId' slot' maxMark'
    let replayed := replay donor draw host
    let again := replay replayed.state draw' host
    replayed.result = .ok () ∧
      replayed.state.steps = donor.steps ∧
      replayed.state.minFraction = donor.minFraction ∧
      replayed.state.responseSummary = donor.responseSummary ∧
      again.result = .ok () ∧ again.state = replayed.state := by
  intro donor host replayed again
  have hfresh := isFresh_new q usageId slot maxMark
  have hopened := Replays.opened hfresh (isFresh_new q usageId' slot' maxMark') ho
  obtain ⟨hmax, first, hfirst⟩ := exists_steps_opened hfresh o
  have hdonor : donor.Replays host :=
    hopened.afterActions (by simp [hfirst]) hlog (hm.imp_left fun hm => hm.trans hmax.symm)
  have hok : replayed.result = .ok () := (hdonor draw).1
  have hstate : replayed.state = donor.inPlaceOf host := (hdonor draw).2
  -- in the place of the host the donor has the same history, so it is replayed there once more
  have hagain : replayed.state.Replays host := hstate ▸ hdonor
  refine ⟨hok, by rw [hstate]; rfl, by rw [hstate]; rfl, by rw [hstate]; rfl, (hagain draw').1, ?_⟩
  calc again.state = replayed.state.inPlaceOf host := (hagain draw').2
    _ = replayed.state := by rw [hstate]; rfl

/-- A statement judged and then graded by a person, replayed out of five marks instead of two. -/
theorem replay_reproduces_graded :
    let q : Question Float := .trueFalse (TrueFalse.new "q1" "The sky is blue" true)
    let o : Opening := ⟨.immediate, SortedMap.empty, ⟨0⟩, none, ⟨0, 0⟩⟩
    let log : List Action :=
      [⟨SortedMap.ofList [("answer", "0"), ("-submit", "1")], ⟨1500⟩, some "ada"⟩,
        ⟨SortedMap.ofList [("-comment", "Nearly"), ("-mark", "1"), ("-maxmark", "2")], ⟨2500⟩,
          some "bob"⟩]
    let donor := ((new q "u" 1 (some 2.0)).opened o).afterActions log
    let replayed := replay donor ⟨1, 1⟩ (new q "v" 3 (some 5.0))
    (∀ x ∈ log, ∀ key ∈ x.vars.keys, isCachedKey key = false) ∧ donor.MarksAreAbsolute ∧
      replayed.result = .ok () ∧ replayed.state.steps = donor.steps := by
  intro q o log donor replayed
  have hlog : ∀ x ∈ log, ∀ key ∈ x.vars.keys, isCachedKey key = false := by decide
  obtain ⟨-, first, hfirst⟩ := exists_steps_opened (isFresh_new q "u" 1 (some 2.0)) o
  have habsolute : donor.MarksAreAbsolute :=
    marksAreAbsolute_afterActions hfirst (by decide)
  have h := replay_reproduces q "u" "v" 1 3 (some 2.0) (some 5.0) o rfl log hlog (.inr habsolute)
    ⟨1, 1⟩ ⟨2, 2⟩
  exact ⟨hlog, habsolute, h.1, h.2.1⟩

end Attempt
end Assessment
