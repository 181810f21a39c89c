import Assessment.Proofs.Attempt.History

/-!
# Saving the same again

Four behaviours save answers and are meant to discard one that is saved already
(`Behaviour.savesAnswers`).  What they compare with is not the latest step.  It is the latest response
that has a field, and under certainty also the latest certainty that was said: what a later step
leaves out is still there.

So saving the same variables twice is discarded the second time exactly when the first time was
discarded or the attempt then finds in its history what was saved (`Attempt.Recalls`,
`Attempt.save_again_discarded_iff`).  It does so whenever the variables have an answer and, under
certainty, say how sure the learner is.  An emptied answer it does not find: it is kept each time
(`Attempt.emptied_answer_kept_again`).
-/

namespace Assessment

variable {ν : Type}

/-- Whether an action neither comments nor finishes nor submits. -/
def Vars.onlySaves (vars : Vars) : Bool :=
  !(vars.hasBehaviour "comment" || vars.hasBehaviour "finish" || vars.hasBehaviour "submit")

lemma Question.isSame_self (q : Question ν) (response : Vars) : q.isSame response response = true := by
  cases q <;> simp [isSame, sameAnswers]

/-! ## What is found in the history -/

namespace Attempt

lemma latestFirst_keep (a : Attempt ν) (d : Draft ν) :
    (a.keep d).latestFirst = d.record :: a.latestFirst := by
  simp [latestFirst, keep, record]

/-- A kept step without a field of the question leaves the response as it was. -/
lemma response_keep (a : Attempt ν) (d : Draft ν) :
    (a.keep d).response =
      if d.vars.questionPart.isEmpty then a.response else d.vars.questionPart := by
  have hvars : d.record.vars = d.vars := rfl
  rw [response, latestFirst_keep, List.map_cons, List.find?_cons, hvars]
  cases d.vars.questionPart.isEmpty <;> rfl

lemma behaviour?_keep (a : Attempt ν) (d : Draft ν) (name : String) :
    (a.keep d).behaviour? name = (d.vars.behaviour? name).or (a.behaviour? name) := by
  have hvars : d.record.vars = d.vars := rfl
  rw [behaviour?, latestFirst_keep, List.findSome?_cons, hvars]
  cases d.vars.behaviour? name <;> rfl

/-- Whether the attempt finds `vars` in its history once it has saved them: they have a field of the
question or the attempt has no other response, and under certainty they say one or none was said. -/
structure Recalls (a : Attempt ν) (b : Behaviour) (vars : Vars) : Prop where
  response : vars.questionPart.isEmpty = false ∨ a.question.isSame a.response vars.questionPart = true
  certainty : b = .certainty →
    vars.hasBehaviour "certainty" = true ∨ a.behaviour? "certainty" = none

lemma isSame_keep_iff (a : Attempt ν) (d : Draft ν) :
    (a.keep d).question.isSame (a.keep d).response d.vars.questionPart = true ↔
      d.vars.questionPart.isEmpty = false ∨
        a.question.isSame a.response d.vars.questionPart = true := by
  have hquestion : (a.keep d).question = a.question := rfl
  rw [hquestion, response_keep]
  cases hempty : d.vars.questionPart.isEmpty with
  | true => simp
  | false => simp [Question.isSame_self]

lemma behaviour?_keep_eq_iff (a : Attempt ν) (d : Draft ν) (name : String) :
    (a.keep d).behaviour? name = d.vars.behaviour? name ↔
      d.vars.hasBehaviour name = true ∨ a.behaviour? name = none := by
  rw [behaviour?_keep, Vars.hasBehaviour]
  cases d.vars.behaviour? name <;> simp

end Attempt

/-! ## Saving -/

namespace Behaviour

/-- The behaviours that save answers and recognise a repeated one by the answer. -/
def savesAnswers : Behaviour → Bool
  | deferred | immediate | certainty | manual => true
  | interactive | information | adaptive _ | missing _ => false

variable [Scalar ν] {b : Behaviour} {a : Attempt ν} {d d' : Draft ν}

/-- Repetition is recognised by the variables. -/
lemma isSame_congr (b : Behaviour) (a : Attempt ν) (h : d'.vars = d.vars) :
    b.isSame a d' = b.isSame a d := by
  cases b <;> simp only [isSame, Certainty.isSame, Sameness.holds, h]

lemma rule_of_onlySaves (hb : b.savesAnswers = true) (hd : d.vars.onlySaves = true)
    (a : Attempt ν) : b.rule a d = .ok (b.onSave a d) := by
  have hasks : ∀ name ∈ ["comment", "finish", "submit"], Ruling.asks d name = false := by
    simpa [Vars.onlySaves, Ruling.asks, and_assoc] using hd
  have hcomment := hasks "comment" (by simp)
  have hfinish := hasks "finish" (by simp)
  have hsubmit := hasks "submit" (by simp)
  cases b with
  | deferred | immediate | certainty | manual =>
    simp only [rule, hcomment, hfinish, hsubmit, Bool.false_eq_true, if_false]
  | _ => cases hb

/-- An answer that repeats the recorded one is not saved. -/
lemma onSave_of_isSame (hb : b.savesAnswers = true) (h : b.isSame a d = true) :
    b.onSave a d = .discard := by
  cases b with
  | certainty =>
    have hsame : Certainty.isSame a d = true := h
    simp [onSave, Certainty.save, Ruling.save, hsame]
  | deferred | immediate | manual => simp [onSave, Ruling.save, h]
  | _ => cases hb

omit [Scalar ν] in
/-- An open attempt saves what it has not recorded yet, as it was sent, and stays open. -/
lemma save_of_open (ha : a.state.isFinished = false) :
    ∃ d', Ruling.save false a d = .keep d' ∧ d'.vars = d.vars ∧ d'.state.isFinished = false := by
  simp only [Ruling.save, ha, Bool.or_self, Bool.false_eq_true, if_false]
  refine ⟨_, rfl, rfl, ?_⟩
  simp only [Draft.summarised, Draft.withState]
  split <;> rfl

/-- Any other answer is saved, unless the attempt is finished. -/
lemma onSave_of_not_isSame (hb : b.savesAnswers = true) (ha : a.state.isFinished = false)
    (h : b.isSame a d = false) :
    ∃ d', b.onSave a d = .keep d' ∧ d'.vars = d.vars ∧ d'.state.isFinished = false := by
  obtain ⟨d', hd', hvars, hopen⟩ := save_of_open (d := d) ha
  cases b with
  | certainty =>
    have hdiffers : Certainty.isSame a d = false := h
    simp only [onSave, Certainty.save, hdiffers, hd']
    split
    · exact ⟨d'.withState .todo, rfl, hvars, rfl⟩
    · exact ⟨d', rfl, hvars, hopen⟩
  | deferred | immediate | manual =>
    simp only [onSave, h]
    exact ⟨d', hd', hvars, hopen⟩
  | _ => cases hb

/-- A finished attempt saves nothing. -/
lemma onSave_of_isFinished (hb : b.savesAnswers = true) (ha : a.state.isFinished = true) :
    b.onSave a d = .discard := by
  cases b with
  | certainty => simp [onSave, Certainty.save, Ruling.save, ha]
  | deferred | immediate | manual => simp [onSave, Ruling.save, ha]
  | _ => cases hb

/-- Whether what was saved is taken for a repetition when it comes again. -/
lemma isSame_keep_iff_recalls (hb : b.savesAnswers = true) (hvars : d'.vars = d.vars) :
    b.isSame (a.keep d') d = true ↔ a.Recalls b d.vars := by
  have hanswer := a.isSame_keep_iff d'
  have hcertainty := a.behaviour?_keep_eq_iff d' "certainty"
  rw [hvars] at hanswer hcertainty
  cases b with
  | certainty =>
    simp only [isSame, Certainty.isSame, Sameness.holds, Bool.and_eq_true, beq_iff_eq, hanswer,
      hcertainty]
    exact ⟨fun h => ⟨h.1, fun _ => h.2⟩, fun h => ⟨h.response, h.certainty rfl⟩⟩
  | deferred | immediate | manual =>
    simp only [isSame, sameness, Sameness.holds, hanswer]
    exact ⟨fun h => ⟨h, fun heq => nomatch heq⟩, Attempt.Recalls.response⟩
  | _ => cases hb

end Behaviour

/-! ## Saving twice -/

namespace Attempt

variable [Scalar ν] {a : Attempt ν} {b : Behaviour} {vars : Vars}

/-- What becomes of an action that only saves: a finished attempt and one that has the answer already
discard it, and any other keeps it and stays open. -/
lemma act_of_onlySaves (hb : a.behaviour = some b) (hsaves : b.savesAnswers = true)
    (hvars : vars.onlySaves = true) (time : Instant) (actor : Option String) :
    ((a.state.isFinished = true ∨ b.isSame a (Draft.new vars time actor) = true) ∧
      (act vars time actor a).result = .ok .discarded ∧ (act vars time actor a).state = a) ∨
    (a.state.isFinished = false ∧ b.isSame a (Draft.new vars time actor) = false ∧
      (act vars time actor a).result = .ok .kept ∧
      ∃ d : Draft ν, (act vars time actor a).state = a.keep d ∧ d.vars = vars ∧
        d.state.isFinished = false) := by
  have hrule := Behaviour.rule_of_onlySaves (d := Draft.new vars time actor) hsaves hvars a
  by_cases hwhy : a.state.isFinished = true ∨ b.isSame a (Draft.new vars time actor) = true
  · have hdiscard : b.onSave a (Draft.new vars time actor) = .discard :=
      hwhy.elim (Behaviour.onSave_of_isFinished hsaves) (Behaviour.onSave_of_isSame hsaves)
    rw [hdiscard] at hrule
    obtain ⟨hresult, hstate, -⟩ := act_of_discard hb hrule
    exact .inl ⟨hwhy, hresult, hstate⟩
  · simp only [not_or, Bool.not_eq_true] at hwhy
    obtain ⟨d, hd, hdvars, hopen⟩ := Behaviour.onSave_of_not_isSame hsaves hwhy.1 hwhy.2
    rw [hd] at hrule
    obtain ⟨hresult, hstate⟩ := act_of_keep hb hrule
    exact .inr ⟨hwhy.1, hwhy.2, hresult, d, hstate, hdvars, hopen⟩

/-- Saving the same variables twice.  Neither save fails.  The second is discarded, and changes
nothing, exactly when the first was or the attempt recalls what was saved; otherwise both are kept
and each adds a step. -/
theorem save_again_discarded_iff (hb : a.behaviour = some b) (hsaves : b.savesAnswers = true)
    (hvars : vars.onlySaves = true) (time time' : Instant) (actor actor' : Option String) :
    let first := act vars time actor a
    let second := act vars time' actor' first.state
    (second.result = .ok .discarded ↔ first.result = .ok .discarded ∨ a.Recalls b vars) ∧
      (second.result = .ok .discarded → second.state = first.state) ∧
      (second.result ≠ .ok .discarded → first.result = .ok .kept ∧ second.result = .ok .kept ∧
        second.state.steps.length = a.steps.length + 2) := by
  intro first second
  obtain ⟨hwhy, hresult, hstate⟩ | ⟨-, -, hresult, d, hstate, hdvars, hdopen⟩ :=
    act_of_onlySaves hb hsaves hvars time actor
  · -- the attempt is as it was, so what made it discard the first save makes it discard the second
    have hagain : b.isSame a (Draft.new vars time' actor') = b.isSame a (Draft.new vars time actor) :=
      b.isSame_congr a rfl
    have hwhy' : a.state.isFinished = true ∨ b.isSame a (Draft.new vars time' actor') = true := by
      rwa [hagain]
    have hsecond : second.result = .ok .discarded ∧ second.state = a := by
      simp only [second, first, hstate]
      obtain ⟨-, h⟩ | ⟨hopen, hdiffers, -⟩ := act_of_onlySaves hb hsaves hvars time' actor'
      · exact h
      · simp [hopen, hdiffers] at hwhy'
    exact ⟨⟨fun _ => .inl hresult, fun _ => hsecond.1⟩, fun _ => hsecond.2.trans hstate.symm,
      fun hne => absurd hsecond.1 hne⟩
  · have hrecalls : b.isSame (a.keep d) (Draft.new vars time' actor') = true ↔ a.Recalls b vars :=
      Behaviour.isSame_keep_iff_recalls hsaves hdvars
    have hb' : (a.keep d).behaviour = some b := hb
    have hopen : (a.keep d).state.isFinished = false := by rw [state_keep, hdopen]
    simp only [second, first, hstate, hresult, ← hrecalls]
    obtain ⟨hwhy, hresult', hstate'⟩ | ⟨-, hdiffers, hresult', d', hstate', -, -⟩ :=
      act_of_onlySaves hb' hsaves hvars time' actor'
    · have hsame := hwhy.resolve_left (Bool.eq_false_iff.1 hopen)
      exact ⟨⟨fun _ => .inr hsame, fun _ => hresult'⟩, fun _ => hstate',
        fun hne => absurd hresult' hne⟩
    · have hlength : ((a.keep d).keep d').steps.length = a.steps.length + 2 := by
        simp [keep, record]
      simp only [hresult', hdiffers, hstate', hlength]
      simp

/-- A statement answered with certainty: the same answer with the same certainty is saved once. -/
theorem save_again_discarded_iff_sure :
    let q : Question Float := .trueFalse (TrueFalse.new "q1" "The sky is blue" true)
    let o : Opening := ⟨.certainty, SortedMap.empty, ⟨0⟩, none, ⟨0, 0⟩⟩
    let a := (new q "u" 1 none).opened o
    let vars : Vars := SortedMap.ofList [("answer", "1"), ("-certainty", "2")]
    let first := act vars ⟨1500⟩ (some "ada") a
    first.result = .ok .kept ∧
      (act vars ⟨2500⟩ (some "ada") first.state).result = .ok .discarded := by
  intro q o a vars first
  have hopened := isOpened_opened (isFresh_new q "u" 1 none) o
  have hrecalls : a.Recalls .certainty vars := ⟨.inl (by decide), fun _ => .inl (by decide)⟩
  have hvars : vars.onlySaves = true := by decide
  obtain ⟨hiff, -⟩ := save_again_discarded_iff hopened.behaviour rfl hvars ⟨1500⟩ ⟨2500⟩ (some "ada")
    (some "ada")
  exact ⟨rfl, hiff.2 (.inr hrecalls)⟩

/-- An answer that was emptied is kept each time it is saved: the attempt still finds the answer
before it. -/
theorem emptied_answer_kept_again :
    let q : Question Float := .trueFalse (TrueFalse.new "q1" "The sky is blue" true)
    let o : Opening := ⟨.deferred, SortedMap.empty, ⟨0⟩, none, ⟨0, 0⟩⟩
    let a := ((new q "u" 1 none).opened o).afterActions
      [⟨SortedMap.ofList [("answer", "1")], ⟨1500⟩, some "ada"⟩]
    let first := act SortedMap.empty ⟨2500⟩ (some "ada") a
    let second := act SortedMap.empty ⟨3500⟩ (some "ada") first.state
    Vars.onlySaves SortedMap.empty = true ∧ a.behaviour = some .deferred ∧ a.steps.length = 2 ∧
      second.result = .ok .kept ∧ second.state.steps.length = 4 := by
  intro q o a first second
  exact ⟨by decide +kernel, by decide +kernel, by decide +kernel, by decide +kernel,
    by decide +kernel⟩

end Attempt
end Assessment
