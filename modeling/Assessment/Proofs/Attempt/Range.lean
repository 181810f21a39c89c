import Assessment.Proofs.Attempt.History
import Assessment.Proofs.Behaviour.Earnings

/-!
# Fractions stay in range

In exact numbers every fraction that is ever recorded on an attempt at a modest question lies between
the least fraction of the attempt, which is fixed when it is started, and one
(`Attempt.fractions_in_range`).

The invariant (`Attempt.InRange`) carries besides the steps what the next ruling looks at: the
question and the behaviour that the least fraction was computed from, the least fraction itself, and
marks that are rational.  A remark repeats a fraction that is in range already; an award is checked
against the least fraction; and what a graded response earns is bounded by the choice of the least
fraction.

The actions may submit anything, cached variables included, and a grade given by a person is an
action like any other.
-/

namespace Assessment

open Exact

variable {script : Script}

namespace Attempt

/-- An attempt at a question under a behaviour, with rational marks and a least fraction that bounds
all of its fractions. -/
structure InRange (a : Attempt (Exact script)) (q : Question (Exact script)) (b : Behaviour)
    (least : ℚ) : Prop where
  question : a.question = q
  behaviour : a.behaviour = some b
  maxMark : ∃ m, a.maxMark = rational m
  minFraction : a.minFraction = some (rational least)
  steps : ∀ step ∈ a.steps, ∀ x, step.fraction = some x → x.Within least

/-- The fraction of the attempt itself is in range. -/
lemma InRange.fraction {a : Attempt (Exact script)} {q : Question (Exact script)} {b : Behaviour}
    {least : ℚ} (ha : a.InRange q b least) {x : Exact script} (hx : a.fraction = some x) :
    x.Within least := by
  obtain ⟨step, hlast, hstep⟩ := Option.bind_eq_some_iff.1 hx
  exact ha.steps step (mem_steps_of_last? hlast) x hstep

/-- Opening a fresh attempt with rational marks fixes a least fraction of at most zero. -/
lemma InRange.opened {a : Attempt (Exact script)} {q : Question (Exact script)} (ha : a.IsFresh q)
    (hmax : ∃ m, a.maxMark = rational m) (o : Opening) {least : ℚ}
    (hb : o.behaviour.Bounds q least) :
    (a.opened o).InRange q o.behaviour least := by
  have hopened := isOpened_opened ha o
  obtain ⟨first, hsteps, -, hfraction⟩ := hopened.steps
  obtain ⟨hmark, -⟩ := exists_steps_opened ha o
  refine ⟨hopened.question, hopened.behaviour, hmark ▸ hmax, ?_, fun step hstep x hx => ?_⟩
  · rw [hopened.minFraction, hb.minFraction]
  · rw [hsteps] at hstep
    obtain rfl := List.mem_singleton.1 hstep
    rw [hfraction] at hx
    cases hx

/-- A kept draft keeps the range, whichever verdict it follows. -/
lemma InRange.keep {a : Attempt (Exact script)} {q : Question (Exact script)} {b : Behaviour}
    {least : ℚ} (ha : a.InRange q b least) (hb : b.Bounds q least) {d d' : Draft (Exact script)}
    (hd : d.fraction = none) (h : b.rule a d = .ok (.keep d')) :
    (a.keep d').InRange q b least := by
  have hrecorded : ∀ x, d'.fraction = some x → x.Within least := by
    intro x hx
    cases Behaviour.rule_verdict hd h with
    | remark _ _ hfraction => exact ha.fraction (hfraction ▸ hx)
    | award _ _ text fraction haward _ hfraction =>
      rw [hfraction] at hx
      cases hx
      exact Ruling.award_within ha.minFraction hb.nonpos ha.maxMark haward
    | move _ _ hmoves =>
      cases hmoves with
      | grade response earned hr hearned _ hfraction =>
        rw [hfraction] at hx
        cases hx
        rw [ha.question] at hr hearned
        exact hb.earns ha.question hr hearned
      | leave _ hfraction =>
        rw [hfraction] at hx
        cases hx
  refine ⟨ha.question, ha.behaviour, ha.maxMark, ha.minFraction, fun step hstep => ?_⟩
  rcases mem_steps_keep.1 hstep with hstep | rfl
  · exact ha.steps step hstep
  · exact hrecorded

/-- Fractions stay in range.  In exact numbers, however they are read and written, an attempt at a
modest question that is started in any way and then sent any actions has the least fraction that was
fixed when it was started, and every fraction recorded on it lies between that and one. -/
theorem fractions_in_range (script : Script) (q : Question (Exact script)) (hq : q.IsModest)
    (usageId : String) (slot : Nat) (maxMark : Option ℚ) (o : Opening) (log : List Action) :
    let started := (new q usageId slot (maxMark.map rational)).opened o
    let a := started.afterActions log
    ∃ least : ℚ, started.minFraction = some (rational least) ∧
      a.minFraction = some (rational least) ∧
      ∀ step ∈ a.steps, ∀ x, step.fraction = some x →
        ∃ r, x = rational r ∧ least ≤ r ∧ r ≤ 1 := by
  intro started a
  have hmax : ∃ m, (new q usageId slot (maxMark.map rational)).maxMark = rational m := by
    cases maxMark with
    | none => exact hq.mark
    | some m => exact ⟨m, rfl⟩
  obtain ⟨least, hbounds⟩ := Behaviour.exists_bounds o.behaviour hq
  have hstarted : started.InRange q o.behaviour least :=
    InRange.opened (isFresh_new q usageId slot _) hmax o hbounds
  have ha : a.InRange q o.behaviour least := by
    refine afterActions_keeps (P := fun a => a.InRange q o.behaviour least) ?_ hstarted
    intro x _ a b d ha hb hd
    obtain rfl : b = o.behaviour := Option.some.inj (hb.symm.trans ha.behaviour)
    exact ha.keep hbounds rfl hd
  exact ⟨least, hstarted.minFraction, ha.minFraction, ha.steps⟩

/-- A wrong answer that costs half a mark, given with high certainty, is as far down as it goes. -/
theorem fractions_in_range_certain :
    let q : Question (Exact .decimal) := .multiChoice (MultiChoice.new "q1" "Pick the prime"
      [⟨"4", rational (-1 / 2), none⟩, ⟨"7", rational 1, none⟩])
    let o : Opening := ⟨.certainty, SortedMap.empty, ⟨0⟩, none, ⟨0, 0⟩⟩
    let log : List Action :=
      [⟨SortedMap.ofList [("answer", "0"), ("-certainty", "3"), ("-submit", "1")], ⟨1500⟩, none⟩]
    let a := ((new q "u" 1 none).opened o).afterActions log
    q.IsModest ∧ a.fraction = some (rational (-7 / 2)) ∧
      ∀ step ∈ a.steps, ∀ x, step.fraction = some x →
        ∃ r, x = rational r ∧ -7 / 2 ≤ r ∧ r ≤ 1 := by
  intro q o log a
  have hq : q.IsModest := by
    refine ⟨fun o => by simp [q], ⟨1, one_eq⟩, ⟨_, ofScientific_eq _ _ _, by norm_num⟩, ?_⟩
    simp only [q, Question.answerFractions, MultiChoice.new, List.map_cons, List.map_nil,
      List.forall_mem_cons, List.not_mem_nil, false_implies, implies_true, and_true]
    exact ⟨⟨_, rfl, by norm_num⟩, ⟨_, rfl, le_rfl⟩⟩
  obtain ⟨least, hstarted, -, hsteps⟩ := fractions_in_range .decimal q hq "u" 1 none o log
  have hraw : q.minFraction = rational (-1 / 2) := by
    simp only [q, Question.minFraction, MultiChoice.minFraction, MultiChoice.new, List.foldl_cons,
      List.foldl_nil, zero_eq, least_rational]
    norm_num
  have hleast : Behaviour.certainty.minFraction q = rational (-7 / 2) := by
    rw [Behaviour.minFraction, hraw, Certainty.adjust_rational, Certainty.scale]
    norm_num
  rw [Option.map_none, (isOpened_opened (isFresh_new q "u" 1 none) o).minFraction, hleast] at hstarted
  cases hstarted
  have hfraction : a.fraction = some (rational (-7 / 2)) := by decide +kernel
  exact ⟨hq, hfraction, hsteps⟩

end Attempt
end Assessment
