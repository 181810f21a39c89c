import Assessment.Proofs.Behaviour.Verdict
import Assessment.Proofs.Number.Exact
import Mathlib.Tactic.Linarith
import Mathlib.Tactic.Ring

/-!
# What a response earns, in exact numbers

A question is *modest* (`Question.IsModest`) when its numbers are rational, no answer earns more than
one, and a further try is not rewarded.  The raw fraction of a response to a modest question lies
between its least fraction and one (`Question.exists_least`).  Four formulas turn a raw fraction into
the one that is recorded: it is taken as it is, moved by a certainty, cut by a penalty for the tries
used, or replaced by a person's mark.  All of them stay between one and the least fraction that the
behaviour fixed at the start (`Behaviour.exists_bounds`, `Ruling.award_within`).
-/

namespace Assessment

open Exact

variable {script : Script}

/-- A rational number from `least` to one. -/
def Exact.Within (least : ℚ) (x : Exact script) : Prop :=
  ∃ r, x = rational r ∧ least ≤ r ∧ r ≤ 1

/-! ## Raw fractions -/

/-- The fractions that the definition of a question gives to its answers. -/
def Question.answerFractions {ν : Type} : Question ν → List ν
  | multiChoice q => q.choices.map Choice.fraction
  | _ => []

/-- A question of one of the four types with rational numbers, answer fractions of at most one and no
reward for a further try. -/
structure Question.IsModest (q : Question (Exact script)) : Prop where
  builtIn : ∀ o, q ≠ .openAnswer o
  mark : ∃ r, q.defaultMark = rational r
  penalty : ∃ r, q.penalty = rational r ∧ 0 ≤ r
  fractions : ∀ x ∈ q.answerFractions, ∃ r, x = rational r ∧ r ≤ 1

/-- The least of a list of rational numbers and a first one is at most each of them. -/
lemma exists_foldl_least {choices : List (Choice (Exact script))}
    (h : ∀ c ∈ choices, ∃ r, c.fraction = rational r ∧ r ≤ 1) (first : ℚ) :
    ∃ least, choices.foldl (fun least c => Scalar.least least c.fraction) (rational first) =
      rational least ∧ least ≤ first ∧ ∀ c ∈ choices, c.fraction.Within least := by
  induction choices generalizing first with
  | nil => exact ⟨first, rfl, le_rfl, by simp⟩
  | cons c rest ih =>
    obtain ⟨r, hr, hr1⟩ := h c List.mem_cons_self
    obtain ⟨least, hleast, hle, hrest⟩ :=
      ih (fun c hc => h c (List.mem_cons_of_mem _ hc)) (min first r)
    refine ⟨least, ?_, hle.trans (min_le_left _ _), List.forall_mem_cons.2 ⟨?_, hrest⟩⟩
    · rw [List.foldl_cons, hr, least_rational, hleast]
    · exact ⟨r, hr, hle.trans (min_le_right _ _), hr1⟩

/-- The answer that a gradable response chooses is one of those on offer, with its fraction. -/
lemma MultiChoice.exists_choice {ν : Type} [Scalar ν] {q : MultiChoice ν} {response : Vars}
    (h : (q.chosen? response).isSome = true) : ∃ c ∈ q.choices, q.fraction response = c.fraction := by
  obtain ⟨c, hc⟩ := Option.isSome_iff_exists.1 h
  refine ⟨c, ?_, by simp [fraction, hc]⟩
  obtain ⟨place, -, hplace⟩ := Option.bind_eq_some_iff.1 hc
  exact List.mem_of_getElem? hplace

/-- Raw fractions lie between the least fraction of the question and one. -/
lemma Question.exists_least {q : Question (Exact script)} (hq : q.IsModest) :
    ∃ least : ℚ, q.minFraction = rational least ∧ least ≤ 0 ∧
      ∀ response, q.isGradable response = true → (q.grade response).1.Within least := by
  cases q with
  | trueFalse q =>
    refine ⟨0, zero_eq, le_rfl, fun response _ => ?_⟩
    show (q.fraction response).Within 0
    unfold TrueFalse.fraction
    split
    · exact ⟨1, one_eq, by norm_num, le_rfl⟩
    · exact ⟨0, zero_eq, le_rfl, by norm_num⟩
  | multiChoice q =>
    have hfractions : ∀ c ∈ q.choices, ∃ r, c.fraction = rational r ∧ r ≤ 1 := fun c hc =>
      hq.fractions _ (List.mem_map_of_mem hc)
    obtain ⟨least, hleast, hle, hwithin⟩ := exists_foldl_least hfractions 0
    refine ⟨least, by rw [← hleast, ← zero_eq]; rfl, hle, fun response hr => ?_⟩
    obtain ⟨c, hc, heq⟩ := MultiChoice.exists_choice hr
    show (q.fraction response).Within least
    rw [heq]
    exact hwithin c hc
  | essay q => exact ⟨0, zero_eq, le_rfl, fun response hr => by cases hr⟩
  | description q => exact ⟨0, zero_eq, le_rfl, fun response hr => by cases hr⟩
  | openAnswer q => exact absurd rfl (hq.builtIn q)

/-! ## Certainty -/

namespace Certainty

/-- What a certainty makes of a raw fraction. -/
def scale : Certainty → ℚ → ℚ
  | low, raw => raw / 3
  | medium, raw => (4 * raw - 2) / 3
  | high, raw => 3 * raw - 2

lemma adjust_rational (c : Certainty) (raw : ℚ) :
    c.adjust (rational raw : Exact script) = rational (c.scale raw) := by
  unfold adjust
  cases c with
  | low =>
    simp only [offset, factor, ofScientific_eq, scale]
    rw [rational_div _ (by norm_num), rational_mul, rational_add]
    congr 1
    norm_num
    ring
  | medium =>
    simp only [offset, factor, ofScientific_eq, neg_rational, scale]
    rw [rational_div _ (by norm_num), rational_div _ (by norm_num), rational_mul, rational_add]
    congr 1
    norm_num
    ring
  | high =>
    simp only [offset, factor, ofScientific_eq, neg_rational, scale, rational_mul, rational_add]
    congr 1
    norm_num
    ring

/-- No certainty earns more than one or less than the highest certainty does for the worst answer. -/
lemma scale_within (c : Certainty) {least raw : ℚ} (h0 : least ≤ 0) (hleast : least ≤ raw)
    (hraw : raw ≤ 1) : high.scale least ≤ c.scale raw ∧ c.scale raw ≤ 1 := by
  cases c <;> simp only [scale] <;> constructor <;> linarith

end Certainty

/-! ## Tries -/

/-- A penalty takes nothing from a fraction below zero, and leaves at least zero of another. -/
lemma Interactive.penalised_within {a : Attempt (Exact script)} {penalty : ℚ}
    (hp : a.question.penalty = rational penalty) (h0 : 0 ≤ penalty) {least : ℚ} (hl : least ≤ 0)
    {x : Exact script} (hx : x.Within least) (left : Nat) : (penalised a x left).Within least := by
  obtain ⟨raw, rfl, hleast, hraw⟩ := hx
  have hcost : 0 ≤ penalty * ((totalTries a - left : ℕ) : ℚ) := mul_nonneg h0 (Nat.cast_nonneg _)
  refine ⟨max (raw - penalty * ((totalTries a - left : ℕ) : ℚ)) (min raw 0), ?_, ?_, ?_⟩
  · simp only [penalised, hp, zero_eq, ofCount_eq, rational_mul, rational_sub, least_rational,
      greatest_rational]
  · exact (le_min hleast hl).trans (le_max_right _ _)
  · refine max_le ?_ ((min_le_left _ _).trans hraw)
    linarith

/-! ## Behaviours -/

/-- A number, at most zero, that a behaviour fixes as the least fraction of attempts at a question,
and that bounds what it lets responses earn. -/
structure Behaviour.Bounds (b : Behaviour) (q : Question (Exact script)) (least : ℚ) : Prop where
  minFraction : b.minFraction q = rational least
  nonpos : least ≤ 0
  earns : ∀ {a : Attempt (Exact script)} {response : Vars} {earned : Exact script}, a.question = q →
    q.isGradable response = true → b.Earns a (q.grade response).1 earned → earned.Within least

/-- Every behaviour bounds what responses to a modest question earn. -/
lemma Behaviour.exists_bounds (b : Behaviour) {q : Question (Exact script)} (hq : q.IsModest) :
    ∃ least : ℚ, b.Bounds q least := by
  obtain ⟨least, hmin, hl, hgrade⟩ := Question.exists_least hq
  cases b with
  | deferred => exact ⟨least, hmin, hl, fun _ hr h => h ▸ hgrade _ hr⟩
  | immediate => exact ⟨least, hmin, hl, fun _ hr h => h ▸ hgrade _ hr⟩
  | adaptive preferred => exact ⟨least, hmin, hl, fun _ hr h => h ▸ hgrade _ hr⟩
  | certainty =>
    refine ⟨Certainty.high.scale least, ?_, ?_, ?_⟩
    · rw [minFraction, hmin, Certainty.adjust_rational]
    · simp only [Certainty.scale]
      linarith
    · rintro a response earned - hr ⟨c, rfl⟩
      obtain ⟨raw, heq, hleast, hone⟩ := hgrade response hr
      rw [heq, Certainty.adjust_rational]
      exact ⟨_, rfl, c.scale_within hl hleast hone⟩
  | interactive =>
    obtain ⟨penalty, hp, h0⟩ := hq.penalty
    refine ⟨least, hmin, hl, ?_⟩
    rintro a response earned ha hr rfl
    exact Interactive.penalised_within (ha ▸ hp) h0 hl (hgrade response hr) _
  | manual => exact ⟨least, hmin, hl, fun _ _ h => h.elim⟩
  | information => exact ⟨0, zero_eq, le_rfl, fun _ _ h => h.elim⟩
  | missing storedName => exact ⟨least, hmin, hl, fun _ _ h => h.elim⟩

/-! ## Marks -/

namespace Ruling

lemma exists_of_number? {field raw : String} {x : Exact script} (h : number? field raw = .ok x) :
    ∃ r, x = rational r := by
  unfold number? at h
  split at h
  · split at h
    · rename_i hfinite
      cases h
      exact exists_of_isFinite hfinite
    · cases h
  · cases h

/-- A mark is awarded only between the least fraction and one; where no marks are to be had, the
fraction is zero. -/
lemma awarded_within {mark maxMark least : ℚ} (hl : least ≤ 0) {x : Exact script}
    (h : awarded (rational mark) (rational maxMark) (rational least) = .ok x) : x.Within least := by
  simp only [awarded, zero_eq, one_eq, rational_le] at h
  by_cases hmax : maxMark ≤ 0
  · rw [if_pos hmax] at h
    split at h
    · cases h
      exact ⟨0, rfl, hl, zero_le_one⟩
    · cases h
  · have hne : maxMark ≠ 0 := fun heq => hmax heq.le
    rw [if_neg hmax, rational_div mark hne] at h
    simp only [rational_lt] at h
    split at h
    · cases h
    · rename_i hrange
      cases h
      rw [not_or, not_lt, not_lt] at hrange
      exact ⟨mark / maxMark, rfl, hrange.2, hrange.1⟩

/-- The fraction that a comment awards lies between the least fraction of the attempt and one. -/
lemma award_within {a : Attempt (Exact script)} {d : Draft (Exact script)} {text : String}
    {least : ℚ} (hmin : a.minFraction = some (rational least)) (hl : least ≤ 0)
    (hmax : ∃ m, a.maxMark = rational m) {x : Exact script} (h : award a d text = .ok x) :
    x.Within least := by
  simp only [award, bind, Except.bind, Attempt.minFraction?, hmin] at h
  cases hmark : number? (ν := Exact script) "-mark" text with
  | error e => rw [hmark] at h; cases h
  | ok mark =>
    rw [hmark] at h
    cases hout : outOf a d with
    | error e => rw [hout] at h; cases h
    | ok maxMark =>
      rw [hout] at h
      obtain ⟨m, rfl⟩ := exists_of_number? hmark
      have hrational : ∃ r, maxMark = rational r := by
        unfold outOf at hout
        split at hout
        · exact exists_of_number? hout
        · cases hout
          exact hmax
      obtain ⟨r, rfl⟩ := hrational
      exact awarded_within hl h

end Ruling
end Assessment
