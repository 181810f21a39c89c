import Assessment.Proofs.Attempt.Reproducible
import Assessment.Proofs.Usage.Batch

/-!
# Usages whose attempts are reproducible

The attempts of a usage stay reproducible under every operation that does not bring in what a replay
cannot give back (`Usage.Reproducible.operation`).  There are three such things
(`Usage.Operation.IsReplayable`): a question that is not the one in the bank, a stand-in for a
behaviour that is not on offer, and an action that names cached variables itself.  The usage has to
make its behaviours from the standard registry, where none of them is a stand-in.

A regrade is among the operations, whether it changes the marks or not and whether the marks that
were given are absolute or not: what comes of a replay is reproducible whatever was replayed.
-/

namespace Assessment

/-! ## Behaviours on offer -/

namespace Registry

/-- Every behaviour of the standard registry can replay. -/
lemma canRegrade_of_make {name preferred : String} {b : Behaviour}
    (h : standard.make name preferred = .ok b) : b.canRegrade = true := by
  unfold make at h
  cases hget : standard.get? name with
  | none => simp [hget] at h
  | some factory =>
    have hmem : (name, factory) ∈ builtIn := SortedMap.mem_of_get?_ofList hget
    have hnever : ∀ e ∈ builtIn, e.2 ≠ .missing := by decide
    rw [hget] at h
    cases h
    cases factory with
    | missing => exact absurd rfl (hnever _ hmem)
    | _ => rfl

lemma canRegrade_of_makeArchetypal {name : String} {b : Behaviour}
    (h : standard.makeArchetypal name = .ok b) : b.canRegrade = true := by
  unfold makeArchetypal at h
  cases hmake : standard.make name name with
  | error e => simp [hmake, bind, Except.bind] at h
  | ok b' =>
    simp only [hmake, bind, Except.bind] at h
    split at h
    · cases h
      exact canRegrade_of_make hmake
    · cases h

end Registry

variable {ν : Type}

/-- The behaviour that a question picks can replay. -/
lemma Question.canRegrade_of_pickBehaviour {q : Question ν} {preferred : String} {b : Behaviour}
    (h : q.pickBehaviour Registry.standard preferred = .ok b) : b.canRegrade = true := by
  cases q with
  | essay q =>
    have hmake : Registry.standard.make "manualgraded" preferred = .ok b := h
    exact Registry.canRegrade_of_make hmake
  | description q =>
    have hmake : Registry.standard.make "informationitem" preferred = .ok b := h
    exact Registry.canRegrade_of_make hmake
  | _ => exact Registry.canRegrade_of_makeArchetypal h

/-! ## Attempts -/

variable [Scalar ν]

namespace Attempt.Reproducible

variable {questions : SortedMap String (Question ν)} {a : Attempt ν}

lemma startPreferred (h : a.Reproducible questions) (preferred : String) (time : Instant)
    (actor : Option String) (draw : Draw) :
    (Attempt.startPreferred Registry.standard preferred time actor draw a).state.Reproducible
      questions := by
  unfold Attempt.startPreferred
  cases hpick : a.question.pickBehaviour Registry.standard preferred with
  | error e => exact h
  | ok b => exact h.start (Question.canRegrade_of_pickBehaviour hpick) _ _ _ _

lemma startFrom (h : a.Reproducible questions) {prior : Attempt ν}
    (hprior : ∀ b, prior.behaviour = some b → b.canRegrade = true) (time : Instant)
    (actor : Option String) (draw : Draw) :
    (Attempt.startFrom prior time actor draw a).state.Reproducible questions := by
  unfold Attempt.startFrom
  cases hb : prior.behaviour with
  | none => exact h
  | some b =>
    cases prior.resumeData with
    | error e => exact h
    | ok vars => exact h.start (hprior b hb) _ _ _ _

lemma finish (h : a.Reproducible questions) (time : Instant) (actor : Option String) :
    (Attempt.finish time actor a).state.Reproducible questions :=
  h.act (by decide) time actor

lemma grade (h : a.Reproducible questions) (comment : String) (mark : Option ν) (time : Instant)
    (actor : Option String) : (Attempt.grade comment mark time actor a).state.Reproducible questions := by
  refine h.act (fun key hkey => ?_) time actor
  obtain ⟨value, hvalue⟩ := SortedMap.mem_keys_iff.1 hkey
  cases mark with
  | none =>
    have hlist := SortedMap.mem_of_get?_ofList hvalue
    simp only [List.mem_singleton, Prod.mk.injEq] at hlist
    rw [hlist.1]
    decide
  | some mark =>
    have hlist := SortedMap.mem_of_get?_ofList hvalue
    simp only [List.mem_cons, List.not_mem_nil, or_false, Prod.mk.injEq] at hlist
    obtain ⟨rfl, -⟩ | ⟨rfl, -⟩ | ⟨rfl, -⟩ := hlist <;> decide

lemma setFlag (h : a.Reproducible questions) (flagged : Bool) :
    (Attempt.setFlag flagged a).state.Reproducible questions := by
  unfold Attempt.setFlag
  split
  · exact h
  · exact h.congr fun _ => rfl

end Attempt.Reproducible

/-! ## Usages -/

namespace Usage

/-- A usage under the standard registry whose attempts are all reproducible. -/
structure Reproducible (questions : SortedMap String (Question ν)) (u : Usage ν) : Prop where
  registry : u.registry = Registry.standard
  attempts : ∀ {slot a}, u.attempts.get? slot = some a → a.Reproducible questions

/-- An operation that brings nothing into a usage that a replay could not give back. -/
def Operation.IsReplayable (questions : SortedMap String (Question ν)) : Operation ν → Prop
  | add question _ => questions.get? question.id = some question
  | startFrom _ prior _ _ _ => ∀ b, prior.behaviour = some b → b.canRegrade = true
  | act _ vars _ _ => ∀ key ∈ vars.keys, isCachedKey key = false
  | submit batch _ _ => ∀ slot, ∀ key ∈ (batch.submission slot).vars.keys, isCachedKey key = false
  | _ => True

/-- An operation that leaves a usage reproducible, whether it succeeds or fails. -/
def KeepsReproducible {α : Type} (questions : SortedMap String (Question ν))
    (op : Op Fault (Usage ν) α) : Prop :=
  ∀ u : Usage ν, u.Reproducible questions → (op u).state.Reproducible questions

section Keeps

variable {questions : SortedMap String (Question ν)}

/-- A reproducible attempt is put in a slot, whatever is noted of it. -/
lemma Reproducible.insert {u : Usage ν} (h : u.Reproducible questions) (slot : Nat) {a : Attempt ν}
    (ha : a.Reproducible questions) (pending : Option Changes) :
    Reproducible questions { u with attempts := u.attempts.insert slot a, pending := pending } where
  registry := h.registry
  attempts := fun hb => by
    obtain ⟨-, rfl⟩ | ⟨-, hb⟩ := SortedMap.get?_insert_cases hb
    · exact ha
    · exact h.attempts hb

namespace KeepsReproducible

variable {α β : Type}

lemma bind {x : Op Fault (Usage ν) α} {f : α → Op Fault (Usage ν) β}
    (hx : KeepsReproducible questions x) (hf : ∀ a, KeepsReproducible questions (f a)) :
    KeepsReproducible questions (Op.bind x f) := fun u hu =>
  Op.bind_keeps (hx u hu) fun a h => hf a _ h

lemma forEach {f : β → Op Fault (Usage ν) Unit} (hf : ∀ b, KeepsReproducible questions (f b))
    (l : List β) : KeepsReproducible questions (Op.forEach f l) := fun _ hu =>
  Op.forEach_keeps (fun b _ _ h => hf b _ h) hu

lemma onSlot {op : Op Fault (Attempt ν) α}
    (hop : ∀ a : Attempt ν, a.Reproducible questions → (op a).state.Reproducible questions)
    (slot : Nat) : KeepsReproducible questions (Usage.onSlot slot op) := by
  intro u hu
  unfold Usage.onSlot
  split
  · exact hu
  · rename_i a ha
    exact hu.insert slot (hop a (hu.attempts ha)) _

lemma start (slot : Nat) (time : Instant) (actor : Option String) (draw : Draw) :
    KeepsReproducible questions (Usage.start slot time actor draw) := by
  intro u hu
  unfold Usage.start
  rw [hu.registry]
  exact onSlot (fun a ha => ha.startPreferred u.preferred time actor draw) slot u hu

lemma finish (slot : Nat) (time : Instant) (actor : Option String) :
    KeepsReproducible questions (Usage.finish slot time actor) :=
  onSlot (fun _ ha => ha.finish time actor) slot

lemma setFlag (slot : Nat) (flagged : Bool) :
    KeepsReproducible questions (Usage.setFlag slot flagged) :=
  onSlot (fun _ ha => ha.setFlag flagged) slot

lemma submit {batch : Batch}
    (h : ∀ slot, ∀ key ∈ (batch.submission slot).vars.keys, isCachedKey key = false) (time : Instant)
    (actor : Option String) : KeepsReproducible questions (Usage.submit batch time actor) := by
  have hcheck : KeepsReproducible questions (Usage.checkBatch batch) := fun u hu => by
    rwa [(checkBatch_spec batch u).1]
  intro u hu
  refine bind hcheck (fun _ => bind (forEach (fun slot => ?_) _)
    fun _ => ?_) u hu
  · exact bind (onSlot (fun _ ha => ha.act (h slot) time actor) slot) fun _ _ h => h
  · exact forEach (fun flag : Nat × Bool => setFlag flag.1 flag.2) _

/-- A replay makes the attempt that takes the place of another reproducible. -/
lemma regrade (slot : Nat) (maxMark : Option ν) (draw : Draw) :
    KeepsReproducible questions (Usage.regrade slot maxMark draw) := by
  intro u hu
  unfold Usage.regrade
  split
  · exact hu
  · rename_i a ha
    simp only
    split
    · exact hu
    · have hfresh : (u.successor slot a maxMark).Reproducible questions :=
        (Attempt.Reproducible.of_new (hu.attempts ha).question u.id.text slot
          (some (maxMark.getD a.maxMark))).congr fun _ => rfl
      exact hu.insert slot ((hfresh.replay a draw).observedBy _) _

end KeepsReproducible

/-- An operation that can be replayed leaves a reproducible usage reproducible. -/
theorem Reproducible.operation {u : Usage ν} (h : u.Reproducible questions) {o : Operation ν}
    (ho : o.IsReplayable questions) : (o.after u).Reproducible questions := by
  cases o with
  | add question maxMark =>
    have hnew := Attempt.Reproducible.of_new ho u.id.text u.nextSlot maxMark
    exact h.insert u.nextSlot (hnew.observedBy _) _
  | start slot time actor draw => exact KeepsReproducible.start slot time actor draw u h
  | startAll time actor draws =>
    exact KeepsReproducible.forEach (fun slot => .start slot time actor (draws slot)) _ u h
  | startFrom slot prior time actor draw =>
    exact KeepsReproducible.onSlot (fun _ ha => ha.startFrom ho time actor draw) slot u h
  | act slot vars time actor =>
    exact KeepsReproducible.onSlot (fun _ ha => ha.act ho time actor) slot u h
  | submit batch time actor => exact KeepsReproducible.submit ho time actor u h
  | finish slot time actor => exact KeepsReproducible.finish slot time actor u h
  | finishAll time actor =>
    exact KeepsReproducible.forEach
      (fun slot => .bind (.finish slot time actor) fun _ _ h => h) _ u h
  | grade slot comment mark time actor =>
    exact KeepsReproducible.onSlot (fun _ ha => ha.grade comment mark time actor) slot u h
  | setFlag slot flagged => exact KeepsReproducible.setFlag slot flagged u h
  | setFlagChecked slot flagged secret actor checksum =>
    simp only [Operation.after, Usage.setFlagChecked]
    split
    · exact h
    · split
      · exact KeepsReproducible.bind (.setFlag slot flagged) (fun _ _ h => h) u h
      · exact h
  | setPreferred name =>
    simp only [Operation.after, Usage.setPreferred]
    split
    · exact h
    · exact ⟨h.registry, h.attempts⟩
  | regrade slot maxMark draw => exact KeepsReproducible.regrade slot maxMark draw u h
  | regradeAll draws =>
    simp only [Operation.after, Usage.regradeAll]
    split
    · exact h
    · exact KeepsReproducible.forEach (fun slot => .regrade slot none (draws slot)) _ u h

end Keeps
end Usage
end Assessment
