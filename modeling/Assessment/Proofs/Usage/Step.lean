import Assessment.Proofs.Attempt.Advance
import Assessment.Proofs.Data.SortedMap
import Assessment.Usage.Flag
import Assessment.Usage.Submission

/-!
# What an operation can do to a usage

Every operation on a usage is a run of steps of five kinds (`Usage.Step`): an attempt is advanced,
flagged, replayed or added, or another behaviour is preferred.  Each step says which notices it
sends, and the usage notes them in its unsaved changes.  An operation may take several steps, and one
that fails may have taken some of them; `Operation.after_steps` says that no operation does anything
else.  A property of usages is therefore kept by all operations as soon as the five steps keep it.

A usage is *sound* (`Usage.Sound`) when every attempt is kept under its own slot, names the usage,
and is sound itself.
-/

namespace Assessment
namespace Usage

variable {ν : Type}

/-! ## Steps -/

/-- The usage with notices noted in its unsaved changes. -/
def noted (u : Usage ν) (notices : List Notice) : Usage ν :=
  { u with pending := u.pending.map fun changes => notices.foldl Changes.note changes }

/-- The usage with an attempt put in a slot, and what it tells noted. -/
def put (u : Usage ν) (slot : Nat) (a : Attempt ν) (notices : List Notice) : Usage ν :=
  ({ u with attempts := u.attempts.insert slot a } : Usage ν).noted (a.observer.heard notices)

@[simp] lemma attempts_put (u : Usage ν) (slot : Nat) (a : Attempt ν) (notices : List Notice) :
    (u.put slot a notices).attempts = u.attempts.insert slot a := rfl

lemma pending_put_of_none {u : Usage ν} (h : u.pending = none) (slot : Nat) (a : Attempt ν)
    (notices : List Notice) : (u.put slot a notices).pending = none := by
  simp only [put, noted, h, Option.map_none]

@[simp] lemma observer_noted (u : Usage ν) (notices : List Notice) :
    (u.noted notices).observer = u.observer := by
  simp only [observer, noted, Option.isSome_map]

@[simp] lemma observer_put (u : Usage ν) (slot : Nat) (a : Attempt ν) (notices : List Notice) :
    (u.put slot a notices).observer = u.observer :=
  observer_noted { u with attempts := u.attempts.insert slot a } _

/-- What an attempt tells is noted if it tells the usage. -/
lemma put_of_observer {u : Usage ν} {a : Attempt ν} (h : a.observer = u.observer) (slot : Nat)
    (notices : List Notice) : u.put slot a notices =
      ({ u with attempts := u.attempts.insert slot a } : Usage ν).noted notices := by
  rw [put, h, observer, noted, noted]
  cases u.pending <;> rfl

lemma pending_put_of_observer {u : Usage ν} {a : Attempt ν} (h : a.observer = u.observer)
    (slot : Nat) (notices : List Notice) : (u.put slot a notices).pending =
      u.pending.map fun c => notices.foldl Changes.note c := by
  rw [put_of_observer h]
  rfl

lemma get?_tracking (u : Usage ν) (pending : Option Changes) (slot : Nat) :
    (u.tracking pending).attempts.get? slot =
      (u.attempts.get? slot).map fun a => a.observedBy (u.tracking pending).observer := by
  rw [tracking, SortedMap.get?_map]
  rfl

lemma noting_eq (u : Usage ν) (events : List Event) :
    u.noting events = u.noted (Event.notices events) := rfl

@[simp] lemma noted_nil (u : Usage ν) : u.noted [] = u := by
  cases u with | mk id plugin context preferred attempts registry pending =>
    cases pending <;> rfl

/-- The elementary changes of a usage. -/
inductive Step [Scalar ν] (u : Usage ν) : Usage ν → Prop
  | advance (slot : Nat) (a a' : Attempt ν) (notices : List Notice)
    (ha : u.attempts.get? slot = some a) (h : a.Advance a' notices) :
    Step u (u.put slot a' notices)
  | flag (slot : Nat) (a : Attempt ν) (flagged : Bool) (ha : u.attempts.get? slot = some a) :
    Step u (u.put slot { a with flagged := flagged } [.attemptModified a.slot])
  | replay (slot : Nat) (a a' : Attempt ν) (maxMark : Option ν) (draw : Draw)
    (ha : u.attempts.get? slot = some a)
    (h : (Attempt.replay a draw (u.successor slot a maxMark)).result = .ok ())
    (h' : (Attempt.replay a draw (u.successor slot a maxMark)).state.observedBy u.observer = a') :
    Step u (u.put slot a' (replacementNotices slot a'.steps.length))
  | add (question : Question ν) (maxMark : Option ν) :
    Step u (u.put u.nextSlot
      ((Attempt.new question u.id.text u.nextSlot maxMark).observedBy u.observer)
      [.attemptAdded u.nextSlot])
  | prefer (name : String) (b : Behaviour) (h : u.registry.makeArchetypal name = .ok b) :
    Step u (({ u with preferred := name } : Usage ν).noted [.usageModified])

variable [Scalar ν]

/-- What several steps lead to. -/
abbrev Steps : Usage ν → Usage ν → Prop := Relation.ReflTransGen Step

/-- An operation takes steps and does nothing else, whether it succeeds or fails. -/
def Stepwise {α : Type} (op : Op Fault (Usage ν) α) : Prop :=
  ∀ u : Usage ν, u.Steps (op u).state

namespace Stepwise

variable {α β : Type}

lemma bind {x : Op Fault (Usage ν) α} {f : α → Op Fault (Usage ν) β} (hx : Stepwise x)
    (hf : ∀ a, Stepwise (f a)) : Stepwise (Op.bind x f) := fun u =>
  Op.bind_keeps (P := u.Steps) (hx u) fun a h => h.trans (hf a _)

lemma forEach {f : β → Op Fault (Usage ν) Unit} (hf : ∀ b, Stepwise (f b)) (l : List β) :
    Stepwise (Op.forEach f l) := fun u =>
  Op.forEach_keeps (P := u.Steps) (fun b _ _ h => h.trans (hf b _)) .refl

lemma onSlot {op : Op Fault (Attempt ν) α} (hop : Attempt.Advances op) (slot : Nat) :
    Stepwise (Usage.onSlot slot op) := by
  intro u
  unfold Usage.onSlot
  split
  · exact .refl
  · rename_i a ha
    simp only [noting_eq, Event.notices_heard]
    obtain ⟨hsame, hnone⟩ | hadvance := hop a
    · rw [hsame, hnone, Observer.heard_nil, SortedMap.insert_of_get? ha, noted_nil]
    · rw [← hadvance.observer]
      exact .single (.advance slot a _ _ ha hadvance)

lemma start (slot : Nat) (time : Instant) (actor : Option String) (draw : Draw) :
    Stepwise (ν := ν) (Usage.start slot time actor draw) := fun u =>
  onSlot (Attempt.advances_startPreferred u.registry u.preferred time actor draw) slot u

lemma act (slot : Nat) (vars : Vars) (time : Instant) (actor : Option String) :
    Stepwise (ν := ν) (Usage.act slot vars time actor) :=
  onSlot (Attempt.advances_act vars time actor) slot

lemma setFlag (slot : Nat) (flagged : Bool) :
    Stepwise (ν := ν) (Usage.setFlag slot flagged) := by
  intro u
  unfold Usage.setFlag Usage.onSlot
  split
  · exact .refl
  · rename_i a ha
    simp only [noting_eq, Event.notices_heard, Attempt.setFlag]
    split
    · rw [Event.notices_nil, Observer.heard_nil, noted_nil, SortedMap.insert_of_get? ha]
    · exact .single (.flag slot a flagged ha)

lemma add (question : Question ν) (maxMark : Option ν) : Stepwise (Usage.add question maxMark) := by
  intro u
  have hstep := Step.add (u := u) question maxMark
  rw [put_of_observer rfl] at hstep
  exact .single hstep

lemma setPreferred (name : String) : Stepwise (ν := ν) (Usage.setPreferred name) := by
  intro u
  unfold Usage.setPreferred
  split
  · exact .refl
  · rename_i b hb
    exact .single (.prefer name b hb)

lemma regrade (slot : Nat) (maxMark : Option ν) (draw : Draw) :
    Stepwise (Usage.regrade slot maxMark draw) := by
  intro u
  unfold Usage.regrade
  split
  · exact .refl
  · rename_i a ha
    simp only
    split
    · exact .refl
    · rename_i hok
      have hstep := Step.replay slot a _ maxMark draw ha hok rfl
      rw [put_of_observer rfl] at hstep
      simp only [noting_eq, Event.notices_map_notice]
      exact .single hstep

lemma checkBatch (batch : Batch) : Stepwise (ν := ν) (Usage.checkBatch batch) := by
  have hslot : ∀ slot, Stepwise (ν := ν) (checkSlot batch slot) := fun slot u => by
    unfold checkSlot
    split
    · exact .refl
    · split <;> exact .refl
  intro u
  exact bind (forEach hslot _) (fun _ => forEach (fun _ _ => .refl) _) u

lemma submit (batch : Batch) (time : Instant) (actor : Option String) :
    Stepwise (ν := ν) (Usage.submit batch time actor) := by
  intro u
  refine bind (checkBatch batch) (fun _ => bind (forEach (fun slot => ?_) _) fun _ => ?_) u
  · exact bind (act slot _ time actor) fun _ _ => .refl
  · exact forEach (fun flag : Nat × Bool => setFlag flag.1 flag.2) _

end Stepwise

/-! ## Operations -/

/-- The operations on a usage. -/
inductive Operation (ν : Type)
  | add (question : Question ν) (maxMark : Option ν)
  | start (slot : Nat) (time : Instant) (actor : Option String) (draw : Draw)
  | startAll (time : Instant) (actor : Option String) (draws : Nat → Draw)
  | startFrom (slot : Nat) (prior : Attempt ν) (time : Instant) (actor : Option String)
    (draw : Draw)
  | act (slot : Nat) (vars : Vars) (time : Instant) (actor : Option String)
  | submit (batch : Batch) (time : Instant) (actor : Option String)
  | finish (slot : Nat) (time : Instant) (actor : Option String)
  | finishAll (time : Instant) (actor : Option String)
  | grade (slot : Nat) (comment : String) (mark : Option ν) (time : Instant)
    (actor : Option String)
  | setFlag (slot : Nat) (flagged : Bool)
  | setFlagChecked (slot : Nat) (flagged : Bool) (secret actor checksum : String)
  | setPreferred (name : String)
  | regrade (slot : Nat) (maxMark : Option ν) (draw : Draw)
  | regradeAll (draws : Nat → Draw)

namespace Operation

/-- The usage after an operation, whether it succeeded or failed. -/
def after : Operation ν → Usage ν → Usage ν
  | add question maxMark, u => (Usage.add question maxMark u).state
  | start slot time actor draw, u => (Usage.start slot time actor draw u).state
  | startAll time actor draws, u => (Usage.startAll time actor draws u).state
  | startFrom slot prior time actor draw, u => (Usage.startFrom slot prior time actor draw u).state
  | act slot vars time actor, u => (Usage.act slot vars time actor u).state
  | submit batch time actor, u => (Usage.submit batch time actor u).state
  | finish slot time actor, u => (Usage.finish slot time actor u).state
  | finishAll time actor, u => (Usage.finishAll time actor u).state
  | grade slot comment mark time actor, u => (Usage.grade slot comment mark time actor u).state
  | setFlag slot flagged, u => (Usage.setFlag slot flagged u).state
  | setFlagChecked slot flagged secret actor checksum, u =>
    (Usage.setFlagChecked slot flagged secret actor checksum u).state
  | setPreferred name, u => (Usage.setPreferred name u).state
  | regrade slot maxMark draw, u => (Usage.regrade slot maxMark draw u).state
  | regradeAll draws, u => (Usage.regradeAll draws u).state

/-- Every operation is a run of steps. -/
theorem after_steps (o : Operation ν) (u : Usage ν) : u.Steps (o.after u) := by
  cases o with
  | add question maxMark => exact Stepwise.add question maxMark u
  | start slot time actor draw => exact Stepwise.start slot time actor draw u
  | startAll time actor draws =>
    exact Stepwise.forEach (fun slot => Stepwise.start slot time actor (draws slot)) _ u
  | startFrom slot prior time actor draw =>
    exact Stepwise.onSlot (Attempt.advances_startFrom prior time actor draw) slot u
  | act slot vars time actor => exact Stepwise.act slot vars time actor u
  | submit batch time actor => exact Stepwise.submit batch time actor u
  | finish slot time actor => exact Stepwise.onSlot (Attempt.advances_finish time actor) slot u
  | finishAll time actor =>
    refine Stepwise.forEach (fun slot => ?_) _ u
    exact Stepwise.bind (Stepwise.onSlot (Attempt.advances_finish time actor) slot) fun _ _ => .refl
  | grade slot comment mark time actor =>
    exact Stepwise.onSlot (Attempt.advances_grade comment mark time actor) slot u
  | setFlag slot flagged => exact Stepwise.setFlag slot flagged u
  | setFlagChecked slot flagged secret actor checksum =>
    simp only [after, Usage.setFlagChecked]
    split
    · exact .refl
    · split
      · exact Stepwise.bind (Stepwise.setFlag slot flagged) (fun _ _ => .refl) u
      · exact .refl
  | setPreferred name => exact Stepwise.setPreferred name u
  | regrade slot maxMark draw => exact Stepwise.regrade slot maxMark draw u
  | regradeAll draws =>
    simp only [after, Usage.regradeAll]
    split
    · exact .refl
    · exact Stepwise.forEach (fun slot => Stepwise.regrade slot none (draws slot)) _ u

end Operation

/-! ## Soundness -/

/-- Every attempt of the usage is under its own slot, names the usage, tells it of changes, and is
sound. -/
structure Sound (u : Usage ν) : Prop where
  slot : ∀ {slot a}, u.attempts.get? slot = some a → a.slot = slot
  usageId : ∀ {slot a}, u.attempts.get? slot = some a → a.usageId = u.id.text
  observer : ∀ {slot a}, u.attempts.get? slot = some a → a.observer = u.observer
  attempt : ∀ {slot a}, u.attempts.get? slot = some a → a.Sound

/-- The state of an attempt that a replay starts from is sound. -/
lemma sound_successor (u : Usage ν) (slot : Nat) (old : Attempt ν) (maxMark : Option ν) :
    (u.successor slot old maxMark).Sound :=
  ⟨rfl, rfl, fun h => absurd rfl h, by simp [successor, Attempt.new]⟩

/-- What a replay puts in a slot comes of the state that the replay starts from. -/
lemma successor_replay {u : Usage ν} {slot : Nat} {old : Attempt ν} {maxMark : Option ν}
    {draw : Draw}
    (h : (Attempt.replay old draw (u.successor slot old maxMark)).result = .ok ()) :
    let new := (Attempt.replay old draw (u.successor slot old maxMark)).state.observedBy u.observer
    (u.successor slot old maxMark).Successor new ∧ new.steps ≠ [] := by
  obtain ⟨hnew, hsteps⟩ := Attempt.replay_spec (u.sound_successor slot old maxMark) h
  exact ⟨hnew.observedBy _, hsteps⟩

omit [Scalar ν] in
lemma Sound.insert {u : Usage ν} (h : u.Sound) {slot : Nat} {a : Attempt ν} (hslot : a.slot = slot)
    (hid : a.usageId = u.id.text) (hobserver : a.observer = u.observer) (ha : a.Sound) :
    Sound { u with attempts := u.attempts.insert slot a } := by
  have key : ∀ {slot' a'}, (u.attempts.insert slot a).get? slot' = some a' →
      a'.slot = slot' ∧ a'.usageId = u.id.text ∧ a'.observer = u.observer ∧ a'.Sound := by
    intro slot' a' h'
    rw [SortedMap.get?_insert] at h'
    split at h'
    · rename_i heq
      cases h'
      exact ⟨hslot.trans heq.symm, hid, hobserver, ha⟩
    · exact ⟨h.slot h', h.usageId h', h.observer h', h.attempt h'⟩
  exact ⟨fun h' => (key h').1, fun h' => (key h').2.1, fun h' => (key h').2.2.1,
    fun h' => (key h').2.2.2⟩

omit [Scalar ν] in
/-- Soundness says nothing about the unsaved changes, but whether track is kept of them. -/
lemma Sound.withPending {u : Usage ν} (hu : u.Sound) {pending : Option Changes}
    (h : pending.isSome = u.pending.isSome) : Sound { u with pending := pending } where
  slot := hu.slot
  usageId := hu.usageId
  observer := fun ha => (hu.observer ha).trans (by rw [Usage.observer, Usage.observer, h])
  attempt := hu.attempt

omit [Scalar ν] in
lemma Sound.put {u : Usage ν} (h : u.Sound) {slot : Nat} {a : Attempt ν} (hslot : a.slot = slot)
    (hid : a.usageId = u.id.text) (hobserver : a.observer = u.observer) (ha : a.Sound)
    (notices : List Notice) : (u.put slot a notices).Sound :=
  (h.insert hslot hid hobserver ha).withPending Option.isSome_map

lemma Step.sound {u u' : Usage ν} (h : u.Step u') (hu : u.Sound) : u'.Sound := by
  cases h with
  | advance slot a a' notices ha h =>
    have hplace := h.samePlace
    exact hu.put (hplace.slot.trans (hu.slot ha)) (hplace.usageId.trans (hu.usageId ha))
      (h.observer.trans (hu.observer ha)) (h.sound (hu.attempt ha)) notices
  | flag slot a flagged ha =>
    have hslot := hu.slot ha
    have hid := hu.usageId ha
    have hobserver := hu.observer ha
    obtain ⟨hmin, hmodified, hsteps, hreadOnly⟩ := hu.attempt ha
    exact hu.put (a := { a with flagged := flagged }) hslot hid hobserver
      ⟨hmin, hmodified, hsteps, hreadOnly⟩ _
  | replay slot a a' maxMark draw ha h h' =>
    obtain ⟨hnew, -⟩ := successor_replay h
    subst h'
    exact hu.put hnew.place.slot hnew.place.usageId rfl hnew.sound _
  | add question maxMark => exact hu.put rfl rfl rfl ((Attempt.sound_new ..).observedBy _) _
  | prefer name b h =>
    have hpreferred : Sound { u with preferred := name } :=
      ⟨hu.slot, hu.usageId, hu.observer, hu.attempt⟩
    exact hpreferred.withPending Option.isSome_map

lemma Steps.sound {u u' : Usage ν} (h : u.Steps u') (hu : u.Sound) : u'.Sound := by
  induction h with
  | refl => exact hu
  | tail _ h ih => exact h.sound ih

/-- Operations do not change who is told of what the usage does. -/
lemma Steps.observer_eq {u u' : Usage ν} (h : u.Steps u') : u'.observer = u.observer := by
  induction h with
  | refl => rfl
  | tail _ hstep ih =>
    refine Eq.trans ?_ ih
    cases hstep with
    | advance => exact observer_put ..
    | flag => exact observer_put ..
    | replay => exact observer_put ..
    | add => exact observer_put ..
    | prefer => exact observer_noted ..

end Usage
end Assessment
