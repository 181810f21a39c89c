import Assessment.Proofs.Store.Mirror
import Assessment.Proofs.Usage.Batch
import Mathlib.Data.List.Sort

/-!
# The layout of a usage

The layout of a usage is which slots it has, under which id the attempt in each is stored, and what
question that is about (`Usage.layout`).  Only adding a question changes it.  That an operation is a
run of steps does not say so, because adding is one of the steps.  So the operations are gone through
once more, and what each of them reports is compared with what it does (`Usage.Reports`): the reports
are noted in the usage's own unsaved changes, and every attempt that is not what it was has been
reported.
-/

namespace Assessment

variable {ν : Type}

/-! ## Layouts -/

namespace Usage

/-- The slots of a usage, each with the id of its attempt and the id of its question. -/
def layout (u : Usage ν) : SortedMap Nat (Option String × String) :=
  u.attempts.map fun a => (a.id, a.question.id)

lemma keys_layout (u : Usage ν) : u.layout.keys = u.slots := SortedMap.keys_map _ _

/-- An attempt that is at the same question under the same id leaves the layout as it is. -/
lemma layout_put {u : Usage ν} {slot : Nat} {a a' : Attempt ν} (ha : u.attempts.get? slot = some a)
    (hid : a'.id = a.id) (hquestion : a'.question = a.question) (notices : List Notice) :
    (u.put slot a' notices).layout = u.layout := by
  have hentry : u.layout.get? slot = some (a'.id, a'.question.id) := by
    rw [layout, SortedMap.get?_map, ha, hid, hquestion]
    rfl
  rw [← SortedMap.insert_of_get? hentry]
  exact SortedMap.map_insert _ _ _ _

/-- The layout does not say who is told of changes. -/
lemma layout_tracking (u : Usage ν) (pending : Option Changes) :
    (u.tracking pending).layout = u.layout := by
  rw [layout, tracking, SortedMap.map_map]
  rfl

/-! ## Reports -/

end Usage

lemma Event.notices_append (events events' : List Event) :
    notices (events ++ events') = notices events ++ notices events' :=
  List.filterMap_append

/-- What is counted is no notice. -/
lemma Event.notices_map_tally (tallies : List Tally) : notices (tallies.map Event.tally) = [] :=
  List.filterMap_eq_nil_iff.2 fun e he => by
    obtain ⟨t, -, rfl⟩ := List.mem_map.1 he
    rfl

/-- An attempt that records a step tells of it. -/
lemma Attempt.Advance.told [Scalar ν] {a a' : Attempt ν} {notices : List Notice}
    (h : a.Advance a' notices) : ∃ n ∈ notices, n.slot? = some a.slot := by
  cases h <;> exact ⟨_, List.mem_cons_self, rfl⟩

lemma Attempt.notices_checkSequence (expected : Nat) (a : Attempt ν) :
    Event.notices (checkSequence expected a).events = [] := by
  unfold checkSequence
  split <;> rfl

namespace Usage

/-- What an operation that adds no question leaves of a usage and what it reports. -/
structure Reports (u u' : Usage ν) (events : List Event) : Prop where
  sound : u'.Sound
  id : u'.id = u.id
  layout : u'.layout = u.layout
  noted : u'.pending = u.pending.map fun changes => changes.noteAll events
  told : ∀ slot, u'.attempts.get? slot ≠ u.attempts.get? slot →
    ∃ n ∈ Event.notices events, n.slot? = some slot

namespace Reports

variable {u u' u'' : Usage ν} {events events' : List Event}

/-- An operation that does nothing has nothing to tell of. -/
lemma refl (hu : u.Sound) (h : Event.notices events = []) : u.Reports u events where
  sound := hu
  id := rfl
  layout := rfl
  noted := by
    have hnone : ∀ c : Changes, c.noteAll events = c := fun c => by
      show (Event.notices events).foldl Changes.note c = c
      rw [h]
      rfl
    cases u.pending <;> simp [hnone]
  told := fun _ hne => absurd rfl hne

lemma trans (h : u.Reports u' events) (h' : u'.Reports u'' events') :
    u.Reports u'' (events ++ events') where
  sound := h'.sound
  id := h'.id.trans h.id
  layout := h'.layout.trans h.layout
  noted := by
    rw [h'.noted, h.noted, Option.map_map]
    congr 1
    funext c
    simp [Changes.noteAll, List.filterMap_append, List.foldl_append]
  told := by
    intro slot hne
    rw [Event.notices_append]
    by_cases hfirst : u'.attempts.get? slot = u.attempts.get? slot
    · obtain ⟨n, hn, hslot⟩ := h'.told slot (hfirst ▸ hne)
      exact ⟨n, List.mem_append_right _ hn, hslot⟩
    · obtain ⟨n, hn, hslot⟩ := h.told slot hfirst
      exact ⟨n, List.mem_append_left _ hn, hslot⟩

/-- An attempt is put in the place of one with the same id at the same question. -/
lemma put {slot : Nat} {a a' : Attempt ν} {notices : List Notice}
    (ha : u.attempts.get? slot = some a) (ho : a'.observer = u.observer) (hid : a'.id = a.id)
    (hquestion : a'.question = a.question) (hnotices : Event.notices events = notices)
    (hsound : (u.put slot a' notices).Sound) (htold : ∃ n ∈ notices, n.slot? = some slot) :
    u.Reports (u.put slot a' notices) events where
  sound := hsound
  id := rfl
  layout := layout_put ha hid hquestion _
  noted := by
    rw [put_of_observer ho, ← hnotices]
    rfl
  told := by
    intro slot' hne
    by_cases heq : slot' = slot
    · rw [hnotices, heq]
      exact htold
    · exact absurd (SortedMap.get?_insert_of_ne _ heq _) hne

end Reports

/-- An operation that adds no question and tells of what it does, whether it succeeds or fails. -/
def Reporting {α : Type} (op : Op Fault (Usage ν) α) : Prop :=
  ∀ u : Usage ν, u.Sound → u.Reports (op u).state (op u).events

namespace Reporting

variable {α β : Type}

lemma bind {x : Op Fault (Usage ν) α} {f : α → Op Fault (Usage ν) β} (hx : Reporting x)
    (hf : ∀ a, Reporting (f a)) : Reporting (Op.bind x f) := by
  intro u hu
  cases h : (x u).result with
  | error e =>
    rw [Op.bind_of_error h]
    exact hx u hu
  | ok a =>
    rw [Op.bind_of_ok h]
    exact (hx u hu).trans (hf a _ (hx u hu).sound)

lemma silent {op : Op Fault (Usage ν) α}
    (h : ∀ u, (op u).state = u ∧ Event.notices (op u).events = []) : Reporting op := by
  intro u hu
  rw [(h u).1]
  exact .refl hu (h u).2

lemma pure (a : α) : Reporting (Op.pure a : Op Fault (Usage ν) α) := silent fun _ => ⟨rfl, rfl⟩

lemma forEach {f : β → Op Fault (Usage ν) Unit} (hf : ∀ b, Reporting (f b)) (l : List β) :
    Reporting (Op.forEach f l) := by
  induction l with
  | nil => exact pure ()
  | cons b rest ih => exact bind (hf b) fun _ => ih

variable [Scalar ν]

lemma onSlot {op : Op Fault (Attempt ν) α} (hop : Attempt.Advances op) (slot : Nat) :
    Reporting (Usage.onSlot slot op) := by
  intro u hu
  unfold Usage.onSlot
  split
  · exact .refl hu rfl
  · rename_i a ha
    simp only [noting_eq, Event.notices_heard]
    obtain ⟨hsame, hnone⟩ | hadvance := hop a
    · rw [hsame, hnone, Observer.heard_nil, SortedMap.insert_of_get? ha, noted_nil]
      exact .refl hu hnone
    · have hplace := hadvance.samePlace
      rw [← hadvance.observer]
      refine .put ha (hadvance.observer.trans (hu.observer ha)) hplace.id hplace.question rfl
        ((Step.advance slot a _ _ ha hadvance).sound hu) ?_
      have htold := hadvance.told
      rwa [hu.slot ha] at htold

lemma act (slot : Nat) (vars : Vars) (time : Instant) (actor : Option String) :
    Reporting (ν := ν) (Usage.act slot vars time actor) :=
  onSlot (Attempt.advances_act vars time actor) slot

lemma start (slot : Nat) (time : Instant) (actor : Option String) (draw : Draw) :
    Reporting (ν := ν) (Usage.start slot time actor draw) := fun u =>
  onSlot (Attempt.advances_startPreferred u.registry u.preferred time actor draw) slot u

lemma finish (slot : Nat) (time : Instant) (actor : Option String) :
    Reporting (ν := ν) (Usage.finish slot time actor) :=
  onSlot (Attempt.advances_finish time actor) slot

lemma setFlag (slot : Nat) (flagged : Bool) :
    Reporting (ν := ν) (Usage.setFlag slot flagged) := by
  intro u hu
  unfold Usage.setFlag Usage.onSlot
  split
  · exact .refl hu rfl
  · rename_i a ha
    simp only [noting_eq, Event.notices_heard, Attempt.setFlag]
    split
    · rw [Event.notices_nil, Observer.heard_nil, noted_nil, SortedMap.insert_of_get? ha]
      exact .refl hu rfl
    · have hstep := Step.flag slot a flagged ha
      have hobserver := hu.observer ha
      exact .put ha hobserver rfl rfl rfl (hstep.sound hu)
        ⟨_, List.mem_cons_self, congrArg some (hu.slot ha)⟩

lemma setPreferred (name : String) : Reporting (ν := ν) (Usage.setPreferred name) := by
  intro u hu
  unfold Usage.setPreferred
  split
  · exact .refl hu rfl
  · rename_i b hb
    exact ⟨(Step.prefer name b hb).sound hu, rfl, rfl, rfl, fun _ hne => absurd rfl hne⟩

/-- A replay that succeeds reports that of the new attempt in its place, and nothing of what the new
attempt went through before it was there. -/
lemma regrade (slot : Nat) (maxMark : Option ν) (draw : Draw) :
    Reporting (Usage.regrade slot maxMark draw) := by
  intro u hu
  unfold Usage.regrade
  split
  · exact .refl hu rfl
  · rename_i a ha
    simp only
    split
    · refine .refl hu ?_
      rw [Event.notices_append, Event.notices_map_tally]
      rfl
    · rename_i hok
      obtain ⟨hnew, -⟩ := successor_replay hok
      have hstep := Step.replay slot a _ maxMark draw ha hok rfl
      have hnotices : ∀ (tallies : List Tally) (notices : List Notice) (t : Tally),
          Event.notices (tallies.map Event.tally ++ notices.map Event.notice ++ [.tally t]) =
            notices := fun tallies notices t => by
        simp [Event.notices_append, Event.notices_map_tally, Event.notices_map_notice]
      simp only [noting_eq, Event.notices_map_notice]
      rw [← put_of_observer rfl]
      exact .put ha rfl hnew.place.id hnew.place.question (hnotices _ _ _) (hstep.sound hu)
        ⟨_, List.mem_cons_self, rfl⟩

omit [Scalar ν] in
lemma checkBatch (batch : Batch) : Reporting (ν := ν) (Usage.checkBatch batch) := by
  have hslot : ∀ slot, Reporting (ν := ν) (checkSlot batch slot) := fun slot => silent fun u => by
    unfold checkSlot
    split
    · exact ⟨rfl, rfl⟩
    · split
      · exact ⟨rfl, rfl⟩
      · exact ⟨rfl, rfl⟩
      · exact ⟨rfl, Attempt.notices_checkSequence _ _⟩
  intro u
  exact bind (forEach hslot _) (fun _ => forEach (fun _ => silent fun _ => ⟨rfl, rfl⟩) _) u

lemma submit (batch : Batch) (time : Instant) (actor : Option String) :
    Reporting (ν := ν) (Usage.submit batch time actor) := by
  intro u
  refine bind (checkBatch batch) (fun _ => bind (forEach (fun slot => ?_) _) fun _ => ?_) u
  · exact bind (act slot _ time actor) fun _ => pure ()
  · exact forEach (fun flag : Nat × Bool => setFlag flag.1 flag.2) _

end Reporting

/-! ## Operations -/

namespace Operation

variable [Scalar ν]

/-- What an operation reports, whether it succeeds or fails. -/
def events : Operation ν → Usage ν → List Event
  | add question maxMark, u => (Usage.add question maxMark u).events
  | start slot time actor draw, u => (Usage.start slot time actor draw u).events
  | startAll time actor draws, u => (Usage.startAll time actor draws u).events
  | startFrom slot prior time actor draw, u => (Usage.startFrom slot prior time actor draw u).events
  | act slot vars time actor, u => (Usage.act slot vars time actor u).events
  | submit batch time actor, u => (Usage.submit batch time actor u).events
  | finish slot time actor, u => (Usage.finish slot time actor u).events
  | finishAll time actor, u => (Usage.finishAll time actor u).events
  | grade slot comment mark time actor, u => (Usage.grade slot comment mark time actor u).events
  | setFlag slot flagged, u => (Usage.setFlag slot flagged u).events
  | setFlagChecked slot flagged secret actor checksum, u =>
    (Usage.setFlagChecked slot flagged secret actor checksum u).events
  | setPreferred name, u => (Usage.setPreferred name u).events
  | regrade slot maxMark draw, u => (Usage.regrade slot maxMark draw u).events
  | regradeAll draws, u => (Usage.regradeAll draws u).events

/-- Whether the operation adds a question. -/
def isAdd : Operation ν → Bool
  | add _ _ => true
  | _ => false

/-- An operation that adds no question leaves the layout, and tells of what it does. -/
theorem reports {o : Operation ν} (ho : o.isAdd = false) {u : Usage ν} (hu : u.Sound) :
    u.Reports (o.after u) (o.events u) := by
  cases o with
  | add question maxMark => cases ho
  | start slot time actor draw => exact Reporting.start slot time actor draw u hu
  | startAll time actor draws =>
    exact Reporting.forEach (fun slot => Reporting.start slot time actor (draws slot)) _ u hu
  | startFrom slot prior time actor draw =>
    exact Reporting.onSlot (Attempt.advances_startFrom prior time actor draw) slot u hu
  | act slot vars time actor => exact Reporting.act slot vars time actor u hu
  | submit batch time actor => exact Reporting.submit batch time actor u hu
  | finish slot time actor => exact Reporting.finish slot time actor u hu
  | finishAll time actor =>
    refine Reporting.forEach (fun slot => ?_) _ u hu
    exact Reporting.bind (Reporting.finish slot time actor) fun _ => Reporting.pure ()
  | grade slot comment mark time actor =>
    exact Reporting.onSlot (Attempt.advances_grade comment mark time actor) slot u hu
  | setFlag slot flagged => exact Reporting.setFlag slot flagged u hu
  | setFlagChecked slot flagged secret actor checksum =>
    simp only [after, events, Usage.setFlagChecked]
    split
    · exact .refl hu rfl
    · split
      · exact Reporting.bind (Reporting.setFlag slot flagged) (fun _ => Reporting.pure true) u hu
      · exact .refl hu rfl
  | setPreferred name => exact Reporting.setPreferred name u hu
  | regrade slot maxMark draw => exact Reporting.regrade slot maxMark draw u hu
  | regradeAll draws =>
    simp only [after, events, Usage.regradeAll]
    split
    · exact .refl hu rfl
    · exact Reporting.forEach (fun slot => Reporting.regrade slot none (draws slot)) _ u hu

end Operation

/-! ## Slots in use -/

end Usage

/-- Slots that are counted from one and leave none out. -/
def Gapless (slots : List Nat) : Prop :=
  ∀ slot ∈ slots, 1 ≤ slot ∧ ∀ earlier, 1 ≤ earlier → earlier < slot → earlier ∈ slots

namespace Gapless

lemma congr {slots slots' : List Nat} (h : Gapless slots) (hmem : ∀ slot, slot ∈ slots' ↔ slot ∈ slots) :
    Gapless slots' := by
  intro slot hslot
  obtain ⟨hone, hearlier⟩ := h slot ((hmem slot).1 hslot)
  exact ⟨hone, fun earlier hle hlt => (hmem earlier).2 (hearlier earlier hle hlt)⟩

/-- Slots that leave none out go from one to the last one. -/
lemma exists_last {slots : List Nat} (h : Gapless slots) :
    ∃ n, ∀ slot, slot ∈ slots ↔ 1 ≤ slot ∧ slot ≤ n := by
  cases hmax : slots.max? with
  | none =>
    rw [List.max?_eq_none_iff.1 hmax]
    exact ⟨0, fun slot => by simp; omega⟩
  | some n =>
    obtain ⟨hn, hle⟩ := List.max?_eq_some_iff.1 hmax
    refine ⟨n, fun slot => ⟨fun hslot => ⟨(h slot hslot).1, hle slot hslot⟩, fun ⟨hone, hlast⟩ => ?_⟩⟩
    obtain rfl | hlt := Nat.eq_or_lt_of_le hlast
    · exact hn
    · exact (h n hn).2 slot hone hlt

/-- Slots in order that leave none out are those from one to their number. -/
lemma eq_range {slots : List Nat} (h : Gapless slots) (hsorted : slots.Pairwise (· < ·)) :
    slots = List.range' 1 slots.length := by
  obtain ⟨n, hn⟩ := h.exists_last
  have hrange : slots = List.range' 1 n :=
    hsorted.eq_of_mem_iff (List.pairwise_lt_range' 1) fun slot => by
      rw [hn, List.mem_range'_1]
      omega
  rw [hrange, List.length_range']

end Gapless

namespace Usage

lemma pairwise_slots (u : Usage ν) : u.slots.Pairwise (· < ·) :=
  List.pairwise_map.2 (u.attempts.sorted.imp fun h => Nat.compare_eq_lt.1 h)

/-- The next slot is the number after that of the slots in use. -/
lemma nextSlot_eq {u : Usage ν} (h : Gapless u.slots) : u.nextSlot = u.slots.length + 1 := by
  have hrange : u.attempts.keys = List.range' 1 u.slots.length := h.eq_range u.pairwise_slots
  rw [nextSlot, SortedMap.lastKey?, hrange, List.getLast?_range']
  split
  · rename_i hlast
    split at hlast
    · cases hlast
    · have := Option.some.inj hlast
      omega
  · rename_i hlast
    split at hlast
    · omega
    · cases hlast

variable [Scalar ν]

/-- Adding a question takes the next slot, tells of it, and leaves the other slots as they are. -/
lemma add_spec {u : Usage ν} (h : Gapless u.slots) (question : Question ν) (maxMark : Option ν) :
    let o : Operation ν := .add question maxMark
    (o.after u).layout = u.layout.insert (u.slots.length + 1) (none, question.id) ∧
      (o.after u).pending = u.pending.map (fun changes => changes.noteAll (o.events u)) ∧
      (∀ slot, (o.after u).attempts.get? slot ≠ u.attempts.get? slot →
        ∃ n ∈ Event.notices (o.events u), n.slot? = some slot) ∧
      Gapless (o.after u).slots := by
  intro o
  have hlayout : (o.after u).layout = u.layout.insert (u.slots.length + 1) (none, question.id) := by
    rw [← nextSlot_eq h]
    exact SortedMap.map_insert _ _ _ _
  refine ⟨hlayout, rfl, fun slot hne => ?_, fun slot hslot => ?_⟩
  · by_cases heq : slot = u.nextSlot
    · exact ⟨.attemptAdded u.nextSlot, List.mem_cons_self, by rw [heq]; rfl⟩
    · exact absurd (SortedMap.get?_insert_of_ne _ heq _) hne
  · have hmem : ∀ k, k ∈ (o.after u).slots ↔ k = u.slots.length + 1 ∨ k ∈ u.slots := fun k => by
      rw [← nextSlot_eq h]
      exact SortedMap.mem_keys_insert
    rw [hmem] at hslot
    obtain rfl | hslot := hslot
    · refine ⟨by omega, fun earlier hone hlt => (hmem earlier).2 (.inr ?_)⟩
      rw [h.eq_range u.pairwise_slots, List.mem_range'_1]
      omega
    · exact ⟨(h slot hslot).1, fun earlier hone hlt =>
        (hmem earlier).2 (.inr ((h slot hslot).2 earlier hone hlt))⟩

end Usage
end Assessment
