import Assessment.Command.Ids
import Assessment.Proofs.Store.Reload
import Assessment.Proofs.Store.Rollback

/-!
# A usage and the store that it is saved to

A usage is made, kept in memory and saved to one store from time to time (`Usage.Handled`): in between
there are operations, some of which fail, and saves that cannot be prepared or are aborted.  At every
point the usage was never stored, or it keeps track of its changes and the stored rows mirror it up to
these (`Usage.Kept`).  Hence a save loses nothing, however little of the usage it writes
(`Usage.save_loses_nothing`).

The store may hold anything else, as long as no id in it is issued again.
-/

namespace Assessment

variable {ν : Type}

/-! ## Usages that are not stored -/

namespace Usage

variable [Scalar ν]

/-- No step changes the identity of a usage. -/
lemma Step.id_eq {u u' : Usage ν} (h : u.Step u') : u'.id = u.id := by
  cases h <;> rfl

lemma Change.id_eq {u u' : Usage ν} (h : u.Change u') : u'.id = u.id := by
  cases h <;> rfl

lemma Steps.id_eq {u u' : Usage ν} (h : u.Steps u') : u'.id = u.id := by
  induction h with
  | refl => rfl
  | tail _ hstep ih => exact hstep.id_eq.trans ih

omit [Scalar ν] in
lemma unsaved_of_new {token plugin context preferred : String} {registry : Registry} {u : Usage ν}
    (h : Usage.new token plugin context preferred registry = .ok u) : u.Unsaved := by
  rw [eq_of_new h]
  exact ⟨rfl, ⟨token, rfl⟩, fun h => by simp at h⟩

omit [Scalar ν] in
/-- A usage that is not stored keeps no track of its changes, and an attempt that is put in has no ids
either. -/
lemma Unsaved.put {u : Usage ν} (h : u.Unsaved) {slot : Nat} {a : Attempt ν} (hid : a.id = none)
    (hsteps : ∀ step ∈ a.steps, step.id = none) (notices : List Notice) :
    (u.put slot a notices).Unsaved where
  pending := pending_put_of_none h.pending slot a notices
  id := h.id
  attempts := fun hb => by
    obtain ⟨-, rfl⟩ | ⟨-, hb⟩ := SortedMap.get?_insert_cases hb
    · exact ⟨hid, hsteps⟩
    · exact h.attempts hb

lemma Unsaved.change {u u' : Usage ν} (h : u.Unsaved) (hs : u.Change u') : u'.Unsaved := by
  cases hs with
  | put ha hchange =>
    obtain ⟨hid, hsteps⟩ := h.attempts ha
    refine h.put (hchange.id.trans hid) (fun step hstep => ?_) _
    obtain ⟨-, hnone⟩ | ⟨-, -, hsame⟩ := hchange.steps
    · exact hnone step hstep
    · by_contra hne
      exact hne (hsteps step (hsame step hstep hne))
  | add hid hsteps _ => exact h.put hid (by simp [hsteps]) _
  | prefer name => exact ⟨by simp [noted, h.pending], h.id, h.attempts⟩

end Usage

/-! ## The supply of ids -/

namespace Usage

lemma le_begin (u : Usage ν) (supply : Supply) :
    supply ≤ (Saving.begin u supply).supply := by
  cases h : u.id with
  | stored id =>
    rw [Saving.begin_of_stored h]
  | ephemeral token =>
    rw [Saving.begin_of_ephemeral h]
    exact supply.le_next

/-- Preparing a save takes ids from the supply and gives none back. -/
lemma le_prepare (u : Usage ν) (supply : Supply) :
    supply ≤ (prepare (u, supply)).state.2 := by
  have hloop := Op.forEach_keeps (P := fun s : Saving ν => supply ≤ s.supply)
    (f := Saving.collect u.pending) (l := u.slots) (fun slot _ s hs => ?_) (u.le_begin supply)
  · unfold prepare
    simp only
    split <;> exact hloop
  · cases ha : s.usage.attempts.get? slot with
    | none => rwa [Saving.collect_of_none ha]
    | some a =>
      rw [(Saving.collect_keeps u.pending ha).2.1]
      exact hs.trans (a.le_numbering s.supply)

/-- A save to memory that cannot be prepared only issues ids; one that is prepared succeeds. -/
lemma save_cases {u : Usage ν} {s : Store ν} (hbackend : s.backend = .memory) :
    (∃ e, (prepare (u, s.supply)).result = .error e ∧
      (Store.save (u, s)).result =
        .error ((Failure.ofFault e).within "Failed to prepare usage for saving") ∧
      (Store.save (u, s)).state =
        ((prepare (u, s.supply)).state.1, { s with supply := (prepare (u, s.supply)).state.2 })) ∨
    ∃ plan, (prepare (u, s.supply)).result = .ok plan ∧ (Store.save (u, s)).result = .ok () ∧
      (Store.save (u, s)).state =
        ((prepare (u, s.supply)).state.1.settle,
          { s with
            supply := (prepare (u, s.supply)).state.2
            tables := s.tables.apply plan.write }) := by
  unfold Store.save
  cases hr : (prepare (u, s.supply)).result with
  | error e => exact .inl ⟨e, rfl, by simp [hr], by simp [hr]⟩
  | ok plan => exact .inr ⟨plan, rfl, by simp [hr, hbackend], by simp [hr, hbackend]⟩

lemma Sound.save {u : Usage ν} {s : Store ν} (hu : u.Sound) (hbackend : s.backend = .memory) :
    (Store.save (u, s)).state.1.Sound := by
  have hprepared := hu.prepare s.supply
  obtain ⟨e, -, -, hstate⟩ | ⟨plan, -, -, hstate⟩ := save_cases (u := u) hbackend
  · rw [hstate]
    exact hprepared
  · rw [hstate]
    exact hprepared.settle

/-- Who is told after a save that succeeds. -/
lemma observer_of_save {u : Usage ν} {s : Store ν} (hbackend : s.backend = .memory)
    (h : (Store.save (u, s)).result = .ok ()) : (Store.save (u, s)).state.1.observer = .changes := by
  obtain ⟨e, -, herror, -⟩ | ⟨plan, -, -, hstate⟩ := save_cases (u := u) hbackend
  · rw [herror] at h
    cases h
  · rw [hstate]
    exact observer_settle _

/-! ## Handles -/

/-- A usage that was made and is saved to a store, at any point.  Before there were operations,
whether they succeeded or failed, saves, and saves that could not be prepared or were aborted. -/
inductive Handled [Scalar ν] : Usage ν → Store ν → Prop
  | new {token plugin context preferred : String} {u : Usage ν} {s : Store ν}
    (h : Usage.new token plugin context preferred Registry.standard = .ok u)
    (hbackend : s.backend = .memory) (hpast : s.supply.Past s.tables) : Handled u s
  | operation {u : Usage ν} {s : Store ν} (h : Handled u s) (o : Operation ν) :
    Handled (o.after u) s
  | fail {u : Usage ν} {s : Store ν} {e : Fault} (h : Handled u s)
    (hfail : (prepare (u, s.supply)).result = .error e) :
    Handled (prepare (u, s.supply)).state.1 { s with supply := (prepare (u, s.supply)).state.2 }
  | abort {u : Usage ν} {s : Store ν} {plan : Plan ν} (h : Handled u s)
    (hok : (prepare (u, s.supply)).result = .ok plan) :
    Handled ((prepare (u, s.supply)).state.1.abort plan)
      { s with supply := (prepare (u, s.supply)).state.2 }
  | save {u : Usage ν} {s : Store ν} (h : Handled u s) :
    Handled (Store.save (u, s)).state.1 (Store.save (u, s)).state.2

/-- What holds of a usage and its store at every point. -/
structure Kept (u : Usage ν) (s : Store ν) : Prop where
  sound : u.Sound
  backend : s.backend = .memory
  past : s.supply.Past s.tables
  tracked : u.Unsaved ∨
    u.id.isStored = true ∧ ¬ s.supply.ToCome u.id.text ∧ ∃ c, Tracks u c s.tables

namespace Kept

variable {u : Usage ν} {s : Store ν}

/-- Only the supply has changed. -/
lemma supply (h : Kept u s) {supply : Supply} (hle : s.supply ≤ supply) :
    Kept u { s with supply := supply } where
  sound := h.sound
  backend := h.backend
  past := h.past.mono hle
  tracked := h.tracked.imp_right fun ⟨hstored, hnamed, htracks⟩ =>
    ⟨hstored, fun hcome => hnamed (hcome.mono hle), htracks⟩

lemma writing_begin (h : Kept u s) :
    Saving.Writing s.tables u.pending u.slots (Saving.begin u s.supply) := by
  obtain hunsaved | ⟨hstored, hnamed, c, htracks⟩ := h.tracked
  · exact Saving.writing_begin_of_unsaved h.sound hunsaved h.past
  · exact Saving.writing_begin_of_tracks h.sound htracks hstored h.past hnamed

/-- What a save leaves. -/
lemma save_eq (h : Kept u s) :
    (∃ e, (Store.save (u, s)).result = .error e ∧
      (Store.save (u, s)).state = (u, { s with supply := (prepare (u, s.supply)).state.2 })) ∨
    ∃ plan, (prepare (u, s.supply)).result = .ok plan ∧
      (Store.save (u, s)).state =
        ((prepare (u, s.supply)).state.1.settle,
          { s with
            supply := (prepare (u, s.supply)).state.2
            tables := s.tables.apply plan.write }) := by
  obtain ⟨e, he, hresult, hstate⟩ | ⟨plan, hok, -, hstate⟩ := save_cases (u := u) h.backend
  · rw [(prepare_undone h.sound s.supply).1 e he] at hstate
    exact .inl ⟨_, hresult, hstate⟩
  · exact .inr ⟨plan, hok, hstate⟩

/-- A save that is prepared stores the usage as it is then. -/
lemma writing_prepare (h : Kept u s) {plan : Plan ν}
    (hok : (prepare (u, s.supply)).result = .ok plan) :
    Saving.Writing s.tables u.pending []
      ⟨(prepare (u, s.supply)).state.1, (prepare (u, s.supply)).state.2, plan⟩ :=
  Saving.writing_prepare h.writing_begin hok

/-- A save that is prepared succeeds, and the tables have the usage then. -/
lemma saved_save (h : Kept u s) {plan : Plan ν} (hok : (prepare (u, s.supply)).result = .ok plan) :
    (Store.save (u, s)).result = .ok () ∧
      (Store.save (u, s)).state.1 = (prepare (u, s.supply)).state.1.settle ∧
      (Store.save (u, s)).state.1.Saved (Store.save (u, s)).state.2.tables := by
  obtain ⟨e, he, -⟩ | ⟨plan', hok', hresult, hstate⟩ := save_cases (u := u) h.backend
  · rw [hok] at he
    cases he
  · obtain rfl := Except.ok.inj (hok.symm.trans hok')
    rw [hstate]
    exact ⟨hresult, rfl, (h.writing_prepare hok).saved⟩

lemma save (h : Kept u s) : Kept (Store.save (u, s)).state.1 (Store.save (u, s)).state.2 := by
  obtain ⟨e, -, hstate⟩ | ⟨plan, hok, hstate⟩ := h.save_eq
  · rw [hstate]
    exact h.supply (u.le_prepare s.supply)
  · rw [hstate]
    have hwriting := h.writing_prepare hok
    have hid := (prepare (u, s.supply)).state.1.id_settle
    exact ⟨hwriting.sound.settle, h.backend, hwriting.past,
      .inr ⟨hid ▸ hwriting.stored, hid ▸ hwriting.named, _, hwriting.settle⟩⟩

variable [Scalar ν]

lemma change (h : Kept u s) {u' : Usage ν} (hs : u.Change u') (hsound : u'.Sound) : Kept u' s where
  sound := hsound
  backend := h.backend
  past := h.past
  tracked := by
    obtain hunsaved | ⟨hstored, hnamed, c, htracks⟩ := h.tracked
    · exact .inl (hunsaved.change hs)
    · have hid : u'.id = u.id := hs.id_eq
      exact .inr ⟨hid ▸ hstored, hid ▸ hnamed, htracks.change hs⟩

lemma operation (h : Kept u s) (o : Operation ν) : Kept (o.after u) s := by
  have hsteps := o.after_steps u
  generalize o.after u = u' at hsteps
  induction hsteps with
  | refl => exact h
  | tail _ hstep ih => exact ih.change (hstep.change ih.sound) (hstep.sound ih.sound)

end Kept

variable [Scalar ν]

/-- The invariant of handles. -/
theorem Handled.kept {u : Usage ν} {s : Store ν} (h : Handled u s) : Kept u s := by
  induction h with
  | new h hbackend hpast => exact ⟨sound_of_new h, hbackend, hpast, .inl (unsaved_of_new h)⟩
  | operation _ o ih => exact ih.operation o
  | @fail u s e _ hfail ih =>
    rw [(prepare_undone ih.sound s.supply).1 e hfail]
    exact ih.supply (u.le_prepare s.supply)
  | @abort u s plan _ hok ih =>
    rw [(prepare_undone ih.sound s.supply).2 plan hok]
    exact ih.supply (u.le_prepare s.supply)
  | save _ ih => exact ih.save

/-- A save loses nothing, although it writes only what has changed: after every save that succeeds, a
load from a bank that has the questions of the usage gives a usage that agrees with the one in
memory. -/
theorem save_loses_nothing {u : Usage ν} {s : Store ν} (h : Handled u s)
    (hok : (Store.save (u, s)).result = .ok ()) (questions : SortedMap String (Question ν))
    (hbank : ∀ slot a, (Store.save (u, s)).state.1.attempts.get? slot = some a →
      questions.get? a.question.id = some a.question) :
    ∃ v, (Store.load (Store.save (u, s)).state.1.id.text (.memory questions) Registry.standard
        (Store.save (u, s)).state.2).result = .ok v ∧
      (Store.save (u, s)).state.1.Agrees v := by
  obtain ⟨e, hfail, -⟩ | ⟨plan, hprepare, hstate⟩ := h.kept.save_eq
  · rw [hfail] at hok
    cases hok
  · have hsaved := (h.kept.writing_prepare hprepare).saved
    rw [hstate] at hbank ⊢
    exact hsaved.load_agrees h.kept.backend fun ha => hbank _ _ ha

/-- A usage is saved, a response is recorded, and the second save writes this step to those of the
first. -/
theorem save_loses_nothing_example :
    let question : Question Float := .trueFalse (TrueFalse.new "q1" "The sky is blue" true)
    let blank : Usage Float :=
      ⟨.ephemeral "t", "quiz", "course", "deferredfeedback", SortedMap.empty, Registry.standard, none⟩
    let started := (Operation.start 1 ⟨0⟩ none ⟨0, 0⟩).after
      ((Operation.add question none).after blank)
    let first := (Store.save (started, Store.empty .memory)).state
    let acted := (Operation.act 1 (SortedMap.ofList [("answer", "1")]) ⟨1000⟩ none).after first.1
    let second := (Store.save (acted, first.2)).state
    (second.1.attempts.get? 1).map (fun a => a.steps.length) = some 2 ∧
      ∃ v, (Store.load second.1.id.text (.memory (SortedMap.ofList [(question.id, question)]))
        Registry.standard second.2).result = .ok v ∧ second.1.Agrees v := by
  intro question blank started first acted second
  have hquestions : second.1.attempts.values.map Attempt.question = [question] := by
    subst second acted first started blank question
    rfl
  subst second
  have hnew : Usage.new "t" "quiz" "course" "deferredfeedback" Registry.standard = .ok blank := rfl
  have hstarted : Handled started (Store.empty .memory) := by
    refine .operation (.operation (.new hnew rfl ?_) _) _
    constructor <;> simp [Store.empty, Tables.empty]
  have hacted : Handled acted first.2 := .operation (.save hstarted) _
  have hisOk : (Store.save (acted, first.2)).result.isOk = true := by decide +kernel
  have hok : (Store.save (acted, first.2)).result = .ok () := by
    cases h : (Store.save (acted, first.2)).result with
    | error e => simp [h, Except.isOk, Except.toBool] at hisOk
    | ok _ => rfl
  have hbank : ∀ slot a, (Store.save (acted, first.2)).state.1.attempts.get? slot = some a →
      (SortedMap.ofList [(question.id, question)]).get? a.question.id = some a.question := by
    intro slot a ha
    have hmem : a.question ∈
        (Store.save (acted, first.2)).state.1.attempts.values.map Attempt.question :=
      List.mem_map.2 ⟨a, SortedMap.mem_values_iff.2 ⟨slot, ha⟩, rfl⟩
    rw [hquestions, List.mem_singleton] at hmem
    rw [hmem]
    exact SortedMap.get?_insert_self _ _ _
  have hlength : ((Store.save (acted, first.2)).state.1.attempts.get? 1).map
      (fun a => a.steps.length) = some 2 := by decide +kernel
  exact ⟨hlength, save_loses_nothing hacted hok _ hbank⟩

end Usage
end Assessment
