import Assessment.Proofs.Store.Holding
import Assessment.Proofs.Store.Resave

/-!
# Sessions

In a reached store (`Store.Reached`) a stored usage may be held several times and in states that are
out of date, so nothing is known of how what is in memory goes with what is stored.  In a *session*
(`Store.Session`) who loads a usage owns it alone: no stored usage is in memory twice, every operation
and every save takes the place of the state before, and nothing else is done to a stored usage while
it is in memory.  Whatever is added, started and submitted can be replayed
(`Usage.Operation.IsReplayable`), and questions come from one bank.

The invariant is `Store.Held`: a usage in memory keeps track of its changes, and every usage that the
store has is in the tables as some usage is that a replay reproduces.
-/

namespace Assessment

variable {ν : Type}

namespace Store

/-! ## Sessions -/

section Sessions

variable [Scalar ν]

/-- The stores that are reached from an empty one in memory, with the usages in memory, when each
usage has one owner at a time.  The usage that a move is about stands first. -/
inductive Session (questions : SortedMap String (Question ν)) : Store ν → List (Usage ν) → Prop
  | empty [IdSource] : Session questions (Store.empty .memory) []
  | make {s : Store ν} {us : List (Usage ν)} (h : Session questions s us)
    {token plugin context preferred : String} {u : Usage ν}
    (hu : Usage.new token plugin context preferred Registry.standard = .ok u) :
    Session questions s (u :: us)
  | load {s : Store ν} {us : List (Usage ν)} (h : Session questions s us) {v : String} {u : Usage ν}
    (hu : (Store.load v (.memory questions) Registry.standard s).result = .ok u)
    (hfree : ∀ u' ∈ us, u'.id ≠ .stored v) : Session questions s (u :: us)
  | operation {s : Store ν} {us : List (Usage ν)} {u : Usage ν} (h : Session questions s (u :: us))
    (o : Usage.Operation ν) (ho : o.IsReplayable questions) : Session questions s (o.after u :: us)
  | save {s : Store ν} {us : List (Usage ν)} {u : Usage ν} (h : Session questions s (u :: us)) :
    Session questions (Store.save (u, s)).state.2 ((Store.save (u, s)).state.1 :: us)
  | abort {s : Store ν} {us : List (Usage ν)} {u : Usage ν} (h : Session questions s (u :: us))
    {plan : Plan ν} (hok : (Usage.prepare (u, s.supply)).result = .ok plan) :
    Session questions { s with supply := (Usage.prepare (u, s.supply)).state.2 }
      ((Usage.prepare (u, s.supply)).state.1.abort plan :: us)
  | release {s : Store ν} {us : List (Usage ν)} {u : Usage ν} (h : Session questions s (u :: us)) :
    Session questions s us
  | turn {s : Store ν} {us us' : List (Usage ν)} (h : Session questions s us) (hperm : us.Perm us') :
    Session questions s us'
  | delete {s : Store ν} {us : List (Usage ν)} (h : Session questions s us) (uid : String)
    (hfree : ∀ u ∈ us, u.id ≠ .stored uid) : Session questions (Store.delete uid s).state us
  | setMaxMark {s : Store ν} {us : List (Usage ν)} (h : Session questions s us) (ids : List String)
    (slot : Nat) (m : ν) (hfree : ∀ u ∈ us, ∀ v ∈ ids, u.id ≠ .stored v) :
    Session questions (Store.setMaxMark ids slot m s).state us

/-- What holds at every point of a session. -/
structure Held (questions : SortedMap String (Question ν)) (owner : String → String) (s : Store ν)
    (us : List (Usage ν)) : Prop where
  store : s.Owned owner
  owned : ∀ u ∈ us, u.Owned owner s.supply
  kept : ∀ u ∈ us, u.Kept s
  reproducible : ∀ u ∈ us, u.Reproducible questions
  -- no stored usage is in memory twice
  apart : us.Pairwise fun u u' => ∀ v, u.id = .stored v → u'.id ≠ .stored v
  -- the tables have usages that a replay reproduces, whether they are in memory or not
  saved : ∀ v, s.Has v → ∃ g : Usage ν, g.id = .stored v ∧ g.Saved s.tables ∧
    g.Reproducible questions

lemma Holds.held {questions : SortedMap String (Question ν)} {owner : String → String} {s : Store ν}
    {us : List (Usage ν)} (h : Holds (fun u => u.Reproducible questions) owner s us) :
    Held questions owner s us :=
  ⟨h.store, h.owned, h.kept, h.property, h.apart, h.saved⟩

/-- A stored usage as a load gives it. -/
lemma Held.load {questions : SortedMap String (Question ν)} {owner : String → String} {s : Store ν}
    {us : List (Usage ν)} (h : Held questions owner s us) {v : String} (hv : s.Has v) :
    ∃ u, (Store.load v (.memory questions) Registry.standard s).result = .ok u ∧
      u.id = .stored v ∧ u.pending = some Changes.none ∧ u.Saved s.tables ∧
      u.Reproducible questions := by
  obtain ⟨g, hid, hsaved, hreproducible⟩ := h.saved v hv
  have hload := hsaved.load_eq h.store.backend fun ha => (hreproducible.attempts ha).question
  rw [hid] at hload
  exact ⟨g.reloaded, hload, hid, rfl, hsaved.reloaded, hreproducible.reloaded⟩

/-- Marks that are set are set in the saved usages, none of which is in memory. -/
lemma Holds.setMaxMark {questions : SortedMap String (Question ν)} {owner : String → String}
    {s : Store ν} {us : List (Usage ν)} (h : Holds (fun u => u.Reproducible questions) owner s us)
    (ids : List String) (slot : Nat) (m : ν) (hfree : ∀ u ∈ us, ∀ v ∈ ids, u.id ≠ .stored v) :
    Holds (fun u => u.Reproducible questions) owner (Store.setMaxMark ids slot m s).state us := by
  obtain ⟨hstate, howned⟩ := h.store.setMaxMark ids slot m
  rw [hstate] at howned ⊢
  refine h.leads ⟨h.store, howned, le_rfl, fun _ _ => rfl⟩ (fun u hu v hid => ?_)
    (fun v hv => ?_) h.usages fun r hr => ?_
  · exact Tables.Owned.sameRows_setMaxMark ids slot m fun hmem => hfree u hu v hmem hid
  · by_cases hmem : v ∈ ids
    · obtain ⟨g, hid, hsaved, hreproducible⟩ := h.saved v hv
      have htext : g.id.text ∈ ids := by
        rw [hid]
        exact hmem
      exact .inr ⟨g.withMaxMark slot m, hid, hsaved.setMaxMark htext slot m,
        hreproducible.withMaxMark slot m⟩
    · exact .inl ⟨hv, Tables.Owned.sameRows_setMaxMark ids slot m hmem⟩
  · obtain ⟨r', hr', rfl⟩ := (Tables.mem_attempts_setMaxMark ids slot m).1 hr
    have hhas := h.usageOf r' hr'
    split <;> exact hhas

/-- The invariant of sessions. -/
theorem Session.held {questions : SortedMap String (Question ν)} {s : Store ν} {us : List (Usage ν)}
    (h : Session questions s us) : ∃ owner, Held questions owner s us := by
  suffices hholds : ∃ owner, Holds (fun u => u.Reproducible questions) owner s us by
    obtain ⟨owner, h⟩ := hholds
    exact ⟨owner, h.held⟩
  induction h with
  | empty => exact ⟨id, .empty _ id⟩
  | make _ hu ih =>
    obtain ⟨owner, h⟩ := ih
    refine ⟨owner, h.make (Usage.unsaved_of_new hu) (Usage.owned_of_new hu owner _) ?_⟩
    rw [Usage.eq_of_new hu]
    exact ⟨rfl, fun ha => by simp at ha⟩
  | load _ hu hfree ih =>
    obtain ⟨owner, h⟩ := ih
    obtain ⟨row, hrow, hrowId, -⟩ := Usage.of_load hu
    obtain ⟨u', hload, hid, hpending, hsaved, hreproducible⟩ := h.held.load ⟨row, hrow, hrowId⟩
    obtain rfl := Except.ok.inj (hu.symm.trans hload)
    exact ⟨owner, h.load hsaved hpending hreproducible (hid ▸ hfree)⟩
  | @operation s us u _ o ho ih =>
    obtain ⟨owner, h⟩ := ih
    exact ⟨owner, h.replace ((h.owned u List.mem_cons_self).operation o)
      ((h.kept u List.mem_cons_self).operation o) ((h.property u List.mem_cons_self).operation ho)
      (Usage.Steps.id_eq (o.after_steps u))⟩
  | @save s us u _ ih =>
    obtain ⟨owner, h⟩ := ih
    refine h.save fun plan hok => ?_
    exact ((h.property u List.mem_cons_self).prepare hok).settle
  | abort _ hok ih =>
    obtain ⟨owner, h⟩ := ih
    exact ⟨owner, h.abort hok⟩
  | release _ ih =>
    obtain ⟨owner, h⟩ := ih
    exact ⟨owner, h.tail⟩
  | turn _ hperm ih =>
    obtain ⟨owner, h⟩ := ih
    exact ⟨owner, h.perm hperm⟩
  | delete _ uid hfree ih =>
    obtain ⟨owner, h⟩ := ih
    exact ⟨owner, h.delete hfree⟩
  | setMaxMark _ ids slot m hfree ih =>
    obtain ⟨owner, h⟩ := ih
    exact ⟨owner, h.setMaxMark ids slot m hfree⟩

end Sessions
end Store
end Assessment
