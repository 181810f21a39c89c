import Assessment.Proofs.Store.Copy
import Mathlib.Data.Bool.Basic

/-!
# Two requests for one usage

Two requests submit batches to one stored usage.  Each loads the usage, submits its batch to what it has
loaded and saves the outcome, and stops at the first of these that fails.  They take turns in any order
(`Race.run`).

The sequence check of a batch compares with what the request has loaded, and nothing compares with what is
stored by the time of the save.  So everything depends on whether the requests *overlap*
(`Race.Overlaps`): whether at some point both hold the usage, having loaded it and not saved it.  As long
as they do not, the store is that of an exclusive owner, and who loads the usage after a save has all the
steps that were saved (`Race.Apart`).  When they do, the two saves know nothing of each other
(`Race.Overlapped`), and what comes of them is known from what copies write.
-/

namespace Assessment

variable {ν : Type}

/-! ## Requests -/

namespace Race

/-- A request to submit a batch to a stored usage. -/
structure Request (ν : Type) where
  bank : Bank ν
  registry : Registry
  batch : Batch
  time : Instant
  actor : Option String

/-- How far a request has come, with the usage as it was loaded and as it is after the batch. -/
inductive Progress (ν : Type)
  | waiting
  | loaded (usage : Usage ν)
  | submitted (loaded now : Usage ν)
  | saved (loaded now : Usage ν)
  | refused

namespace Progress

/-- The usage as it was loaded and as it is, while the request holds it. -/
def held? : Progress ν → Option (Usage ν × Usage ν)
  | loaded u => some (u, u)
  | submitted w u => some (w, u)
  | _ => none

/-- The request has not loaded the usage yet, or it was refused. -/
def IsIdle (p : Progress ν) : Prop := p = .waiting ∨ p = .refused

end Progress

variable [Scalar ν]

/-- The next thing that a request does. -/
def Request.move (q : Request ν) (usageId : String) : Progress ν → Store ν → Progress ν × Store ν
  | .waiting, s =>
    match (Store.load usageId q.bank q.registry s).result with
    | .ok u => (.loaded u, s)
    | .error _ => (.refused, s)
  | .loaded u, s =>
    let r := Usage.submit q.batch q.time q.actor u
    match r.result with
    | .ok _ => (.submitted u r.state, s)
    | .error _ => (.refused, s)
  | .submitted w u, s =>
    let r := Store.save (u, s)
    match r.result with
    | .ok _ => (.saved w u, r.state.2)
    | .error _ => (.refused, r.state.2)
  | p, s => (p, s)

end Race

/-- A store and two requests. -/
structure Race (ν : Type) where
  store : Store ν
  progress : Bool → Race.Progress ν

namespace Race

variable [Scalar ν]

/-- Before either request has done anything. -/
def start (s : Store ν) : Race ν := ⟨s, fun _ => .waiting⟩

/-- One of the requests does the next thing. -/
def next (requests : Bool → Request ν) (usageId : String) (r : Race ν) (i : Bool) : Race ν :=
  let moved := (requests i).move usageId (r.progress i) r.store
  ⟨moved.2, Function.update r.progress i moved.1⟩

/-- The requests take turns. -/
def run (requests : Bool → Request ν) (usageId : String) (s : Store ν) (order : List Bool) : Race ν :=
  order.foldl (next requests usageId) (start s)

lemma run_concat (requests : Bool → Request ν) (usageId : String) (s : Store ν) (order : List Bool)
    (i : Bool) : run requests usageId s (order ++ [i]) =
      next requests usageId (run requests usageId s order) i := by
  simp [run]

/-- A request has saved steps that it added in a slot. -/
def Added (r : Race ν) (slot : Nat) (i : Bool) : Prop :=
  ∃ w u, r.progress i = .saved w u ∧ w.GrowsIn slot u

/-- Both requests hold the usage. -/
def BothHold (r : Race ν) : Prop := ∀ i, (r.progress i).held?.isSome = true

/-- At some point both requests hold the usage. -/
def Overlaps (requests : Bool → Request ν) (usageId : String) (s : Store ν) (order : List Bool) : Prop :=
  ∃ before, before <+: order ∧ (run requests usageId s before).BothHold

/-! ## Moves -/

section Moves

variable {q : Request ν} {usageId : String} {s : Store ν} {p : Progress ν} {w u : Usage ν}

lemma Request.move_of_load (h : (Store.load usageId q.bank q.registry s).result = .ok u) :
    q.move usageId .waiting s = (.loaded u, s) := by
  simp [move, h]

lemma Request.move_of_submit (h : (Usage.submit q.batch q.time q.actor w).result = .ok ()) :
    q.move usageId (.loaded w) s =
      (.submitted w (Usage.submit q.batch q.time q.actor w).state, s) := by
  simp [move, h]

lemma Request.move_of_save (h : (Store.save (u, s)).result = .ok ()) :
    q.move usageId (.submitted w u) s = (.saved w u, (Store.save (u, s)).state.2) := by
  simp [move, h]

/-- What a request does that waits. -/
lemma move_waiting (q : Request ν) (usageId : String) (s : Store ν) :
    (∃ u, (Store.load usageId q.bank q.registry s).result = .ok u ∧
      q.move usageId .waiting s = (.loaded u, s)) ∨
    q.move usageId .waiting s = (.refused, s) := by
  cases hr : (Store.load usageId q.bank q.registry s).result with
  | error e => exact .inr (by simp [Request.move, hr])
  | ok u => exact .inl ⟨u, rfl, Request.move_of_load hr⟩

/-- What a request does that has loaded the usage. -/
lemma move_loaded (q : Request ν) (usageId : String) (w : Usage ν) (s : Store ν) :
    ((Usage.submit q.batch q.time q.actor w).result = .ok () ∧
      q.move usageId (.loaded w) s =
        (.submitted w (Usage.submit q.batch q.time q.actor w).state, s)) ∨
    q.move usageId (.loaded w) s = (.refused, s) := by
  cases hr : (Usage.submit q.batch q.time q.actor w).result with
  | error e => exact .inr (by simp [Request.move, hr])
  | ok _ => exact .inl ⟨rfl, Request.move_of_submit hr⟩

/-- What a request does that has submitted its batch. -/
lemma move_submitted (q : Request ν) (usageId : String) (w u : Usage ν) (s : Store ν) :
    ((Store.save (u, s)).result = .ok () ∧
      q.move usageId (.submitted w u) s = (.saved w u, (Store.save (u, s)).state.2)) ∨
    ∃ e, (Store.save (u, s)).result = .error e ∧
      q.move usageId (.submitted w u) s = (.refused, (Store.save (u, s)).state.2) := by
  cases hr : (Store.save (u, s)).result with
  | error e => exact .inr ⟨e, rfl, by simp [Request.move, hr]⟩
  | ok _ => exact .inl ⟨rfl, Request.move_of_save hr⟩

/-- What a request does that holds the usage: it makes a copy of it that is one as well, it is refused
and perhaps ids were issued, or it saves the usage. -/
lemma move_of_held (q : Request ν) (usageId : String) (hbackend : s.backend = .memory)
    (h : p.held? = some (w, u)) :
    (∃ u', (∀ {s' us}, Store.Copy s' us usageId w u → Store.Copy s' us usageId w u') ∧
      q.move usageId p s = (.submitted w u', s)) ∨
    (∃ supply, s.supply ≤ supply ∧
      q.move usageId p s = (.refused, { s with supply := supply })) ∨
    ∃ plan, (Usage.prepare (u, s.supply)).result = .ok plan ∧
      q.move usageId p s = (.saved w u, { s with
        supply := (Usage.prepare (u, s.supply)).state.2
        tables := s.tables.apply plan.write }) := by
  cases p with
  | loaded _ =>
    cases h
    obtain ⟨hok, hmove⟩ | hmove := move_loaded q usageId w s
    · exact .inl ⟨_, fun hcopy => hcopy.submit hok, hmove⟩
    · exact .inr (.inl ⟨s.supply, le_rfl, hmove⟩)
  | submitted _ _ =>
    cases h
    obtain ⟨e, -, hresult, hstate⟩ | ⟨plan, hok, hresult, hstate⟩ :=
      Usage.save_cases (u := u) hbackend <;>
      obtain ⟨hsaved, hmove⟩ | ⟨e', hfailed, hmove⟩ := move_submitted q usageId w u s <;>
      rw [hstate] at hmove
    · simp [hresult] at hsaved
    · exact .inr (.inl ⟨_, u.le_prepare s.supply, hmove⟩)
    · exact .inr (.inr ⟨plan, hok, hmove⟩)
    · simp [hresult] at hfailed
  | waiting => cases h
  | saved _ _ => cases h
  | refused => cases h

end Moves

variable {requests : Bool → Request ν} {usageId : String} {r : Race ν} {i : Bool}

/-- A move changes the store and the progress of the request that moves. -/
lemma next_eq {p : Progress ν} {s : Store ν}
    (h : (requests i).move usageId (r.progress i) r.store = (p, s)) :
    (next requests usageId r i).store = s ∧ (next requests usageId r i).progress i = p ∧
      (next requests usageId r i).progress (!i) = r.progress (!i) := by
  simp [next, h]

/-- A request that has saved the usage does nothing more. -/
lemma next_of_saved {w u : Usage ν} (h : r.progress i = .saved w u) :
    next requests usageId r i = r := by
  have hmove : (requests i).move usageId (r.progress i) r.store = (r.progress i, r.store) := by
    rw [h]
    rfl
  simp [next, hmove]

/-- Neither does one that was refused. -/
lemma next_of_refused (h : r.progress i = .refused) : next requests usageId r i = r := by
  have hmove : (requests i).move usageId (r.progress i) r.store = (r.progress i, r.store) := by
    rw [h]
    rfl
  simp [next, hmove]

/-! ## Where a race stands -/

/-- The requests have not overlapped, or one of them was refused since.  At most one of them holds the
usage, and it may be changed as if it were owned exclusively.  A request that loads the usage after the
other has saved it finds all the steps that were saved. -/
inductive Apart (us : List (Usage ν)) (usageId : String) (r : Race ν) : Prop
  | idle (h : ∃ owner, Store.Tended owner r.store us) (hidle : ∀ i, (r.progress i).IsIdle)
  | holds (i : Bool) {w u : Usage ν} (h : Store.Copy r.store us usageId w u)
    (hi : (r.progress i).held? = some (w, u)) (hother : (r.progress !i).IsIdle)
  | saved (i : Bool) {w u : Usage ν} (h : ∃ owner, Store.Tended owner r.store us)
    (hi : r.progress i = .saved w u) (hother : (r.progress !i).IsIdle)
    (hnext : (r.progress !i) = .waiting → ∀ {bank : Bank ν} {registry : Registry} {w' : Usage ν},
      (Store.load usageId bank registry r.store).result = .ok w' → u.SameLengths w')
  | follows (i : Bool) {w u w' u' : Usage ν} (h : Store.Copy r.store us usageId w' u')
    (hi : r.progress i = .saved w u) (hother : (r.progress !i).held? = some (w', u'))
    (hnext : u.SameLengths w')
  | done (i : Bool) {w u w' u' : Usage ν} (h : ∃ owner, Store.Tended owner r.store us)
    (hi : r.progress i = .saved w u) (hother : (r.progress !i) = .saved w' u')
    (hnext : u.SameLengths w')

/-- The requests have overlapped.  Both hold a copy of the same usage; or one of them was refused; or one
was saved to a store that the other has a copy from; or both were saved. -/
inductive Overlapped (us : List (Usage ν)) (usageId : String) (r : Race ν) : Prop
  | both (g : Usage ν) (h : ∀ i, ∃ w u, (r.progress i).held? = some (w, u) ∧
      Store.Copy r.store us usageId w u ∧ w.outline = g)
  | refused (i : Bool) (hi : r.progress i = .refused) (h : Apart us usageId r)
  | stale (i : Bool) {w u w' u' : Usage ν} {s : Store ν} {plan : Plan ν}
    (h : Store.Copy s us usageId w u) (h' : Store.Copy s us usageId w' u')
    (hsame : w'.outline = w.outline) (hok : (Usage.prepare (u, s.supply)).result = .ok plan)
    (hstore : r.store = { s with
      supply := (Usage.prepare (u, s.supply)).state.2, tables := s.tables.apply plan.write })
    (hi : r.progress i = .saved w u) (hother : (r.progress !i).held? = some (w', u'))
  | done (i : Bool) {w u w' u' : Usage ν} (hi : r.progress i = .saved w u)
    (hother : (r.progress !i) = .saved w' u')
    (h : r.store.tables.NumbersSteps ↔ ∀ slot, ¬ (w.GrowsIn slot u ∧ w'.GrowsIn slot u'))

/-! ## Requests that come one after the other -/

namespace Apart

variable {us : List (Usage ν)} {w u w' u' : Usage ν}

lemma next_idle (htended : ∃ owner, Store.Tended owner r.store us)
    (hidle : ∀ i, (r.progress i).IsIdle) (hfree : ∀ u ∈ us, u.id ≠ .stored usageId) (i : Bool) :
    Apart us usageId (next requests usageId r i) := by
  obtain hw | hr := hidle i
  · obtain ⟨owner, htended⟩ := htended
    obtain ⟨u, hu, hmove⟩ | hmove := move_waiting (requests i) usageId r.store <;>
      rw [← hw] at hmove <;> obtain ⟨hstore, hp, hother⟩ := next_eq hmove
    · have hcopy : Store.Copy r.store us usageId u u := .of_load htended hu hfree
      exact .holds i (hstore ▸ hcopy) (by rw [hp]; rfl) (hother ▸ hidle _)
    · exact .idle ⟨owner, hstore ▸ htended⟩ ((Bool.forall_bool' i).2 ⟨.inr hp, hother ▸ hidle _⟩)
  · rw [next_of_refused hr]
    exact .idle htended hidle

/-- The request that holds the usage moves. -/
lemma next_holds (h : Store.Copy r.store us usageId w u) (hi : (r.progress i).held? = some (w, u))
    (hother : (r.progress !i).IsIdle) : Apart us usageId (next requests usageId r i) := by
  obtain ⟨owner, htended⟩ := h.tended
  obtain ⟨u', hu', hmove⟩ | ⟨supply, hle, hmove⟩ | ⟨plan, hok, hmove⟩ :=
    move_of_held (requests i) usageId htended.backend hi <;>
    obtain ⟨hstore, hp, hsame⟩ := next_eq hmove <;> rw [← hsame] at hother
  · exact .holds i (hstore ▸ hu' h) (by rw [hp]; rfl) hother
  · exact .idle ⟨owner, hstore ▸ htended.tail.supply hle⟩ ((Bool.forall_bool' i).2 ⟨.inr hp, hother⟩)
  · refine .saved i (hstore ▸ h.tended_save hok) hp hother fun _ _ _ _ hload => ?_
    rw [hstore] at hload
    exact h.sameLengths_of_load hok hload

/-- The other request moves, and may get hold of the usage as well. -/
lemma next_other (h : Store.Copy r.store us usageId w u) (hi : (r.progress i).held? = some (w, u))
    (hother : (r.progress !i).IsIdle) (hfree : ∀ u ∈ us, u.id ≠ .stored usageId) :
    Apart us usageId (next requests usageId r !i) ∨
      (next requests usageId r !i).BothHold ∧ Overlapped us usageId (next requests usageId r !i) := by
  obtain hw | hr := hother
  · obtain ⟨owner, htended⟩ := h.tended
    obtain ⟨w', hw', hmove⟩ | hmove := move_waiting (requests !i) usageId r.store <;>
      rw [← hw] at hmove <;> obtain ⟨hstore, hp, hsame⟩ := next_eq hmove <;>
      rw [Bool.not_not] at hsame <;> rw [← hsame] at hi
    · have hcopy : Store.Copy r.store us usageId w' w' := .of_load htended.tail hw' hfree
      have hp' : ((next requests usageId r !i).progress !i).held? = some (w', w') := by rw [hp]; rfl
      refine .inr ⟨(Bool.forall_bool' i).2 ⟨by rw [hi]; rfl, by rw [hp']; rfl⟩, .both w.outline ?_⟩
      exact (Bool.forall_bool' i).2
        ⟨⟨w, u, hi, hstore ▸ h, rfl⟩, w', w', hp', hstore ▸ hcopy, h.outline_of_load hw'⟩
    · exact .inl (.holds i (hstore ▸ h) hi (.inr hp))
  · rw [next_of_refused hr]
    exact .inl (.holds i h hi (.inr hr))

/-- One request has saved the usage, and the other moves. -/
lemma next_saved (htended : ∃ owner, Store.Tended owner r.store us) (hi : r.progress i = .saved w u)
    (hother : (r.progress !i).IsIdle) (hfree : ∀ u ∈ us, u.id ≠ .stored usageId)
    (hnext : (r.progress !i) = .waiting → ∀ {bank : Bank ν} {registry : Registry} {w' : Usage ν},
      (Store.load usageId bank registry r.store).result = .ok w' → u.SameLengths w') :
    Apart us usageId (next requests usageId r !i) := by
  obtain hw | hr := hother
  · obtain ⟨owner, htended⟩ := htended
    obtain ⟨w', hw', hmove⟩ | hmove := move_waiting (requests !i) usageId r.store <;>
      rw [← hw] at hmove <;> obtain ⟨hstore, hp, hsame⟩ := next_eq hmove <;>
      rw [Bool.not_not] at hsame <;> rw [← hsame] at hi
    · have hcopy : Store.Copy r.store us usageId w' w' := .of_load htended hw' hfree
      exact .follows i (hstore ▸ hcopy) hi (by rw [hp]; rfl) (hnext hw hw')
    · exact .saved i ⟨owner, hstore ▸ htended⟩ hi (.inr hp) fun hwaits => by simp [hp] at hwaits
  · rw [next_of_refused hr]
    exact .saved i htended hi (.inr hr) hnext

/-- One request has saved the usage and the other has loaded it after that, and goes on. -/
lemma next_follows (h : Store.Copy r.store us usageId w' u') (hi : r.progress i = .saved w u)
    (hother : (r.progress !i).held? = some (w', u')) (hnext : u.SameLengths w') :
    Apart us usageId (next requests usageId r !i) := by
  obtain ⟨owner, htended⟩ := h.tended
  obtain ⟨u'', hu'', hmove⟩ | ⟨supply, hle, hmove⟩ | ⟨plan, hok, hmove⟩ :=
    move_of_held (requests !i) usageId htended.backend hother <;>
    obtain ⟨hstore, hp, hsame⟩ := next_eq hmove <;> rw [Bool.not_not] at hsame <;> rw [← hsame] at hi
  · exact .follows i (hstore ▸ hu'' h) hi (by rw [hp]; rfl) hnext
  · exact .saved i ⟨owner, hstore ▸ htended.tail.supply hle⟩ hi (.inr hp) fun hwaits => by
      simp [hp] at hwaits
  · exact .done i (hstore ▸ h.tended_save hok) hi hp hnext

/-- Requests that have not overlapped go on so, or both hold the usage now. -/
theorem next (h : Apart us usageId r) (hfree : ∀ u ∈ us, u.id ≠ .stored usageId)
    (requests : Bool → Request ν) (j : Bool) :
    Apart us usageId (Race.next requests usageId r j) ∨
      (Race.next requests usageId r j).BothHold ∧
        Overlapped us usageId (Race.next requests usageId r j) := by
  cases h with
  | idle htended hidle => exact .inl (next_idle htended hidle hfree j)
  | holds i hcopy hi hother =>
    obtain rfl | rfl := Bool.eq_or_eq_not j i
    · exact .inl (next_holds hcopy hi hother)
    · exact next_other hcopy hi hother hfree
  | saved i htended hi hother hnext =>
    obtain rfl | rfl := Bool.eq_or_eq_not j i
    · rw [next_of_saved hi]
      exact .inl (.saved j htended hi hother hnext)
    · exact .inl (next_saved htended hi hother hfree hnext)
  | follows i hcopy hi hother hnext =>
    obtain rfl | rfl := Bool.eq_or_eq_not j i
    · rw [next_of_saved hi]
      exact .inl (.follows j hcopy hi hother hnext)
    · exact .inl (next_follows hcopy hi hother hnext)
  | done i htended hi hother hnext =>
    obtain rfl | rfl := Bool.eq_or_eq_not j i
    · rw [next_of_saved hi]
      exact .inl (.done j htended hi hother hnext)
    · rw [next_of_saved hother]
      exact .inl (.done i htended hi hother hnext)

/-- When both requests have saved the usage, one has loaded it after the other's save. -/
lemma sameLengths (h : Apart us usageId r) {w u : Bool → Usage ν}
    (hsaved : ∀ i, r.progress i = .saved (w i) (u i)) : ∃ i, (u i).SameLengths (w !i) := by
  cases h with
  | idle _ hidle => simpa [Progress.IsIdle, hsaved] using hidle true
  | holds i _ hi _ => simp [hsaved, Progress.held?] at hi
  | saved i _ _ hother _ => simp [Progress.IsIdle, hsaved] at hother
  | follows i _ _ hother _ => simp [hsaved, Progress.held?] at hother
  | done i _ hi hother hnext =>
    rw [hsaved] at hi hother
    cases hi
    cases hother
    exact ⟨i, hnext⟩

/-- The store of requests that have not overlapped is that of an exclusive owner. -/
lemma tended (h : Apart us usageId r) : ∃ owner, Store.Tended owner r.store us := by
  cases h with
  | idle htended _ => exact htended
  | holds i hcopy _ _ =>
    obtain ⟨owner, htended⟩ := hcopy.tended
    exact ⟨owner, htended.tail⟩
  | saved i htended _ _ _ => exact htended
  | follows i hcopy _ _ _ =>
    obtain ⟨owner, htended⟩ := hcopy.tended
    exact ⟨owner, htended.tail⟩
  | done i htended _ _ _ => exact htended

lemma not_bothHold (h : Apart us usageId r) : ¬ r.BothHold := by
  have hidle : ∀ {i}, (r.progress i).IsIdle → (r.progress i).held?.isSome = true → False := by
    rintro i (hw | hr) hheld
    · simp [hw, Progress.held?] at hheld
    · simp [hr, Progress.held?] at hheld
  have hsaved : ∀ {i w u}, r.progress i = .saved w u → (r.progress i).held?.isSome = true → False := by
    intro i w u hi hheld
    simp [hi, Progress.held?] at hheld
  intro hboth
  cases h with
  | idle _ hall => exact hidle (hall true) (hboth true)
  | holds i _ _ hother => exact hidle hother (hboth _)
  | saved i _ hi _ _ => exact hsaved hi (hboth i)
  | follows i _ hi _ _ => exact hsaved hi (hboth i)
  | done i _ hi _ _ => exact hsaved hi (hboth i)

end Apart
end Race
end Assessment
