import Assessment.Command.Ids
import Assessment.Proofs.Store.Race
import Assessment.Proofs.Usage.Regrade

/-!
# Requests that overlap

What the sequence check does for two requests that submit to one stored usage, in whatever order they take
turns.  If they do not overlap, the steps of every attempt keep numbers of their own, and of two requests
that declare the same number of steps for a slot only one adds steps there.  If they overlap, the check
has nothing to say: the request that is saved second numbers its steps on from what it has loaded, and
these numbers are taken if the first has added to the same attempt.
-/

namespace Assessment
namespace Race

variable {ν : Type} [Scalar ν] {requests : Bool → Request ν} {usageId : String} {r : Race ν}
  {us : List (Usage ν)}

namespace Overlapped

/-- One of the requests that both hold the usage moves. -/
lemma next_both {g : Usage ν} (h : ∀ i, ∃ w u, (r.progress i).held? = some (w, u) ∧
      Store.Copy r.store us usageId w u ∧ w.outline = g) (i : Bool) :
    Overlapped us usageId (next requests usageId r i) := by
  obtain ⟨w, u, hi, hcopy, hw⟩ := h i
  obtain ⟨w', u', hother, hcopy', hw'⟩ := h !i
  obtain ⟨owner, htended⟩ := hcopy.tended
  obtain ⟨u'', hu'', hmove⟩ | ⟨supply, hle, hmove⟩ | ⟨plan, hok, hmove⟩ :=
    move_of_held (requests i) usageId htended.backend hi <;>
    obtain ⟨hstore, hp, hsame⟩ := next_eq hmove <;> rw [← hsame] at hother
  · exact .both g ((Bool.forall_bool' i).2
      ⟨⟨w, u'', by rw [hp]; rfl, hstore ▸ hu'' hcopy, hw⟩, w', u', hother, hstore ▸ hcopy', hw'⟩)
  · refine .refused i hp (.holds (!i) (hstore ▸ hcopy'.supply hle) hother ?_)
    rw [Bool.not_not]
    exact .inr hp
  · exact .stale i hcopy hcopy' (hw'.trans hw.symm) hok hstore hp hother

/-- One request has saved the usage since the other has loaded it, and the other moves. -/
lemma next_stale {i : Bool} {w u w' u' : Usage ν} {s : Store ν} {plan : Plan ν}
    (h : Store.Copy s us usageId w u) (h' : Store.Copy s us usageId w' u')
    (hsame : w'.outline = w.outline) (hok : (Usage.prepare (u, s.supply)).result = .ok plan)
    (hstore : r.store = { s with
      supply := (Usage.prepare (u, s.supply)).state.2, tables := s.tables.apply plan.write })
    (hi : r.progress i = .saved w u) (hother : (r.progress !i).held? = some (w', u')) :
    Overlapped us usageId (next requests usageId r !i) := by
  obtain ⟨owner, htended⟩ := h.tended_save hok
  rw [← hstore] at htended
  obtain ⟨u'', hu'', hmove⟩ | ⟨supply, hle, hmove⟩ | ⟨plan', hok', hmove⟩ :=
    move_of_held (requests !i) usageId htended.backend hother <;>
    obtain ⟨hstore', hp, hback⟩ := next_eq hmove <;> rw [Bool.not_not] at hback <;> rw [← hback] at hi
  · exact .stale i h (hu'' h') hsame hok (hstore'.trans hstore) hi (by rw [hp]; rfl)
  · exact .refused (!i) hp (.saved i ⟨owner, hstore' ▸ htended.supply hle⟩ hi (.inr hp) fun hwaits => by
      simp [hp] at hwaits)
  · refine .done i hi hp ?_
    have hnumbers : (s.tables.apply plan.write).NumbersSteps := by
      have hintact := htended.intact.numbersSteps
      rwa [hstore] at hintact
    rw [hstore', hstore]
    rw [hstore] at hok'
    exact h.numbersSteps_iff h' hsame hok hok' hnumbers

theorem next (h : Overlapped us usageId r) (hfree : ∀ u ∈ us, u.id ≠ .stored usageId) (j : Bool) :
    Overlapped us usageId (Race.next requests usageId r j) := by
  cases h with
  | both g h => exact next_both h j
  | refused i hi h =>
    obtain rfl | rfl := Bool.eq_or_eq_not j i
    · rw [next_of_refused hi]
      exact .refused j hi h
    · have hi' : (Race.next requests usageId r !i).progress i = .refused := by
        simp [Race.next, hi]
      obtain h' | ⟨hboth, -⟩ := h.next hfree requests !i
      · exact .refused i hi' h'
      · have hheld := hboth i
        simp [hi', Progress.held?] at hheld
  | stale i h h' hsame hok hstore hi hother =>
    obtain rfl | rfl := Bool.eq_or_eq_not j i
    · rw [next_of_saved hi]
      exact .stale j h h' hsame hok hstore hi hother
    · exact next_stale h h' hsame hok hstore hi hother
  | done i hi hother h =>
    obtain rfl | rfl := Bool.eq_or_eq_not j i
    · rw [next_of_saved hi]
      exact .done j hi hother h
    · rw [next_of_saved hother]
      exact .done i hi hother h

/-- Requests that have overlapped leave steps with the same number exactly if both have saved steps that
they added in one slot. -/
lemma numbersSteps (h : Overlapped us usageId r) :
    r.store.tables.NumbersSteps ↔ ¬ ∃ slot, ∀ i, r.Added slot i := by
  have hwaits : ∀ i, (∀ w u, r.progress i ≠ .saved w u) → ¬ ∃ slot, ∀ i, r.Added slot i := by
    rintro i hi ⟨slot, hadded⟩
    obtain ⟨w, u, hsaved, -⟩ := hadded i
    exact hi w u hsaved
  cases h with
  | both g h =>
    obtain ⟨w, u, hheld, hcopy, -⟩ := h true
    obtain ⟨owner, htended⟩ := hcopy.tended
    refine iff_of_true htended.intact.numbersSteps (hwaits true fun w u hsaved => ?_)
    simp [hsaved, Progress.held?] at hheld
  | refused i hi h =>
    obtain ⟨owner, htended⟩ := h.tended
    refine iff_of_true htended.intact.numbersSteps (hwaits i fun w u hsaved => ?_)
    simp [hsaved] at hi
  | stale i h h' hsame hok hstore hi hother =>
    obtain ⟨owner, htended⟩ := h.tended_save hok
    rw [← hstore] at htended
    refine iff_of_true htended.intact.numbersSteps (hwaits (!i) fun w u hsaved => ?_)
    simp [hsaved, Progress.held?] at hother
  | done i hi hother h =>
    rw [h, ← not_exists]
    refine not_congr (exists_congr fun slot => ?_)
    rw [Bool.forall_bool' i]
    simp [Added, hi, hother]

end Overlapped

/-! ## All orders -/

/-- Where a race stands depends on whether the requests have overlapped. -/
theorem run_cases {s : Store ν} (h : ∃ owner, Store.Tended owner s us)
    (hfree : ∀ u ∈ us, u.id ≠ .stored usageId) (requests : Bool → Request ν) (order : List Bool) :
    ¬ Overlaps requests usageId s order ∧ Apart us usageId (run requests usageId s order) ∨
      Overlaps requests usageId s order ∧ Overlapped us usageId (run requests usageId s order) := by
  induction order using List.reverseRecOn with
  | nil =>
    have hstart : Apart us usageId (run requests usageId s []) := .idle h fun _ => .inl rfl
    refine .inl ⟨?_, hstart⟩
    rintro ⟨before, hbefore, hboth⟩
    rw [List.prefix_nil.1 hbefore] at hboth
    exact hstart.not_bothHold hboth
  | append_singleton order j ih =>
    have hoverlaps : Overlaps requests usageId s (order ++ [j]) ↔
        (run requests usageId s (order ++ [j])).BothHold ∨ Overlaps requests usageId s order := by
      simp only [Overlaps, List.prefix_concat_iff, or_and_right, exists_or, exists_eq_left]
    rw [hoverlaps, run_concat]
    obtain ⟨hnot, hapart⟩ | ⟨hover, hoverlapped⟩ := ih
    · obtain hnext | ⟨hboth, hnext⟩ := hapart.next hfree requests j
      · exact .inl ⟨not_or.2 ⟨hnext.not_bothHold, hnot⟩, hnext⟩
      · exact .inr ⟨.inl hboth, hnext⟩
    · exact .inr ⟨.inr hover, hoverlapped.next hfree j⟩

/-- The turns of a request do not change the progress of the other. -/
lemma progress_run_append (requests : Bool → Request ν) (usageId : String) (s : Store ν)
    (order : List Bool) {order' : List Bool} {i : Bool} (h : i ∉ order') :
    (run requests usageId s (order ++ order')).progress i =
      (run requests usageId s order).progress i := by
  induction order' using List.reverseRecOn with
  | nil => rw [List.append_nil]
  | append_singleton order' j ih =>
    have hj : i ≠ j := fun heq => h (by simp [heq])
    rw [← ih fun hi => h (List.mem_append_left _ hi), ← List.append_assoc, run_concat]
    simp [next, Function.update_of_ne hj]

/-- A request is through after three turns. -/
lemma held?_run_three (requests : Bool → Request ν) (usageId : String) (s : Store ν) (i : Bool) :
    ((run requests usageId s [i, i, i]).progress i).held? = none := by
  simp only [run, List.foldl_cons, List.foldl_nil, start, next, Function.update_self]
  obtain ⟨w, -, hload⟩ | hload := move_waiting (requests i) usageId s <;> rw [hload]
  · obtain ⟨-, hsubmit⟩ | hsubmit := move_loaded (requests i) usageId w s <;> rw [hsubmit]
    · obtain ⟨-, hsave⟩ | ⟨e, -, hsave⟩ := move_submitted (requests i) usageId w
        (Usage.submit (requests i).batch (requests i).time (requests i).actor w).state s <;>
        rw [hsave] <;> rfl
    · rfl
  · rfl

/-- Requests that come one after the other do not overlap. -/
lemma not_overlaps_of_sequential (requests : Bool → Request ν) (usageId : String) (s : Store ν)
    {order : List Bool} {i : Bool} (h : i ∉ order) :
    ¬ Overlaps requests usageId s ([i, i, i] ++ order) := by
  have hwaits : ∀ {before}, (!i) ∉ before → ¬ (run requests usageId s before).BothHold := by
    intro before hbefore hboth
    have hheld := hboth !i
    rw [← List.nil_append before, progress_run_append requests usageId s [] hbefore] at hheld
    simp [run, start, Progress.held?] at hheld
  rintro ⟨before, hbefore, hboth⟩
  simp only [List.cons_append, List.nil_append, List.prefix_cons_iff] at hbefore
  obtain rfl | ⟨_, rfl, rfl | ⟨_, rfl, rfl | ⟨rest, rfl, hrest⟩⟩⟩ := hbefore
  · exact hwaits (by simp) hboth
  · exact hwaits (by simp) hboth
  · exact hwaits (by simp) hboth
  · have hheld := hboth i
    rw [show i :: i :: i :: rest = [i, i, i] ++ rest from rfl,
      progress_run_append requests usageId s [i, i, i] fun hi => h (hrest.subset hi),
      held?_run_three] at hheld
    cases hheld

/-! ## What is submitted -/

/-- What a request has submitted is what its batch makes of the usage that it has loaded. -/
def Progress.Obeys (q : Request ν) (p : Progress ν) : Prop :=
  ∀ w u, p = .submitted w u ∨ p = .saved w u →
    (Usage.submit q.batch q.time q.actor w).result = .ok () ∧
      (Usage.submit q.batch q.time q.actor w).state = u

lemma Progress.Obeys.move {q : Request ν} {p : Progress ν} (h : p.Obeys q) (usageId : String)
    (s : Store ν) : (q.move usageId p s).1.Obeys q := by
  cases p with
  | waiting =>
    obtain ⟨u, -, hmove⟩ | hmove := move_waiting q usageId s <;> rw [hmove] <;>
      exact fun _ _ hp => by simp at hp
  | loaded w =>
    obtain ⟨hok, hmove⟩ | hmove := move_loaded q usageId w s <;> rw [hmove] <;>
      rintro w' u' (hp | hp) <;> cases hp
    exact ⟨hok, rfl⟩
  | submitted w u =>
    obtain ⟨-, hmove⟩ | ⟨e, -, hmove⟩ := move_submitted q usageId w u s <;> rw [hmove] <;>
      rintro w' u' (hp | hp) <;> cases hp
    exact h w u (.inl rfl)
  | saved w u => exact h
  | refused => exact h

lemma obeys_run (requests : Bool → Request ν) (usageId : String) (s : Store ν) (order : List Bool)
    (i : Bool) : ((run requests usageId s order).progress i).Obeys (requests i) := by
  induction order using List.reverseRecOn with
  | nil => exact fun _ _ hp => by simp [run, start] at hp
  | append_singleton order j ih =>
    rw [run_concat]
    by_cases hij : i = j
    · subst hij
      simpa [next] using ih.move usageId _
    · simpa [next, Function.update_of_ne hij] using ih

/-! ## The sequence check -/

/-- Sequence checks protect requests that do not overlap.  Two requests submit batches to one stored
usage, in any order of their turns.  Afterwards two steps of one attempt have the same number exactly if
the requests overlapped and both have saved steps that they added in one slot.  And if both declare the
same number of steps for a slot, they have both saved steps that they added there only if they
overlapped. -/
theorem checks_protect_unless_overlapping {s : Store ν} (h : Store.Exclusive s us)
    (hfree : ∀ u ∈ us, u.id ≠ .stored usageId) (requests : Bool → Request ν) (order : List Bool) :
    ((run requests usageId s order).store.tables.NumbersSteps ↔
      ¬ (Overlaps requests usageId s order ∧
        ∃ slot, ∀ i, (run requests usageId s order).Added slot i)) ∧
    ∀ slot n, (∀ i, ((requests i).batch.submission slot).sequenceCheck = some n) →
      (∀ i, (run requests usageId s order).Added slot i) → Overlaps requests usageId s order := by
  obtain ⟨hnot, hapart⟩ | ⟨hover, hoverlapped⟩ := run_cases h.tended hfree requests order
  · obtain ⟨owner, htended⟩ := hapart.tended
    refine ⟨iff_of_true htended.intact.numbersSteps fun hover => hnot hover.1,
      fun slot n hcheck hadded => ?_⟩
    choose w u hsaved hgrows using hadded
    -- the second request would have loaded as many steps as the first had after its batch
    obtain ⟨i, hlengths⟩ := hapart.sameLengths hsaved
    have hloaded : ∀ j {a}, (w j).attempts.get? slot = some a → a.steps.length = n := by
      intro j a ha
      obtain ⟨hok, hstate⟩ := obeys_run requests usageId s order j (w j) (u j) (.inr (hsaved j))
      exact Usage.length_of_sequenceCheck hok (hcheck j) (hstate ▸ hgrows j) ha
    obtain ⟨a, a', ha, ha', hlt⟩ := hgrows i
    obtain ⟨b, b', hb, -, -⟩ := hgrows !i
    have hlength : b.steps.length = a'.steps.length := hlengths ha' hb
    rw [hloaded i ha, ← hlength, hloaded (!i) hb] at hlt
    exact absurd hlt (Nat.lt_irrefl n)
  · refine ⟨?_, fun _ _ _ _ => hover⟩
    rw [hoverlapped.numbersSteps]
    exact not_congr ⟨fun hadded => ⟨hover, hadded⟩, fun hboth => hboth.2⟩

/-! ## Two answers to one page -/

namespace Sample

def question : Question Float := .trueFalse (TrueFalse.new "q1" "The sky is blue" true)

def blank : Usage Float :=
  ⟨.ephemeral "t", "quiz", "course", "deferredfeedback", SortedMap.empty, Registry.standard, none⟩

/-- A usage that was started and saved. -/
def stored : Usage Float × Store Float :=
  let started := (Usage.Operation.start 1 ⟨0⟩ none ⟨0, 0⟩).after
    ((Usage.Operation.add question none).after blank)
  (Store.save (started, Store.empty .memory)).state

/-- Either answer, on a page that was rendered for the first step. -/
def request (i : Bool) : Request Float where
  bank := .memory (SortedMap.ofList [(question.id, question)])
  registry := Registry.standard
  batch := ⟨some [1], SortedMap.ofList
    [(1, ⟨SortedMap.ofList [("answer", if i then "1" else "0")], some 1, none⟩)]⟩
  time := ⟨1000⟩
  actor := none

/-- The usage with one of the answers. -/
def answered (i : Bool) (w : Usage Float) : Usage Float :=
  (Usage.submit (request i).batch (request i).time (request i).actor w).state

lemma exclusive : Store.Exclusive stored.2 [] := by
  have hnew : Usage.new "t" "quiz" "course" "deferredfeedback" Registry.standard = .ok blank := rfl
  exact (Store.Exclusive.operation (.operation (.make .empty hnew) _) _).save.release

lemma sequenceCheck (i : Bool) : ((request i).batch.submission 1).sequenceCheck = some 1 := by
  cases i <;> rfl

/-- What has been stored can be loaded and takes either answer, and it can be saved with one and then the
other, although both make the second step. -/
lemma exists_loaded : ∃ w,
    (Store.load stored.1.id.text (request true).bank Registry.standard stored.2).result = .ok w ∧
    (∀ i, (Usage.submit (request i).batch (request i).time (request i).actor w).result = .ok ()) ∧
    (w.attempts.get? 1).map (fun a => a.steps.length) = some 1 ∧
    (∀ i, ((answered i w).attempts.get? 1).map (fun a => a.steps.length) = some 2) ∧
    let first := Store.save (answered true w, stored.2)
    let second := Store.save (answered false w, first.state.2)
    first.result = .ok () ∧ second.result = .ok () ∧
      second.state.2.tables.steps.map StepRow.index = [0, 1, 1] ∧
      ∃ row ∈ second.state.2.tables.steps,
        ¬ ((second.state.2.tables.stepsOf row.attemptId).map StepRow.index).Nodup := by
  have hbackend : stored.2.backend = .memory := by decide +kernel
  have hrow : stored.2.tables.usages.find? (fun r => r.id == stored.1.id.text) =
      some ⟨stored.1.id.text, "quiz", "course", "deferredfeedback"⟩ := by decide +kernel
  rw [Usage.load_of_pairwise hbackend hrow (by decide +kernel)]
  exact Usage.exists_ok_of_any (by decide +kernel)

end Sample

/-- Both answers were accepted, and the second step was stored twice. -/
theorem overlapping_submissions_collide :
    let r := run Sample.request Sample.stored.1.id.text Sample.stored.2
      [true, false, true, false, true, false]
    Store.Exclusive Sample.stored.2 [] ∧
      (∀ i, ((Sample.request i).batch.submission 1).sequenceCheck = some 1) ∧ (∀ i, r.Added 1 i) ∧
      r.store.tables.steps.map StepRow.index = [0, 1, 1] ∧ ¬ r.store.tables.NumbersSteps := by
  intro r
  obtain ⟨w, hload, hsubmit, hlength, hlengths, hsave, hsave', hindices, row, -, hcollide⟩ :=
    Sample.exists_loaded
  have hloaded : ∀ i, (Sample.request i).move Sample.stored.1.id.text .waiting Sample.stored.2 =
      (.loaded w, Sample.stored.2) := fun i => Request.move_of_load hload
  have hrun : r = ⟨(Store.save (Sample.answered false w,
      (Store.save (Sample.answered true w, Sample.stored.2)).state.2)).state.2,
      fun i => .saved w (Sample.answered i w)⟩ := by
    have hprogress : ∀ {p : Bool → Progress Float} {x : Progress Float},
        Function.update p true x false = p false ∧ Function.update p false x true = p true := by
      simp
    simp only [r, run, List.foldl_cons, List.foldl_nil, start, next, hprogress, Function.update_self,
      hloaded, Request.move_of_submit (hsubmit _), ← Sample.answered.eq_def, Request.move_of_save hsave,
      Request.move_of_save hsave', Race.mk.injEq, true_and]
    funext i
    cases i <;> simp
  rw [hrun]
  exact ⟨Sample.exclusive, Sample.sequenceCheck,
    fun i => ⟨w, _, rfl, Usage.growsIn_of_lengths (by decide) hlength (hlengths i)⟩, hindices,
    fun hnumbers => hcollide (hnumbers row.attemptId)⟩

/-- When one answer comes after the other, only the first adds a step. -/
theorem checks_protect_unless_overlapping_example :
    let r := run Sample.request Sample.stored.1.id.text Sample.stored.2
      [true, true, true, false, false, false]
    Store.Exclusive Sample.stored.2 [] ∧
      (∀ i, ((Sample.request i).batch.submission 1).sequenceCheck = some 1) ∧
      r.Added 1 true ∧ ¬ r.Added 1 false ∧ r.store.tables.NumbersSteps := by
  intro r
  have hapart : ¬ Overlaps Sample.request Sample.stored.1.id.text Sample.stored.2
      ([true, true, true] ++ [false, false, false]) :=
    not_overlaps_of_sequential Sample.request Sample.stored.1.id.text Sample.stored.2 (by decide)
  obtain ⟨w, hload, hsubmit, hlength, hlengths, hsave, -⟩ := Sample.exists_loaded
  have hadded : r.Added 1 true := by
    refine ⟨w, Sample.answered true w, ?_,
      Usage.growsIn_of_lengths (by decide) hlength (hlengths true)⟩
    have hfirst : (run Sample.request Sample.stored.1.id.text Sample.stored.2
        [true, true, true]).progress true = .saved w (Sample.answered true w) := by
      have hloaded : (Sample.request true).move Sample.stored.1.id.text .waiting Sample.stored.2 =
          (.loaded w, Sample.stored.2) := Request.move_of_load hload
      simp only [run, List.foldl_cons, List.foldl_nil, start, next, Function.update_self, hloaded,
        Request.move_of_submit (hsubmit _), ← Sample.answered.eq_def, Request.move_of_save hsave]
    rw [← hfirst]
    exact progress_run_append Sample.request Sample.stored.1.id.text Sample.stored.2
      [true, true, true] (by decide)
  obtain ⟨hnumbers, hchecks⟩ := checks_protect_unless_overlapping Sample.exclusive (by simp)
    Sample.request [true, true, true, false, false, false]
  refine ⟨Sample.exclusive, Sample.sequenceCheck, hadded, fun hadded' => ?_,
    hnumbers.2 fun hover => hapart hover.1⟩
  exact hapart (hchecks 1 1 Sample.sequenceCheck ((Bool.forall_bool' true).2 ⟨hadded, hadded'⟩))

end Race
end Assessment
