import Assessment.Proofs.Behaviour.Ruling

/-!
# What behaviours write down

While it rules on an action a behaviour writes variables of its own into the draft.  Which ones they
are depends on the behaviour alone (`Behaviour.bookkeeping`), they are all cached, and every other
variable of a kept draft is as it was sent (`Behaviour.rule_writes`).  So a cached variable that an
action did not bring was written by the behaviour, under one of these names.
-/

namespace Assessment

/-- The cached names that a behaviour writes under when it rules on an action. -/
def Behaviour.bookkeeping : Behaviour → List String
  | certainty => ["assumedcertainty", "rawfraction"]
  | interactive => ["rawfraction", "triesleft"]
  | adaptive _ => ["statestring"]
  | deferred | immediate | manual | information | missing _ => []

/-- The key of a variable that a behaviour caches. -/
def cachedBehaviourKey (name : String) : String := Owner.behaviour.key ("_" ++ name)

variable {ν : Type}

/-- A draft with the variables of another, except for some that a behaviour caches. -/
def Draft.Writes (names : List String) (d' d : Draft ν) : Prop :=
  ∀ key, (∀ name ∈ names, key ≠ cachedBehaviourKey name) → d'.vars.get? key = d.vars.get? key

namespace Draft.Writes

variable {names : List String} {d d' : Draft ν}

lemma of_vars (h : d'.vars = d.vars) : d'.Writes names d := fun key _ => by rw [h]

lemma withState (h : d'.Writes names d) (state : State) : (d'.withState state).Writes names d := h

lemma graded (h : d'.Writes names d) (grade : ν × State) : (d'.graded grade).Writes names d := h

lemma summarised (h : d'.Writes names d) (summary : Option String) :
    (d'.summarised summary).Writes names d :=
  h

lemma cache (h : d'.Writes names d) {name : String} (hname : name ∈ names) (value : String) :
    (d'.cache .behaviour name value).Writes names d := fun key hkey =>
  (SortedMap.get?_insert_of_ne _ (hkey name hname) value).trans (h key hkey)

/-- What a draft has and the one before it had not is one of the variables written. -/
lemma exists_of_new (h : d'.Writes names d) {key : String} (hkey : key ∈ d'.vars.keys)
    (hnew : key ∉ d.vars.keys) : ∃ name ∈ names, key = cachedBehaviourKey name := by
  by_contra hno
  have hsame := h key fun name hname heq => hno ⟨name, hname, heq⟩
  obtain ⟨e, he, rfl⟩ := List.mem_map.1 hkey
  rw [SortedMap.get?_eq_some_iff.2 he] at hsame
  exact hnew (List.mem_map_of_mem (SortedMap.get?_eq_some_iff.1 hsame.symm))

end Draft.Writes

/-- A ruling on a draft that writes at most some variables that a behaviour caches. -/
def Ruling.Writes (names : List String) (d : Draft ν) : Ruling ν → Prop
  | .discard => True
  | .keep d' => d'.Writes names d

namespace Ruling

variable {names : List String} {a : Attempt ν} {d : Draft ν}

lemma save_writes (isSame : Bool) : (save isSame a d).Writes names d := by
  unfold save
  split
  · trivial
  · exact .of_vars rfl

variable [Scalar ν]

lemma gradeLatest_writes : (gradeLatest a d).Writes names d := by
  unfold gradeLatest
  split
  · trivial
  · split <;> exact .of_vars rfl

lemma gradeDraft_writes (otherwise : State) : (gradeDraft otherwise a d).Writes names d := by
  unfold gradeDraft
  refine .summarised ?_ _
  split <;> exact .of_vars rfl

lemma comment_writes {r : Ruling ν} (h : comment a d = .ok r) : r.Writes names d := by
  cases ht : markText? d with
  | none =>
    rw [comment_of_noMark a ht] at h
    cases h
    exact .of_vars rfl
  | some text =>
    rw [comment_of_mark a ht] at h
    cases ha : award a d text with
    | error e => rw [ha] at h; cases h
    | ok fraction =>
      rw [ha] at h
      cases h
      exact .of_vars rfl

end Ruling

variable [Scalar ν] {a : Attempt ν} {d : Draft ν}

namespace Certainty

lemma grade_writes {response : Vars} {certainty : Option Certainty} {d' : Draft ν}
    (h : d'.vars = d.vars) :
    (grade a response certainty d').Writes Behaviour.certainty.bookkeeping d := by
  have h' : d'.Writes Behaviour.certainty.bookkeeping d := .of_vars h
  unfold grade
  cases certainty with
  | none => exact ((h'.cache (by simp [Behaviour.bookkeeping]) _).cache
      (by simp [Behaviour.bookkeeping]) _).graded _
  | some c => exact (h'.cache (by simp [Behaviour.bookkeeping]) _).graded _

lemma submit_writes : (submit a d).Writes Behaviour.certainty.bookkeeping d := by
  unfold submit
  split
  · trivial
  · simp only
    split
    · split
      · exact grade_writes rfl
      · exact .of_vars rfl
    · exact .of_vars rfl

omit [Scalar ν] in
lemma save_writes : (save a d).Writes Behaviour.certainty.bookkeeping d := by
  have h : (Ruling.save (isSame a d) a d).Writes Behaviour.certainty.bookkeeping d :=
    Ruling.save_writes _
  unfold save
  split
  · trivial
  · rename_i d' hd'
    rw [hd'] at h
    split
    · exact Draft.Writes.withState h _
    · exact h

lemma finish_writes : (finish a d).Writes Behaviour.certainty.bookkeeping d := by
  unfold finish
  split
  · trivial
  · split
    · exact grade_writes rfl
    · exact .of_vars rfl

end Certainty

namespace Interactive

lemma submit_writes : (submit a d).Writes Behaviour.interactive.bookkeeping d := by
  have hd : (d.summarised (a.question.summarise d.vars.questionPart)).Writes
      Behaviour.interactive.bookkeeping d := .of_vars rfl
  unfold submit
  split
  · trivial
  · simp only
    split
    · split
      · exact ((hd.cache (by simp [Behaviour.bookkeeping]) _).cache
          (by simp [Behaviour.bookkeeping]) _).graded _
      · exact (hd.cache (by simp [Behaviour.bookkeeping]) _).withState _
    · exact hd.withState _

omit [Scalar ν] in
lemma retry_writes {names : List String} : (retry a d).Writes names d := by
  unfold retry
  split
  · exact .of_vars rfl
  · trivial

omit [Scalar ν] in
lemma save_writes {names : List String} : (save a d).Writes names d := by
  unfold save
  split
  · trivial
  · exact Ruling.save_writes _

lemma finish_writes : (finish a d).Writes Behaviour.interactive.bookkeeping d := by
  have hd : d.Writes Behaviour.interactive.bookkeeping d := .of_vars rfl
  unfold finish
  split
  · trivial
  · split
    · exact (hd.cache (by simp [Behaviour.bookkeeping]) _).graded _
    · exact hd.withState _

end Interactive

namespace Adaptive

lemma submit_writes (preferred : String) :
    (submit a d).Writes (Behaviour.adaptive preferred).bookkeeping d := by
  have hd : (Ruling.gradeDraft .todo a d).Writes (Behaviour.adaptive preferred).bookkeeping d :=
    Ruling.gradeDraft_writes _
  unfold submit
  split
  · trivial
  · simp only
    split
    · exact hd
    · exact hd.cache (by simp [Behaviour.bookkeeping]) _

omit [Scalar ν] in
lemma finish_writes {names : List String} : (finish a d).Writes names d := by
  unfold finish
  split
  · trivial
  · exact .of_vars rfl

end Adaptive

namespace Behaviour

lemma onSave_writes (b : Behaviour) : (b.onSave a d).Writes b.bookkeeping d := by
  cases b with
  | certainty => exact Certainty.save_writes
  | interactive => exact Interactive.save_writes
  | _ => exact Ruling.save_writes _

lemma onFinish_writes (b : Behaviour) : (b.onFinish a d).Writes b.bookkeeping d := by
  cases b with
  | deferred => exact Ruling.gradeLatest_writes
  | immediate => exact Ruling.gradeLatest_writes
  | certainty => exact Certainty.finish_writes
  | interactive => exact Interactive.finish_writes
  | manual | information =>
    simp only [onFinish]
    split
    · trivial
    · exact .of_vars rfl
  | adaptive preferred => exact Adaptive.finish_writes
  | missing storedName => trivial

lemma Reacts.writes {b : Behaviour} {r : Ruling ν} (h : Reacts a d b r) :
    r.Writes b.bookkeeping d := by
  cases h with
  | finish b => exact b.onFinish_writes
  | save b => exact b.onSave_writes
  | submit =>
    unfold onSubmit
    split
    · trivial
    · exact Ruling.gradeDraft_writes _
  | submitSure => exact Certainty.submit_writes
  | submitTry => exact Interactive.submit_writes
  | retry => exact Interactive.retry_writes
  | seen =>
    unfold onSeen
    split
    · exact .of_vars rfl
    · trivial
  | adapt preferred => exact Adaptive.submit_writes preferred
  | ignore b => trivial

/-- A behaviour keeps the variables of an action as they were sent and adds nothing but its own
bookkeeping. -/
theorem rule_writes {b : Behaviour} {d' : Draft ν} (h : b.rule a d = .ok (.keep d')) :
    d'.Writes b.bookkeeping d := by
  cases hc : b.takesComment d.vars with
  | false =>
    obtain ⟨r, hr, hreacts⟩ := rule_of_not_takesComment a hc
    rw [h] at hr
    cases hr
    exact hreacts.writes
  | true =>
    rw [rule_of_takesComment a hc] at h
    unfold onComment at h
    split at h
    · split at h
      · cases h
      · exact Ruling.comment_writes h
    · exact Ruling.comment_writes h

end Behaviour
end Assessment
