import Assessment.Proofs.Record.Row
import Assessment.Record.Question

/-!
# Stored forms of questions

The document of a question names its type beside its fields, and it is read back as the question that
was written.  What is asked of a question is that its numbers are kept by their texts, and that its type
has a stored form at all.  The mark and the penalty that stand in where none are given are numbers of
this kind.
-/

namespace Assessment

open Document RecordView

variable {ν : Type}

/-! ## Fields of each type -/

/-- What is asked of a statement, its numbers satisfying `p`. -/
def TrueFalse.Holds (p : ν → Prop) (q : TrueFalse ν) : Prop := p q.defaultMark ∧ p q.penalty

/-- What is asked of a question with answers on offer, its numbers satisfying `p`. -/
structure MultiChoice.Holds (p : ν → Prop) (q : MultiChoice ν) : Prop where
  defaultMark : p q.defaultMark
  penalty : p q.penalty
  choices : ∀ c ∈ q.choices, p c.fraction

/-- What is asked of an essay, its mark satisfying `p`. -/
def Essay.Holds (p : ν → Prop) (q : Essay ν) : Prop := p q.defaultMark

variable [Scalar ν]

lemma Choice.keeps (hν : Scalar.Lossless ν) :
    Keeps (encode (ν := ν)) decode? fun c => Scalar.Kept c.fraction := by
  refine ⟨fun c hc => ?_, fun d => ?_⟩
  · exact read_field rfl <|
      read_field (required_of_find? keeps_text trivial rfl) <|
      read_field (required_of_find? (keeps_number hν) hc rfl) <|
      read_field (defaulted_of_find? keeps_text? trivial rfl) rfl
  · refine forall_of_fields fun v _ => forall_of_fields fun _ _ =>
      forall_of_fields fun fraction hfraction => forall_of_fields fun _ _ c hc => ?_
    cases hc
    exact fits_of_required (keeps_number hν) hfraction

lemma Document.keeps_textList : Keeps ofTextList (list? text?) fun _ => True :=
  ⟨fun l _ => (keeps_list keeps_text).reads_back l fun _ _ => trivial, fun _ _ _ => trivial⟩

lemma TrueFalse.keeps (hν : Scalar.Lossless ν) :
    Keeps (fun q => ⟨encode q, true⟩) (decode? (ν := ν)) (Holds Scalar.Kept) := by
  have hnumber := keeps_number hν
  refine ⟨fun q ⟨hmark, hpenalty⟩ => ?_, fun v => ?_⟩
  · exact read_field (required_of_find? keeps_text trivial rfl) <|
      read_field (required_of_find? keeps_text trivial rfl) <|
      read_field (required_of_find? keeps_text trivial rfl) <|
      read_field (defaulted_of_find? hnumber hmark rfl) <|
      read_field (defaulted_of_find? hnumber hpenalty rfl) <|
      read_field (required_of_find? keeps_bool trivial rfl) <|
      read_field (defaulted_of_find? keeps_textList trivial rfl) rfl
  · refine forall_of_fields fun _ _ => forall_of_fields fun _ _ => forall_of_fields fun _ _ =>
      forall_of_fields fun mark hmark => forall_of_fields fun penalty hpenalty =>
      forall_of_fields fun _ _ => forall_of_fields fun _ _ q hq => ?_
    cases hq
    exact ⟨fits_of_defaulted hnumber (hν.of_finite _ hν.usualMark) hmark,
      fits_of_defaulted hnumber (hν.of_finite _ hν.usualPenalty) hpenalty⟩

lemma MultiChoice.keeps (hν : Scalar.Lossless ν) :
    Keeps (fun q => ⟨encode q, true⟩) (decode? (ν := ν)) (Holds Scalar.Kept) := by
  have hnumber := keeps_number hν
  have hchoices := keeps_list (Choice.keeps hν)
  refine ⟨fun q hq => ?_, fun v => ?_⟩
  · exact read_field (required_of_find? keeps_text trivial rfl) <|
      read_field (required_of_find? keeps_text trivial rfl) <|
      read_field (required_of_find? keeps_text trivial rfl) <|
      read_field (defaulted_of_find? hnumber hq.defaultMark rfl) <|
      read_field (defaulted_of_find? hnumber hq.penalty rfl) <|
      read_field (defaulted_of_find? keeps_bool trivial rfl) <|
      read_field (required_of_find? hchoices hq.choices rfl) <|
      read_field (defaulted_of_find? keeps_textList trivial rfl) rfl
  · refine forall_of_fields fun _ _ => forall_of_fields fun _ _ => forall_of_fields fun _ _ =>
      forall_of_fields fun mark hmark => forall_of_fields fun penalty hpenalty =>
      forall_of_fields fun _ _ => forall_of_fields fun choices hread =>
      forall_of_fields fun _ _ q hq => ?_
    cases hq
    exact ⟨fits_of_defaulted hnumber (hν.of_finite _ hν.usualMark) hmark,
      fits_of_defaulted hnumber (hν.of_finite _ hν.usualPenalty) hpenalty,
      fits_of_required hchoices hread⟩

lemma Essay.keeps (hν : Scalar.Lossless ν) :
    Keeps (fun q => ⟨encode q, true⟩) (decode? (ν := ν)) (Holds Scalar.Kept) := by
  have hnumber := keeps_number hν
  refine ⟨fun q hmark => ?_, fun v => ?_⟩
  · exact read_field (required_of_find? keeps_text trivial rfl) <|
      read_field (required_of_find? keeps_text trivial rfl) <|
      read_field (required_of_find? keeps_text trivial rfl) <|
      read_field (defaulted_of_find? hnumber hmark rfl) <|
      read_field (defaulted_of_find? keeps_text? trivial rfl) rfl
  · refine forall_of_fields fun _ _ => forall_of_fields fun _ _ => forall_of_fields fun _ _ =>
      forall_of_fields fun mark hmark => forall_of_fields fun _ _ q hq => ?_
    cases hq
    have hkept := fits_of_defaulted hnumber (hν.of_finite _ hν.usualMark) hmark
    exact hkept

lemma Description.keeps : Keeps (fun q => ⟨encode q, true⟩) decode? fun _ => True := by
  refine ⟨fun q _ => ?_, fun _ _ _ => trivial⟩
  exact read_field (required_of_find? keeps_text trivial rfl) <|
    read_field (required_of_find? keeps_text trivial rfl) <|
    read_field (required_of_find? keeps_text trivial rfl) rfl

/-! ## Questions -/

namespace Question

/-- What is asked of a question: it is of a type with a stored form, and its numbers satisfy `p`. -/
def Holds (p : ν → Prop) : Question ν → Prop
  | trueFalse q => q.Holds p
  | multiChoice q => q.Holds p
  | essay q => q.Holds p
  | description _ => True
  | openAnswer _ => False

omit [Scalar ν] in
lemma Holds.mono {p p' : ν → Prop} (hp : ∀ x, p x → p' x) {q : Question ν} (h : q.Holds p) :
    q.Holds p' := by
  cases q with
  | trueFalse q => exact ⟨hp _ h.1, hp _ h.2⟩
  | multiChoice q => exact ⟨hp _ h.defaultMark, hp _ h.penalty, fun c hc => hp _ (h.choices c hc)⟩
  | essay q => exact hp _ h
  | description q => trivial
  | openAnswer q => exact h

lemma holds_of_ofFields? (hν : Scalar.Lossless ν) {typeName : String} {record : Document} :
    ∀ q : Question ν, ofFields? typeName record = some q → q.Holds Scalar.Kept := by
  unfold ofFields?
  split
  · exact forall_of_fields fun v _ => forall_of_fields fun q hq _ h => by
      cases h
      exact (TrueFalse.keeps hν).reads_only v q hq
  split
  · exact forall_of_fields fun v _ => forall_of_fields fun q hq _ h => by
      cases h
      exact (MultiChoice.keeps hν).reads_only v q hq
  split
  · exact forall_of_fields fun v _ => forall_of_fields fun q hq _ h => by
      cases h
      exact (Essay.keeps hν).reads_only v q hq
  split
  · exact forall_of_fields fun v _ => forall_of_fields fun q hq _ h => by
      cases h
      trivial
  · exact nofun

/-- The documents of questions. -/
lemma keeps (hν : Scalar.Lossless ν) :
    Keeps encode? (fun d => d.bind (decode? (ν := ν))) (Holds Scalar.Kept) := by
  refine ⟨fun q hq => ?_, fun d q h => ?_⟩
  · cases q with
    | trueFalse q =>
      exact read_field rfl <| read_field rfl <| read_field rfl <|
        read_field ((TrueFalse.keeps hν).reads_back q hq) rfl
    | multiChoice q =>
      exact read_field rfl <| read_field rfl <| read_field rfl <|
        read_field ((MultiChoice.keeps hν).reads_back q hq) rfl
    | essay q =>
      exact read_field rfl <| read_field rfl <| read_field rfl <|
        read_field ((Essay.keeps hν).reads_back q hq) rfl
    | description q =>
      exact read_field rfl <| read_field rfl <| read_field rfl <|
        read_field (Description.keeps.reads_back q trivial) rfl
    | openAnswer q => exact hq.elim
  · obtain ⟨d, -, h⟩ := Option.bind_eq_some_iff.1 h
    unfold decode? at h
    split at h
    · exact forall_of_fields (fun _ _ => holds_of_ofFields? hν) q h
    · exact forall_of_fields (fun _ _ => holds_of_ofFields? hν) q h
    · cases h

end Question
end Assessment
