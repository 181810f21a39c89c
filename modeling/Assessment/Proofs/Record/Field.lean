import Assessment.Proofs.Data.SortedMap
import Assessment.Proofs.Number.Lossless
import Assessment.Proofs.Usage.FieldName
import Assessment.Record.Codec

/-!
# Stored values

A stored form is a way to write values as documents and a way to read them.  Two things are asked of it
(`Keeps`): what is written is read as the value that was written, for the values that fit into
the form, and nothing else is ever read.  With both, a value that was read once is read again after it
was written.

Each kind of field has such a form.  A whole number fits up to its limit, a point in time if it is a
whole millisecond of the calendar, and any other number if its text keeps it.  The form of a list fits
the lists of what fits into the form of its members; so does that of an optional value, as long as no
value is written as the null that stands for none.

A record is read field by field, and the lemmas at the end say what a field of each sort gives: the
value that was written into it, and in any case one that fits.
-/

namespace Assessment

/-! ## Points in time -/

/-- A whole millisecond of the calendar. -/
def Instant.Storable (t : Instant) : Prop :=
  t.cut = t ∧ firstMilli ≤ t.millis ∧ t.millis ≤ lastMilli

/-! ## Stored forms -/

/-- A stored form: what fits is read as it was written, and only what fits is read. -/
structure Keeps {α δ : Type} (write : α → δ) (read : δ → Option α) (fits : α → Prop) : Prop where
  reads_back : ∀ x, fits x → read (write x) = some x
  reads_only : ∀ d x, read d = some x → fits x

namespace Document

variable {α : Type} {write : α → Document} {read : Document → Option α} {fits : α → Prop}

/-! ## Single values -/

lemma keeps_text : Keeps .text text? fun _ => True := ⟨fun _ _ => rfl, fun _ _ _ => trivial⟩

lemma keeps_bool : Keeps .bool bool? fun _ => True := ⟨fun _ _ => rfl, fun _ _ _ => trivial⟩

lemma keeps_state : Keeps (fun s : State => .text s.name) state? fun _ => True :=
  ⟨fun s _ => State.ofName?_name s, fun _ _ _ => trivial⟩

lemma keeps_nat (limit : Nat) : Keeps ofNat (nat? limit) (· ≤ limit) := by
  refine ⟨fun n hn => ?_, fun d n h => ?_⟩
  · rw [ofNat, nat?, if_pos ⟨Int.natCast_nonneg n, Int.ofNat_le.2 hn⟩, Int.toNat_natCast]
  · unfold nat? at h
    split at h
    · split at h
      · cases h
        omega
      · cases h
    · cases h

lemma keeps_number {ν : Type} [Scalar ν] (hν : Scalar.Lossless ν) :
    Keeps (ofNumber (ν := ν)) number? Scalar.Kept := by
  refine ⟨fun x hx => hx, fun d x h => ?_⟩
  unfold number? at h
  split at h
  · cases h
    exact hν.of_literal _
  · obtain ⟨l, -, rfl⟩ := Option.map_eq_some_iff.1 h
    exact hν.of_literal l
  · cases h

lemma keeps_instant : Keeps ofInstant instant? Instant.Storable := by
  refine ⟨fun t ⟨hcut, hfirst, hlast⟩ => ?_, fun d t h => ?_⟩
  · have hread : Number.readInt64? (toString t.millis) = some t.millis :=
      Number.readInt64?_toString ⟨by unfold Instant.firstMilli at hfirst; omega,
        by unfold Instant.lastMilli at hlast; omega⟩
    rw [ofInstant, instant?, hread, Option.bind_some, Instant.ofStoredMillis?,
      if_pos ⟨hfirst, hlast⟩]
    exact congrArg some hcut
  · unfold instant? at h
    split at h
    · obtain ⟨n, -, hn⟩ := Option.bind_eq_some_iff.1 h
      unfold Instant.ofStoredMillis? at hn
      split at hn
      · rename_i hrange
        cases hn
        exact ⟨by rw [Instant.cut, Instant.millis_ofMillis],
          by rwa [Instant.millis_ofMillis]⟩
      · cases hn
    · cases h

/-! ## Several values -/

/-- The stored form of a list. -/
lemma keeps_list (h : Keeps write read fits) :
    Keeps (fun l => .list (l.map write)) (list? read) fun l => ∀ x ∈ l, fits x := by
  refine ⟨fun l hl => ?_, fun d l hl => ?_⟩
  · show (l.map write).mapM read = some l
    induction l with
    | nil => rfl
    | cons x rest ih =>
      obtain ⟨hx, hrest⟩ := List.forall_mem_cons.1 hl
      rw [List.map_cons, List.mapM_cons, h.reads_back x hx, ih hrest]
      rfl
  · unfold list? at hl
    split at hl
    · rename_i items
      induction items generalizing l with
      | nil =>
        cases hl
        exact List.forall_mem_nil _
      | cons d rest ih =>
        rw [List.mapM_cons] at hl
        obtain ⟨x, hx, hl⟩ := Option.bind_eq_some_iff.1 hl
        obtain ⟨more, hmore, hl⟩ := Option.bind_eq_some_iff.1 hl
        cases hl
        exact List.forall_mem_cons.2 ⟨h.reads_only d x hx, ih more hmore⟩
    · cases hl

/-- The document of a value, or of none. -/
def ofOption (write : α → Document) : Option α → Document
  | some x => write x
  | none => .null

/-- The stored form of an optional value. -/
lemma keeps_nullable (h : Keeps write read fits) (hnull : ∀ x, write x ≠ .null) :
    Keeps (ofOption write) (RecordView.nullable read) fun o => ∀ x ∈ o, fits x := by
  have hread : ∀ d, d ≠ .null → RecordView.nullable read d = (read d).map some := fun d hd => by
    cases d <;> first | exact absurd rfl hd | rfl
  refine ⟨fun o ho => ?_, fun d o hd x hx => ?_⟩
  · cases o with
    | none => rfl
    | some x => rw [ofOption, hread _ (hnull x), h.reads_back x (ho x rfl), Option.map_some]
  · subst hx
    by_cases hd' : d = .null
    · subst hd'
      cases hd
    · rw [hread d hd'] at hd
      obtain ⟨y, hy, hyx⟩ := Option.map_eq_some_iff.1 hd
      exact h.reads_only d x (Option.some.inj hyx ▸ hy)

lemma keeps_text? : Keeps ofText? (RecordView.nullable text?) fun _ => True :=
  ⟨fun o _ => by cases o <;> rfl, fun _ _ _ => trivial⟩

lemma keeps_number? {ν : Type} [Scalar ν] (hν : Scalar.Lossless ν) :
    Keeps (ofNumber? (ν := ν)) (RecordView.nullable number?) fun o => ∀ x ∈ o, Scalar.Kept x := by
  have hwrite : ofNumber? (ν := ν) = ofOption ofNumber := funext fun o => by cases o <;> rfl
  rw [hwrite]
  exact keeps_nullable (keeps_number hν) fun _ => nofun

/-- The stored form of named texts. -/
lemma keeps_texts : Keeps ofTexts texts? fun _ => True := by
  refine ⟨fun m _ => ?_, fun _ _ _ => trivial⟩
  have hread : ∀ entries : List (String × String),
      (entries.map fun e => (e.1, Document.text e.2)).mapM
        (fun f => (text? f.2).map fun s => (f.1, s)) = some entries := by
    intro entries
    induction entries with
    | nil => rfl
    | cons e rest ih =>
      rw [List.map_cons, List.mapM_cons, ih]
      rfl
  rw [ofTexts, texts?, hread, Option.map_some, SortedMap.ofList_entries]

end Document

/-! ## Fields of a record -/

namespace RecordView

open Document

variable {α : Type} {write : α → Document} {read : Document → Option α} {fits : α → Prop}
  {v : RecordView} {name : String} {x value : α}

/-- A field that was read, and what is made of the record after it. -/
lemma read_field {β : Type} {o : Option α} {make : α → Option β} {y : β} (hx : o = some x)
    (hy : make x = some y) : (o >>= make) = some y := by
  subst hx
  exact hy

/-- A record is made only after each of its fields was read. -/
lemma forall_of_fields {β : Type} {p : β → Prop} {o : Option α} {make : α → Option β}
    (h : ∀ x, o = some x → ∀ y, make x = some y → p y) : ∀ y, (o >>= make) = some y → p y :=
  fun y hy => by
    obtain ⟨x, hx, hmake⟩ := Option.bind_eq_some_iff.1 hy
    exact h x hx y hmake

lemma required_of_find? (h : Keeps write read fits) (hx : fits x)
    (hfind : find? name v.fields = some (write x)) : v.required name read = some x := by
  rw [required, hfind, Option.bind_some, h.reads_back x hx]

lemma defaulted_of_find? (h : Keeps write read fits) (hx : fits x)
    (hfind : find? name v.fields = some (write x)) : v.defaulted name value read = some x := by
  rw [defaulted, hfind]
  exact h.reads_back x hx

lemma fits_of_required (h : Keeps write read fits) (hx : v.required name read = some x) : fits x := by
  obtain ⟨d, -, hd⟩ := Option.bind_eq_some_iff.1 hx
  exact h.reads_only d x hd

lemma fits_of_defaulted (h : Keeps write read fits) (hvalue : fits value)
    (hx : v.defaulted name value read = some x) : fits x := by
  unfold defaulted at hx
  split at hx
  · exact h.reads_only _ x hx
  · cases hx
    exact hvalue

lemma namedOptional_of_find? {write : Option α → Document} {fits : Option α → Prop}
    (h : Keeps write (nullable read) fits) {o : Option α} (ho : fits o)
    {fields : List (String × Document)} (hfind : find? name fields = some (write o)) :
    namedOptional ⟨fields, true⟩ name read = some o :=
  defaulted_of_find? h ho hfind

lemma fits_of_namedOptional {write : Option α → Document} {fits : Option α → Prop}
    (h : Keeps write (nullable read) fits) (hnone : fits none) {o : Option α}
    (ho : v.namedOptional name read = some o) : fits o := by
  unfold namedOptional at ho
  split at ho
  · exact fits_of_defaulted h hnone ho
  · exact fits_of_required h ho

end RecordView
end Assessment
