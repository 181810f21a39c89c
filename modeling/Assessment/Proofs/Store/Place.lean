import Assessment.Proofs.Store.Apart
import Assessment.Proofs.Usage.Layout

/-!
# Places

Where an attempt is, is said twice: by the usage that has it in a slot, and by the row that it is stored
in.  The place of a row is its usage, its slot and its question (`AttemptRow.place`).  Two things are
kept by everything that happens to a store short of deleting from it.  Rows under one id are in one
place, and every usage has its rows in slots that leave none out (`Tables.Placed`); and a usage in
memory has rows for its stored attempts, in the places where it has them (`Usage.Placed`).

A usage in memory may be out of date, so the converse is not kept: the tables may have more attempts of
a usage than it knows of, even two in one slot.  What is in memory is then still in its place.
-/

namespace Assessment

variable {ν : Type}

/-! ## Places of rows -/

/-- Where an attempt is. -/
structure Place where
  usageId : String
  slot : Nat
  questionId : String

/-- Where the attempt of a row is. -/
def AttemptRow.place (r : AttemptRow ν) : Place := ⟨r.usageId, r.slot, r.questionId⟩

lemma AttemptRow.of_place {r : AttemptRow ν} {usageId : String} {slot : Nat} {questionId : String}
    (h : r.place = ⟨usageId, slot, questionId⟩) :
    r.usageId = usageId ∧ r.slot = slot ∧ r.questionId = questionId :=
  ⟨congrArg Place.usageId h, congrArg Place.slot h, congrArg Place.questionId h⟩

/-- Rows under one id are in one place. -/
def InPlace (rows : List (AttemptRow ν)) : Prop :=
  ∀ r ∈ rows, ∀ r' ∈ rows, r.id = r'.id → r.place = r'.place

namespace InPlace

lemma of_subset {rows rows' : List (AttemptRow ν)} (h : InPlace rows') (hsubset : rows ⊆ rows') :
    InPlace rows := fun r hr r' hr' => h r (hsubset hr) r' (hsubset hr')

/-- A row joins that is in the place of those with its id. -/
lemma of_row {rows rows' : List (AttemptRow ν)} (h : InPlace rows) {row : AttemptRow ν}
    (hrow : ∀ r ∈ rows, r.id = row.id → r.place = row.place)
    (hrows : ∀ r ∈ rows', r ∈ rows ∨ r = row) : InPlace rows' := by
  intro r hr r' hr' hid
  obtain hr | rfl := hrows r hr <;> obtain hr' | rfl := hrows r' hr'
  · exact h r hr r' hr' hid
  · exact hrow r hr hid
  · exact (hrow r' hr' hid.symm).symm
  · rfl

end InPlace

namespace Tables

/-- The slots in which attempts of a usage are stored. -/
def slotsOf (t : Tables ν) (usageId : String) : List Nat :=
  (t.attempts.filter fun r => r.usageId == usageId).map AttemptRow.slot

lemma mem_slotsOf {t : Tables ν} {usageId : String} {slot : Nat} :
    slot ∈ t.slotsOf usageId ↔ ∃ r ∈ t.attempts, r.usageId = usageId ∧ r.slot = slot := by
  simp [slotsOf, and_assoc]

/-- Rows that are in their places, in slots that leave none out. -/
structure Placed (t : Tables ν) : Prop where
  inPlace : InPlace t.attempts
  gapless : ∀ usageId, Gapless (t.slotsOf usageId)

end Tables

/-! ## Places in memory -/

namespace Usage

/-- The attempts of a usage that have ids have rows, in the places where they are. -/
def Rooted (u : Usage ν) (rows : List (AttemptRow ν)) : Prop :=
  ∀ slot id questionId, u.layout.get? slot = some (some id, questionId) →
    ∃ r ∈ rows, r.id = id ∧ r.place = ⟨u.id.text, slot, questionId⟩

/-- A usage in memory that has its attempts where the tables have them, in slots that leave none
out. -/
structure Placed (u : Usage ν) (t : Tables ν) : Prop where
  rooted : u.Rooted t.attempts
  gapless : Gapless u.slots

lemma get?_layout (u : Usage ν) (slot : Nat) :
    u.layout.get? slot = (u.attempts.get? slot).map fun a => (a.id, a.question.id) :=
  SortedMap.get?_map _ _ _

lemma get?_layout_of_some {u : Usage ν} {slot : Nat} {a : Attempt ν}
    (ha : u.attempts.get? slot = some a) : u.layout.get? slot = some (a.id, a.question.id) := by
  rw [get?_layout, ha, Option.map_some]

/-- Of an attempt there is a row in each list that has the row of its id. -/
lemma Rooted.of_rows {u : Usage ν} {rows rows' : List (AttemptRow ν)} (h : u.Rooted rows)
    (hrows : ∀ r ∈ rows, ∃ r' ∈ rows', r'.id = r.id ∧ r'.place = r.place) : u.Rooted rows' := by
  intro slot id questionId hentry
  obtain ⟨r, hr, rfl, hplace⟩ := h slot id questionId hentry
  obtain ⟨r', hr', hid', hplace'⟩ := hrows r hr
  exact ⟨r', hr', hid', hplace'.trans hplace⟩

lemma Rooted.of_subset {u : Usage ν} {rows rows' : List (AttemptRow ν)} (h : u.Rooted rows)
    (hsubset : rows ⊆ rows') : u.Rooted rows' :=
  h.of_rows fun r hr => ⟨r, hsubset hr, rfl, rfl⟩

/-- Usages with the same id and layout are rooted alike. -/
lemma Rooted.congr {u u' : Usage ν} {rows : List (AttemptRow ν)} (h : u.Rooted rows)
    (hid : u'.id = u.id) (hlayout : u'.layout = u.layout) : u'.Rooted rows := by
  intro slot id questionId hentry
  rw [hid]
  exact h slot id questionId (hlayout ▸ hentry)

/-- One id is in one place, whichever states of whichever usages have it. -/
lemma Placed.sameEntry {u u' : Usage ν} {t : Tables ν} (ht : t.Placed) (h : u.Placed t)
    (h' : u'.Placed t) {slot slot' : Nat} {id questionId questionId' : String}
    (hentry : u.layout.get? slot = some (some id, questionId))
    (hentry' : u'.layout.get? slot' = some (some id, questionId')) :
    u'.id.text = u.id.text ∧ slot' = slot ∧ questionId' = questionId := by
  obtain ⟨r, hr, rfl, hplace⟩ := h.rooted _ _ _ hentry
  obtain ⟨r', hr', hid, hplace'⟩ := h'.rooted _ _ _ hentry'
  have hsame := (hplace'.symm.trans (ht.inPlace r' hr' r hr hid)).trans hplace
  exact ⟨congrArg Place.usageId hsame, congrArg Place.slot hsame, congrArg Place.questionId hsame⟩

end Usage

/-! ## Operations -/

/-- An operation leaves every attempt in its place, and adds one without an id at most. -/
lemma Usage.Placed.operation [Scalar ν] {u : Usage ν} {t : Tables ν} (h : u.Placed t) (hu : u.Sound)
    (o : Operation ν) : (o.after u).Placed t := by
  cases ho : o.isAdd with
  | false =>
    have hreports := Operation.reports ho hu
    have hslots : (o.after u).slots = u.slots := by
      rw [← keys_layout, hreports.layout, keys_layout]
    exact ⟨h.rooted.congr hreports.id hreports.layout, hslots ▸ h.gapless⟩
  | true =>
    cases o with
    | add question maxMark =>
      obtain ⟨hlayout, -, -, hgapless⟩ := add_spec h.gapless question maxMark
      refine ⟨fun slot id questionId hentry => h.rooted slot id questionId ?_, hgapless⟩
      rw [hlayout] at hentry
      obtain ⟨-, heq⟩ | ⟨-, hentry⟩ := SortedMap.get?_insert_cases hentry
      · cases heq
      · exact hentry
    | _ => cases ho

/-! ## Saves -/

namespace Saving

variable {owner : String → String} {uid : String} {supply : Supply} {taken : Option Changes}
  {slot : Nat} {a : Attempt ν} {s : Saving ν} {rows : List (AttemptRow ν)} {row : AttemptRow ν}

/-- A save that is under way and has collected rows for the attempts of its usage only. -/
structure Placed (rows : List (AttemptRow ν)) (s : Saving ν) : Prop where
  inPlace : InPlace (rows ++ s.plan.write.rows)
  rooted : s.usage.Rooted (rows ++ s.plan.write.rows)
  written : ∀ r ∈ s.plan.write.rows, ∃ a, s.usage.attempts.get? r.slot = some a ∧ a.id = some r.id

/-- The row of an attempt says where it is. -/
lemma place_of_toRow (hs : s.usage.Sound) (ha : s.usage.attempts.get? slot = some a)
    (hrow : (a.numbered s.supply).toRow a.question.id = .ok row) :
    row.place = ⟨s.usage.id.text, slot, a.question.id⟩ := by
  obtain ⟨_, _, _, -, -, -, -, hfields⟩ := Attempt.of_toRow hrow
  rw [hfields, AttemptRow.place, ← hs.usageId ha, ← hs.slot ha]
  rfl

/-- The id of the row is that of a row in the same place, or of none. -/
lemma Placed.place_eq (h : s.Placed rows) (howned : s.Owned owner uid supply)
    (hpast : ∀ r ∈ rows, ¬ supply.ToCome r.id) (ha : s.usage.attempts.get? slot = some a)
    (hrow : (a.numbered s.supply).toRow a.question.id = .ok row) :
    ∀ r ∈ rows ++ s.plan.write.rows, r.id = row.id → r.place = row.place := by
  intro r hr hid
  have htaken : (a.takeId s.supply).1 = row.id := Option.some.inj (Attempt.id_of_toRow hrow)
  rw [place_of_toRow howned.usage.sound ha hrow]
  obtain ⟨hsome, -⟩ | ⟨-, hfresh, -⟩ := a.takeId_cases s.supply
  · have hentry := Usage.get?_layout_of_some ha
    rw [hsome, htaken] at hentry
    obtain ⟨r', hr', hid', hplace⟩ := h.rooted _ _ _ hentry
    exact (h.inPlace r hr r' hr' (hid.trans hid'.symm)).trans hplace
  · -- an id that was just issued is in no row
    have hcome : s.supply.ToCome r.id := by
      rw [hid, ← htaken, hfresh]
      exact s.supply.toCome_next
    obtain hr | hr := List.mem_append.1 hr
    · exact absurd (hcome.mono howned.le) (hpast r hr)
    · exact absurd hcome (howned.write.rows r hr).2.2

/-- The rows with that of an attempt. -/
lemma mem_append_rows {r : AttemptRow ν} :
    r ∈ rows ++ (writeRow (s.writeWith taken slot a) a.id.isNone (s.touches taken slot a) row).rows ↔
      r ∈ rows ++ s.plan.write.rows ∨ (a.id.isNone || s.touches taken slot a) = true ∧ r = row := by
  rw [List.mem_append, List.mem_append, mem_rows_writeRow, or_assoc]
  rfl

/-- The attempt has a row in its place then, its own or the one that it had. -/
lemma Placed.exists_row (h : s.Placed rows) (howned : s.Owned owner uid supply)
    (ha : s.usage.attempts.get? slot = some a)
    (hrow : (a.numbered s.supply).toRow a.question.id = .ok row) :
    ∃ r ∈ rows ++ (writeRow (s.writeWith taken slot a) a.id.isNone (s.touches taken slot a) row).rows,
      r.id = row.id ∧ r.place = ⟨s.usage.id.text, slot, a.question.id⟩ := by
  obtain ⟨hsome, -⟩ | ⟨hnone, -, -⟩ := a.takeId_cases s.supply
  · have htaken : (a.takeId s.supply).1 = row.id := Option.some.inj (Attempt.id_of_toRow hrow)
    have hentry := Usage.get?_layout_of_some ha
    rw [hsome, htaken] at hentry
    obtain ⟨r, hr, hid, hplace⟩ := h.rooted _ _ _ hentry
    exact ⟨r, mem_append_rows.2 (.inl hr), hid, hplace⟩
  · exact ⟨row, mem_append_rows.2 (.inr ⟨by simp [hnone], rfl⟩), rfl,
      place_of_toRow howned.usage.sound ha hrow⟩

lemma Placed.collect (h : s.Placed rows) (howned : s.Owned owner uid supply)
    (hpast : ∀ r ∈ rows, ¬ supply.ToCome r.id)
    (hok : (Saving.collect taken slot s).result = .ok ()) :
    (Saving.collect taken slot s).state.Placed rows := by
  obtain ⟨-, hstate⟩ | ⟨a, row, ha, hrow, hstate⟩ := collect_cases hok
  · rwa [hstate]
  · rw [hstate]
    refine ⟨h.inPlace.of_row (h.place_eq howned hpast ha hrow) fun r hr =>
      (mem_append_rows.1 hr).imp_right And.right, fun slot' id questionId hentry => ?_, fun r hr => ?_⟩
    · have hlayout : (s.collected taken slot a).usage.layout =
          s.usage.layout.insert slot (some row.id, a.question.id) := by
        rw [← Attempt.id_of_toRow hrow]
        exact SortedMap.map_insert _ _ _ _
      obtain ⟨rfl, heq⟩ | ⟨-, hentry⟩ := SortedMap.get?_insert_cases (hlayout ▸ hentry)
      · cases heq
        exact h.exists_row howned ha hrow
      · obtain ⟨r, hr, hid, hplace⟩ := h.rooted _ _ _ hentry
        exact ⟨r, mem_append_rows.2 (.inl hr), hid, hplace⟩
    · obtain hr | ⟨-, rfl⟩ := mem_rows_writeRow.1 hr
      · exact exists_id_insert ha (h.written r hr)
      · obtain ⟨-, rfl, -⟩ := AttemptRow.of_place (place_of_toRow howned.usage.sound ha hrow)
        exact ⟨_, SortedMap.get?_insert_self _ _ _, Attempt.id_of_toRow hrow⟩

/-- A save begins with rows for what is stored. -/
lemma placed_begin {u : Usage ν} (howned : u.Owned owner supply) (hrooted : u.Rooted rows)
    (hplace : InPlace rows) : (begin u supply).Placed rows := by
  have hwrite : (begin u supply).plan.write.rows = [] := rfl
  refine ⟨by rwa [hwrite, List.append_nil], ?_, fun r hr => absurd hr (by simp [hwrite])⟩
  rw [hwrite, List.append_nil]
  cases hid : u.id with
  | stored id =>
    rw [begin_of_stored hid]
    exact hrooted.congr rfl rfl
  | ephemeral token =>
    -- as long as a usage is not stored, its attempts have no ids
    rw [begin_of_ephemeral hid]
    intro slot id questionId hentry
    simp only [Usage.get?_layout, Usage.withId, SortedMap.get?_map, Option.map_map,
      Option.map_eq_some_iff] at hentry
    obtain ⟨b, hb, heq⟩ := hentry
    have hstored := (howned.attempts hb (congrArg Prod.fst heq)).1
    simp [hid, UsageId.isStored] at hstored

/-- A save that is prepared has collected only what its usage owns, and rows for its attempts only. -/
lemma placed_prepare {u : Usage ν} (howned : u.Owned owner supply) (hrooted : u.Rooted rows)
    (hplace : InPlace rows) (hpast : ∀ r ∈ rows, ¬ supply.ToCome r.id) {plan : Plan ν}
    (hok : (Usage.prepare (u, supply)).result = .ok plan) :
    let s : Saving ν := ⟨(Usage.prepare (u, supply)).state.1, (Usage.prepare (u, supply)).state.2, plan⟩
    (∃ owner' uid, s.Owned owner' uid supply) ∧ s.Placed rows := by
  obtain ⟨uid, -, hbegin⟩ := owned_begin howned
  obtain ⟨owner', hsame, hnew⟩ := exists_owner owner supply uid
  obtain ⟨hsaving, hplaced⟩ := prepare_keeps
    (P := fun s => s.Owned owner' uid supply ∧ s.Placed rows)
    ⟨hbegin owner' hsame, placed_begin howned hrooted hplace⟩
    (fun slot _ s hs hok => ⟨hs.1.collect hnew hok, hs.2.collect hs.1 hpast hok⟩) hok
  exact ⟨⟨owner', uid, hsaving⟩, hplaced⟩

end Saving

/-- An entry of a layout that goes on: the question stays, and so does the id once there is one. -/
def Continues (entry entry' : Option String × String) : Prop :=
  entry'.2 = entry.2 ∧ ∀ id, entry.1 = some id → entry'.1 = some id

namespace Usage

variable {u : Usage ν} {supply : Supply} {plan : Plan ν}

/-- Preparing a save leaves the slots, the questions, and the ids that there are. -/
lemma continues_prepare (hu : u.Sound) (hok : (prepare (u, supply)).result = .ok plan) :
    u.layout.Matches Continues (prepare (u, supply)).state.1.layout := by
  intro slot
  have hundone : plan.undo.apply (prepare (u, supply)).state.1 = u :=
    (prepare_undone hu supply).2 plan hok
  have hslot := get?_undo plan.undo (prepare (u, supply)).state.1 slot
  rw [hundone] at hslot
  rw [get?_layout, get?_layout, hslot]
  cases (prepare (u, supply)).state.1.attempts.get? slot with
  | none => exact .none
  | some a =>
    simp only [Undo.onAttempt_eq]
    refine .some ⟨rfl, fun id hid => ?_⟩
    simp only at hid
    split at hid
    · cases hid
    · exact hid

lemma slots_prepare (hu : u.Sound) (hok : (prepare (u, supply)).result = .ok plan) :
    (prepare (u, supply)).state.1.slots = u.slots := by
  rw [← keys_layout, ← keys_layout]
  exact (continues_prepare hu hok).keys_eq.symm

/-- A usage all of whose attempts have ids. -/
def Numbered (u : Usage ν) : Prop := ∀ {slot a}, u.attempts.get? slot = some a → a.id ≠ none

/-- A usage in memory that has every attempt that is stored of the usage. -/
def Covers (u : Usage ν) (t : Tables ν) : Prop :=
  ∀ r ∈ t.attempts, r.usageId = u.id.text → ∃ slot a, u.attempts.get? slot = some a ∧ a.id = some r.id

lemma layout_settle (u : Usage ν) : u.settle.layout = u.layout := by
  unfold settle
  split
  · rfl
  · exact u.layout_tracking _

lemma slots_settle (u : Usage ν) : u.settle.slots = u.slots := by
  rw [← keys_layout, layout_settle, keys_layout]

lemma numbered_settle {u : Usage ν} (h : u.Numbered) : u.settle.Numbered := fun ha => by
  obtain ⟨b, hb, _, rfl⟩ := exists_of_get?_settle ha
  have hid := h hb
  exact hid

lemma Covers.settle {u : Usage ν} {t : Tables ν} (h : u.Covers t) : u.settle.Covers t := by
  intro r hr husage
  rw [id_settle] at husage
  obtain ⟨slot, a, ha, haid⟩ := h r hr husage
  obtain ⟨o, hsettled⟩ := exists_get?_settle ha
  exact ⟨slot, _, hsettled, haid⟩

/-- After a save that is prepared every attempt has an id. -/
lemma numbered_prepare (hu : u.Sound) (hok : (prepare (u, supply)).result = .ok plan) :
    (prepare (u, supply)).state.1.Numbered := fun ha =>
  Option.isSome_iff_ne_none.1 (isNumbered_prepare hu hok ha).id

end Usage

/-! ## Writes -/

namespace Tables

variable {t : Tables ν} {w : Write ν}

lemma mem_attempts_apply {r : AttemptRow ν} (hr : r ∈ (t.apply w).attempts) :
    r ∈ t.attempts ++ w.rows := by
  rw [attempts_apply] at hr
  exact List.mem_append.2 (mem_foldl_replaceRow hr).symm

/-- What is in place has a row in the same place after a write. -/
lemma exists_mem_attempts_apply (hplace : InPlace (t.attempts ++ w.rows)) :
    ∀ r ∈ t.attempts ++ w.rows, ∃ r' ∈ (t.apply w).attempts, r'.id = r.id ∧ r'.place = r.place := by
  intro r hr
  obtain ⟨r', hr', hid⟩ : ∃ r' ∈ (t.apply w).attempts, r'.id = r.id := by
    rw [attempts_apply]
    exact exists_mem_foldl_replaceRow (List.mem_append.1 hr)
  exact ⟨r', hr', hid, hplace r' (mem_attempts_apply hr') r hr hid⟩

/-- A write of all attempts of a usage keeps the tables in place. -/
lemma Placed.apply (h : t.Placed) {u : Usage ν} (hplace : InPlace (t.attempts ++ w.rows))
    (hrooted : u.Rooted (t.attempts ++ w.rows)) (hnumbered : u.Numbered) (hgapless : Gapless u.slots)
    (hrows : ∀ r ∈ w.rows, r.usageId = u.id.text ∧ r.slot ∈ u.slots) : (t.apply w).Placed where
  inPlace := hplace.of_subset fun _ hr => mem_attempts_apply hr
  gapless := by
    intro usageId slot hslot
    have hstored : ∀ r ∈ t.attempts ++ w.rows, r.slot ∈ (t.apply w).slotsOf r.usageId := fun r hr => by
      obtain ⟨r', hr', -, hsame⟩ := exists_mem_attempts_apply hplace r hr
      exact mem_slotsOf.2 ⟨r', hr', congrArg Place.usageId hsame, congrArg Place.slot hsame⟩
    obtain ⟨r, hr, rfl, rfl⟩ := mem_slotsOf.1 hslot
    obtain hr | hr := List.mem_append.1 (mem_attempts_apply hr)
    · obtain ⟨hone, hearlier⟩ := h.gapless r.usageId r.slot (mem_slotsOf.2 ⟨r, hr, rfl, rfl⟩)
      refine ⟨hone, fun earlier hle hlt => ?_⟩
      obtain ⟨r', hr', husage, rfl⟩ := mem_slotsOf.1 (hearlier earlier hle hlt)
      exact husage ▸ hstored r' (List.mem_append_left _ hr')
    · obtain ⟨husage, hslot⟩ := hrows r hr
      obtain ⟨hone, hearlier⟩ := hgapless r.slot hslot
      refine ⟨hone, fun earlier hle hlt => ?_⟩
      -- the usage has an attempt there, which has a row
      obtain ⟨a, ha⟩ := SortedMap.mem_keys_iff.1 (hearlier earlier hle hlt)
      obtain ⟨id, hid⟩ := Option.ne_none_iff_exists'.1 (hnumbered ha)
      have hentry := Usage.get?_layout_of_some ha
      rw [hid] at hentry
      obtain ⟨r', hr', -, hsame⟩ := hrooted _ _ _ hentry
      obtain ⟨husage', rfl, -⟩ := AttemptRow.of_place hsame
      rw [husage, ← husage']
      exact hstored r' hr'

/-- Setting marks leaves the places of rows. -/
lemma exists_mem_attempts_setMaxMark (t : Tables ν) (ids : List String) (slot : Nat) (m : ν) :
    (∀ r ∈ t.attempts, ∃ r' ∈ (t.setMaxMark ids slot m).attempts, r'.id = r.id ∧ r'.place = r.place) ∧
      ∀ r' ∈ (t.setMaxMark ids slot m).attempts, ∃ r ∈ t.attempts, r'.id = r.id ∧ r'.place = r.place := by
  have hsame : ∀ r : AttemptRow ν, (if inSlot ids slot r then { r with maxMark := m } else r).id = r.id ∧
      (if inSlot ids slot r then { r with maxMark := m } else r).place = r.place := fun r => by
    split <;> exact ⟨rfl, rfl⟩
  refine ⟨fun r hr => ⟨_, (mem_attempts_setMaxMark ids slot m).2 ⟨r, hr, rfl⟩, hsame r⟩,
    fun r' hr' => ?_⟩
  obtain ⟨r, hr, rfl⟩ := (mem_attempts_setMaxMark ids slot m).1 hr'
  exact ⟨r, hr, hsame r⟩

lemma Placed.setMaxMark (h : t.Placed) (ids : List String) (slot : Nat) (m : ν) :
    (t.setMaxMark ids slot m).Placed := by
  obtain ⟨hforth, hback⟩ := t.exists_mem_attempts_setMaxMark ids slot m
  have hslots : ∀ usageId slot', slot' ∈ (t.setMaxMark ids slot m).slotsOf usageId ↔
      slot' ∈ t.slotsOf usageId := by
    intro usageId slot'
    rw [mem_slotsOf, mem_slotsOf]
    constructor
    · rintro ⟨r', hr', rfl, rfl⟩
      obtain ⟨r, hr, -, hsame⟩ := hback r' hr'
      exact ⟨r, hr, (congrArg Place.usageId hsame).symm, (congrArg Place.slot hsame).symm⟩
    · rintro ⟨r, hr, rfl, rfl⟩
      obtain ⟨r', hr', -, hsame⟩ := hforth r hr
      exact ⟨r', hr', congrArg Place.usageId hsame, congrArg Place.slot hsame⟩
  refine ⟨fun r hr r' hr' hid => ?_, fun usageId => (h.gapless usageId).congr (hslots usageId)⟩
  obtain ⟨r₀, hr₀, hid₀, hsame₀⟩ := hback r hr
  obtain ⟨r₁, hr₁, hid₁, hsame₁⟩ := hback r' hr'
  rw [hsame₀, hsame₁]
  exact h.inPlace r₀ hr₀ r₁ hr₁ (hid₀.symm.trans (hid.trans hid₁))

end Tables

/-! ## Loads -/

/-- A bank that gives questions under their own ids. -/
def Bank.IsKeyed : Bank ν → Prop
  | memory questions => ∀ id question, questions.get? id = some question → question.id = id
  | unreachable => True

lemma Bank.IsKeyed.id_eq {σ : Type} {bank : Bank ν} (h : bank.IsKeyed) {id : String}
    {question : Question ν} {s : σ} (hok : (bank.question id s).result = .ok question) :
    question.id = id := by
  cases bank with
  | unreachable => cases hok
  | memory questions =>
    cases hquestion : questions.get? id with
    | none =>
      simp only [Bank.question, hquestion] at hok
      cases hok
    | some q =>
      simp only [Bank.question, hquestion] at hok
      cases hok
      exact h id _ hquestion

/-- The entry that a row makes of its attempt. -/
def AttemptRow.entry (r : AttemptRow ν) : Nat × Option String × String :=
  (r.slot, some r.id, r.questionId)

namespace Tables

/-- The attempts of rows are where the rows say. -/
lemma map_attemptsOfRows {σ : Type} {bank : Bank ν} (hbank : bank.IsKeyed) {registry : Registry}
    {preferred : String} {steps : List (String × Step ν)} {rows : List (AttemptRow ν)} {s : σ}
    {attempts : List (Attempt ν)}
    (h : (attemptsOfRows bank registry preferred steps rows s).result = .ok attempts) :
    (attempts.map fun a => (a.slot, a.id, a.question.id)) = rows.map AttemptRow.entry := by
  induction rows generalizing steps s attempts with
  | nil =>
    cases h
    rfl
  | cons row rest ih =>
    unfold attemptsOfRows at h
    cases hq : (questionOfRow bank row s).result with
    | error e =>
      rw [Op.bind_of_error hq] at h
      cases h
    | ok question =>
      have hid : question.id = row.questionId := by
        cases hquestion : (bank.question row.questionId s).result with
        | error e => simp [questionOfRow, Op.mapFailure, hquestion, Except.mapError] at hq
        | ok q =>
          simp only [questionOfRow, Op.mapFailure, hquestion, Except.mapError] at hq
          cases hq
          exact hbank.id_eq hquestion
      rw [Op.bind_of_ok hq] at h
      cases hrest : (attemptsOfRows bank registry preferred (steps.filter fun e => e.1 != row.id) rest
          (questionOfRow bank row s).state).result with
      | error e =>
        simp only [Op.bind_of_error hrest] at h
        cases h
      | ok others =>
        simp only [Op.bind_of_ok hrest, Op.pure_apply] at h
        cases h
        rw [List.map_cons, List.map_cons, ih hrest, AttemptRow.entry, ← hid]
        rfl

end Tables

namespace Usage

/-- The layout of a usage that is loaded is that of its rows; of several in one slot the last
counts. -/
lemma layout_of_load {usageId : String} {bank : Bank ν} (hbank : bank.IsKeyed) {registry : Registry}
    {s : Store ν} {u : Usage ν} (h : (Store.load usageId bank registry s).result = .ok u) :
    u.id = .stored usageId ∧ u.layout = SortedMap.ofList
      ((s.tables.attempts.filter fun r => r.usageId == usageId).map AttemptRow.entry) := by
  unfold Store.load at h
  split at h
  · cases h
  · split at h
    · cases h
    · rename_i row hrow
      obtain rfl : row.id = usageId := by simpa using List.find?_some hrow
      unfold assemble at h
      cases hattempts : (Tables.attemptsOfRows bank registry row.preferred
          (Tables.orderedSteps (s.tables.rowsOf row).steps (s.tables.rowsOf row).vars)
          (s.tables.rowsOf row).attempts s).result with
      | error e =>
        rw [Op.bind_of_error hattempts] at h
        cases h
      | ok loaded =>
        rw [Op.bind_of_ok hattempts] at h
        cases h
        refine ⟨rfl, ?_⟩
        have hmap := Tables.map_attemptsOfRows hbank hattempts
        have hlayout : (restore row loaded registry true).layout = SortedMap.ofList
            (loaded.map fun a => (a.slot, a.id, a.question.id)) := by
          rw [restore, layout_tracking, layout, SortedMap.map_ofList, List.map_map]
          rfl
        rw [hlayout, hmap]
        rfl

/-- A usage that is loaded from tables in place is in place. -/
lemma placed_of_load {usageId : String} {bank : Bank ν} (hbank : bank.IsKeyed) {registry : Registry}
    {s : Store ν} (hs : s.tables.Placed) {u : Usage ν}
    (h : (Store.load usageId bank registry s).result = .ok u) : u.Placed s.tables := by
  obtain ⟨hid, hlayout⟩ := layout_of_load hbank h
  refine ⟨fun slot id questionId hentry => ?_, (hs.gapless usageId).congr fun slot => ?_⟩
  · rw [hlayout] at hentry
    obtain ⟨r, hr, heq⟩ := List.mem_map.1 (SortedMap.mem_of_get?_ofList hentry)
    obtain ⟨hmem, husage⟩ := List.mem_filter.1 hr
    cases heq
    refine ⟨r, hmem, rfl, ?_⟩
    rw [hid, AttemptRow.place, beq_iff_eq.1 husage]
    rfl
  · rw [← keys_layout, hlayout, SortedMap.mem_keys_iff, Tables.mem_slotsOf]
    constructor
    · rintro ⟨entry, hentry⟩
      obtain ⟨r, hr, heq⟩ := List.mem_map.1 (SortedMap.mem_of_get?_ofList hentry)
      obtain ⟨hmem, husage⟩ := List.mem_filter.1 hr
      exact ⟨r, hmem, beq_iff_eq.1 husage, congrArg Prod.fst heq⟩
    · rintro ⟨r, hr, husage, rfl⟩
      have hmem : r.entry ∈ (s.tables.attempts.filter fun r => r.usageId == usageId).map
          AttemptRow.entry := List.mem_map.2 ⟨r, List.mem_filter.2 ⟨hr, beq_iff_eq.2 husage⟩, rfl⟩
      exact SortedMap.exists_get?_ofList hmem

/-- A load gives back the layout of a usage whose attempts are saved and that has all that are. -/
lemma Placed.layout_load {u v : Usage ν} {bank : Bank ν} (hbank : bank.IsKeyed) {registry : Registry}
    {s : Store ν} (hs : s.tables.Placed) (hu : u.Placed s.tables) (hnumbered : u.Numbered)
    (hcovers : u.Covers s.tables)
    (h : (Store.load u.id.text bank registry s).result = .ok v) : v.layout = u.layout := by
  rw [(layout_of_load hbank h).2]
  refine SortedMap.ofList_eq fun slot entry => ?_
  constructor
  · intro hmem
    obtain ⟨r, hr, heq⟩ := List.mem_map.1 hmem
    obtain ⟨hr, husage⟩ := List.mem_filter.1 hr
    cases heq
    obtain ⟨slot, a, ha, hid⟩ := hcovers r hr (beq_iff_eq.1 husage)
    have hentry := get?_layout_of_some ha
    rw [hid] at hentry
    obtain ⟨r', hr', hid', hplace⟩ := hu.rooted _ _ _ hentry
    obtain ⟨-, rfl, hquestion⟩ :=
      AttemptRow.of_place ((hs.inPlace r hr r' hr' hid'.symm).trans hplace)
    rwa [← hquestion] at hentry
  · intro hentry
    have hsome := hentry
    rw [get?_layout, Option.map_eq_some_iff] at hsome
    obtain ⟨a, ha, rfl⟩ := hsome
    obtain ⟨id, hid⟩ := Option.ne_none_iff_exists'.1 (hnumbered ha)
    rw [hid] at hentry
    obtain ⟨r, hr, rfl, hplace⟩ := hu.rooted _ _ _ hentry
    obtain ⟨husage, rfl, hquestion⟩ := AttemptRow.of_place hplace
    refine List.mem_map.2 ⟨r, List.mem_filter.2 ⟨hr, beq_iff_eq.2 husage⟩, ?_⟩
    rw [AttemptRow.entry, hquestion, hid]

end Usage
end Assessment
