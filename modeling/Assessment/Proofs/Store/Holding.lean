import Assessment.Proofs.Store.Apart
import Assessment.Proofs.Store.Handle
import Assessment.Proofs.Store.Saved

/-!
# Usages that are held apart

Usages are in memory and in a store at once.  When no stored usage is in memory twice, what is known of
the one goes with what is known of the other: a usage in memory keeps track of its changes, and every
usage that the store has is in the tables as some usage is.  This is `Store.Holds`.  It is told of
usages with a property that saving them does not lose, which is all that is said about their contents.

A move is about one usage; what holds of the others carries over since their rows stay
(`Store.Leads.saved`, `Store.Leads.kept`).  Hence a save of one usage (`Store.Holds.save`), deleting one
(`Store.Holds.delete`) and other moves keep what is held.
-/

namespace Assessment

variable {ν : Type}

namespace Store

/-! ## Stores that follow one another -/

/-- One store leads to another: both are owned, ids were issued in between, and those that were issued
before have the same owners. -/
structure Leads (owner owner' : String → String) (s s' : Store ν) : Prop where
  before : s.Owned owner
  after : s'.Owned owner'
  issued : s.supply ≤ s'.supply
  sameOwner : ∀ id, ¬ s.supply.ToCome id → owner' id = owner id

/-- A usage that is in the tables of an owned store is owned. -/
lemma Owned.of_saved {owner : String → String} {s : Store ν} (h : s.Owned owner) {u : Usage ν}
    (hu : u.Saved s.tables) : u.Owned owner s.supply where
  sound := hu.sound
  named := fun _ => by
    have hrow := hu.mirrors.usage (by simp [Changes.stale, Changes.none])
    exact h.usages u.toRow (List.mem_of_find?_eq_some hrow)
  attempts := fun ha id hid => by
    obtain ⟨row, htoRow, -, hmem⟩ := hu.exists_row ha
    obtain rfl := Option.some.inj ((Attempt.id_of_toRow htoRow).symm.trans hid)
    obtain ⟨hrow, husage⟩ := List.mem_filter.1 hmem
    exact ⟨hu.stored, (h.tables.attempts row hrow).trans (by simpa [Usage.toRow] using husage),
      (h.past.attempts row hrow).1⟩

/-- A stored usage that has no changes keeps track of them. -/
lemma Owned.kept_of_saved {owner : String → String} {s : Store ν} {u : Usage ν} (hs : s.Owned owner)
    (hu : u.Saved s.tables) (hpending : u.pending = some Changes.none) : u.Kept s where
  sound := hu.sound
  backend := hs.backend
  past := hs.past
  tracked := .inr ⟨hu.stored, (hs.of_saved hu).named hu.stored, Changes.none, hpending,
    fun _ _ => rfl, hu.mirrors⟩

namespace Leads

variable {owner owner' : String → String} {s s' : Store ν} {u : Usage ν}

lemma owned (h : Leads owner owner' s s') (hu : u.Owned owner s.supply) :
    u.Owned owner' s'.supply :=
  hu.mono h.issued h.sameOwner

lemma mirrors (h : Leads owner owner' s s') (hu : u.Owned owner s.supply) {stale : Stale}
    (hmirrors : Mirrors u stale s.tables) (hrows : s.tables.SameRows u.id.text s'.tables) :
    Mirrors u stale s'.tables :=
  hmirrors.sameRows hrows h.before.tables h.after.tables hu (h.owned hu)

/-- A stored usage stays in the tables as it is while its rows stay. -/
lemma saved (h : Leads owner owner' s s') (hu : u.Saved s.tables)
    (hrows : s.tables.SameRows u.id.text s'.tables) : u.Saved s'.tables :=
  ⟨hu.sound, hu.stored, h.mirrors (h.before.of_saved hu) hu.mirrors hrows, hu.numbered⟩

/-- A usage in memory goes on keeping track of its changes while its rows stay, if it has any. -/
lemma kept (h : Leads owner owner' s s') (hu : u.Owned owner s.supply) (hkept : u.Kept s)
    (hrows : ∀ v, u.id = .stored v → s.tables.SameRows v s'.tables) : u.Kept s' where
  sound := hkept.sound
  backend := h.after.backend
  past := h.after.past
  tracked := by
    refine hkept.tracked.imp_right fun ⟨hstored, hnamed, c, htracks⟩ => ?_
    obtain ⟨v, hid⟩ := UsageId.exists_eq_stored hstored
    have hrows' : s.tables.SameRows u.id.text s'.tables := by
      rw [hid]
      exact hrows v hid
    exact ⟨hstored, fun hcome => hnamed (hcome.mono h.issued), c, htracks.pending, htracks.stored,
      h.mirrors hu htracks.mirrors hrows'⟩

end Leads

/-- A save that is prepared stores the usage under its own id, or under one that was to come, and no
other usage. -/
lemma Owned.id_save {owner : String → String} {s : Store ν} {u : Usage ν} (h : s.Owned owner)
    (howned : u.Owned owner s.supply) {plan : Plan ν}
    (hok : (Usage.prepare (u, s.supply)).result = .ok plan) :
    ∃ uid, (Store.save (u, s)).state.1.id = .stored uid ∧
      (u.id = .stored uid ∨ u.id.isStored = false ∧ s.supply.ToCome uid) ∧
      ∀ v, (Store.save (u, s)).state.2.Has v → v ≠ uid → s.Has v := by
  obtain ⟨uid, _, huid, -, hprepared⟩ := Saving.owned_prepare howned hok
  have hstate : (Store.save (u, s)).state = ((Usage.prepare (u, s.supply)).state.1.settle,
      { s with
        supply := (Usage.prepare (u, s.supply)).state.2
        tables := s.tables.apply plan.write }) := by
    simp only [Store.save, hok, h.backend]
  rw [hstate]
  refine ⟨uid, (Usage.id_settle _).trans hprepared.id, huid, fun v hv hne => ?_⟩
  obtain ⟨row, hrow, rfl⟩ := hv
  rw [Tables.usages_apply] at hrow
  cases husage : plan.write.usage with
  | none =>
    rw [husage] at hrow
    exact ⟨row, hrow, rfl⟩
  | some row' =>
    rw [husage, Option.elim_some, Tables.replaceRow, List.mem_append, List.mem_filter,
      List.mem_singleton] at hrow
    obtain ⟨hrow, -⟩ | rfl := hrow
    · exact ⟨row, hrow, rfl⟩
    · exact absurd (hprepared.write.usage row husage) hne

/-- A row that takes the place of those with its id. -/
lemma nodup_replaceRow {rows : List UsageRow} (h : (rows.map UsageRow.id).Nodup) (row : UsageRow) :
    ((Tables.replaceRow UsageRow.id rows row).map UsageRow.id).Nodup := by
  rw [Tables.replaceRow, List.map_append, List.map_singleton, List.nodup_append]
  refine ⟨h.sublist (List.filter_sublist.map _), List.nodup_singleton _, fun id hid id' hid' heq => ?_⟩
  obtain ⟨r, hr, rfl⟩ := List.mem_map.1 hid
  obtain ⟨-, hne⟩ := List.mem_filter.1 hr
  simp [heq, List.mem_singleton.1 hid'] at hne

/-- After a save that is prepared every usage has one row still, and every attempt names a usage. -/
lemma Owned.usages_save {owner : String → String} {s : Store ν} {u : Usage ν} (h : s.Owned owner)
    (howned : u.Owned owner s.supply) (hkept : u.Kept s) {plan : Plan ν}
    (hok : (Usage.prepare (u, s.supply)).result = .ok plan)
    (husages : (s.tables.usages.map UsageRow.id).Nodup)
    (husageOf : ∀ r ∈ s.tables.attempts, s.Has r.usageId) :
    ((Store.save (u, s)).state.2.tables.usages.map UsageRow.id).Nodup ∧
      ∀ r ∈ (Store.save (u, s)).state.2.tables.attempts,
        (Store.save (u, s)).state.2.Has r.usageId := by
  obtain ⟨uid, hid, -, -⟩ := h.id_save howned hok
  obtain ⟨uid', _, -, -, hprepared⟩ := Saving.owned_prepare howned hok
  obtain ⟨-, hsettled, hsaved⟩ := hkept.saved_save hok
  obtain rfl : uid = uid' := UsageId.stored.inj
    (hid.symm.trans ((congrArg Usage.id hsettled).trans
      ((Usage.id_settle _).trans hprepared.id)))
  have htables : (Store.save (u, s)).state.2.tables = s.tables.apply plan.write := by
    simp only [Store.save, hok, h.backend]
  -- the usage that was saved is there
  have hhas : (Store.save (u, s)).state.2.Has uid := by
    have hrow := List.mem_of_find?_eq_some (hsaved.mirrors.usage (by simp [Changes.stale, Changes.none]))
    exact ⟨_, hrow, by simp [Usage.toRow, hid, UsageId.text]⟩
  have hkeeps : ∀ {v}, s.Has v → (Store.save (u, s)).state.2.Has v := fun hv => by
    rw [Has, htables]
    exact Tables.exists_mem_usages_apply hv plan.write
  refine ⟨?_, fun r hr => ?_⟩
  · rw [htables, Tables.usages_apply]
    cases plan.write.usage with
    | none => exact husages
    | some row => exact nodup_replaceRow husages row
  · rw [htables, Tables.attempts_apply] at hr
    obtain hr | hr := Tables.mem_foldl_replaceRow hr
    · exact (hprepared.write.rows r hr).2.1 ▸ hhas
    · exact hkeeps (husageOf r hr)

/-! ## Usages held apart -/

/-- Usages in memory that have a property, and the store that they are loaded from and saved to.  Each
stored usage is in memory once at most. -/
structure Holds (P : Usage ν → Prop) (owner : String → String) (s : Store ν) (us : List (Usage ν)) :
    Prop where
  store : s.Owned owner
  owned : ∀ u ∈ us, u.Owned owner s.supply
  kept : ∀ u ∈ us, u.Kept s
  property : ∀ u ∈ us, P u
  apart : us.Pairwise fun u u' => ∀ v, u.id = .stored v → u'.id ≠ .stored v
  -- what is stored is the rows of usages that have the property, whether they are in memory or not
  saved : ∀ v, s.Has v → ∃ g : Usage ν, g.id = .stored v ∧ g.Saved s.tables ∧ P g
  usages : (s.tables.usages.map UsageRow.id).Nodup
  usageOf : ∀ r ∈ s.tables.attempts, s.Has r.usageId

namespace Holds

variable {P : Usage ν → Prop} {owner owner' : String → String} {s s' : Store ν}
  {us us' : List (Usage ν)} {u u' : Usage ν}

lemma empty [IdSource] (P : Usage ν → Prop) (owner : String → String) :
    Holds P owner (Store.empty .memory) [] where
  store := owned_empty owner
  owned := by simp
  kept := by simp
  property := by simp
  apart := List.Pairwise.nil
  saved := by
    rintro v ⟨row, hrow, -⟩
    cases hrow
  usages := List.nodup_nil
  usageOf := fun r hr => by cases hr

lemma tail (h : Holds P owner s (u :: us)) : Holds P owner s us :=
  ⟨h.store, fun w hw => h.owned w (List.mem_cons_of_mem _ hw),
    fun w hw => h.kept w (List.mem_cons_of_mem _ hw),
    fun w hw => h.property w (List.mem_cons_of_mem _ hw), h.apart.of_cons, h.saved,
    h.usages, h.usageOf⟩

lemma cons (h : Holds P owner s us) (howned : u.Owned owner s.supply) (hkept : u.Kept s)
    (hu : P u) (hapart : ∀ u' ∈ us, ∀ v, u.id = .stored v → u'.id ≠ .stored v) :
    Holds P owner s (u :: us) :=
  ⟨h.store, List.forall_mem_cons.2 ⟨howned, h.owned⟩, List.forall_mem_cons.2 ⟨hkept, h.kept⟩,
    List.forall_mem_cons.2 ⟨hu, h.property⟩, List.pairwise_cons.2 ⟨hapart, h.apart⟩, h.saved,
    h.usages, h.usageOf⟩

/-- A usage takes the place of the first one. -/
lemma replace (h : Holds P owner s (u :: us)) (howned : u'.Owned owner s.supply) (hkept : u'.Kept s)
    (hu : P u') (hid : u'.id = u.id) : Holds P owner s (u' :: us) :=
  h.tail.cons howned hkept hu fun w hw v hv => (List.pairwise_cons.1 h.apart).1 w hw v (hid ▸ hv)

/-- The order of the usages in memory does not matter. -/
lemma perm (h : Holds P owner s us) (hperm : us.Perm us') : Holds P owner s us' where
  store := h.store
  owned := fun u hu => h.owned u (hperm.mem_iff.2 hu)
  kept := fun u hu => h.kept u (hperm.mem_iff.2 hu)
  property := fun u hu => h.property u (hperm.mem_iff.2 hu)
  apart := h.apart.perm hperm fun hne v hid' hid => hne v hid hid'
  saved := h.saved
  usages := h.usages
  usageOf := h.usageOf

/-- A move that is not about the usages in memory keeps what holds of them. -/
lemma leads (h : Holds P owner s us) (hleads : Leads owner owner' s s')
    (hrows : ∀ u ∈ us, ∀ v, u.id = .stored v → s.tables.SameRows v s'.tables)
    (hsaved : ∀ v, s'.Has v → s.Has v ∧ s.tables.SameRows v s'.tables ∨
      ∃ g : Usage ν, g.id = .stored v ∧ g.Saved s'.tables ∧ P g)
    (husages : (s'.tables.usages.map UsageRow.id).Nodup)
    (husageOf : ∀ r ∈ s'.tables.attempts, s'.Has r.usageId) : Holds P owner' s' us where
  store := hleads.after
  owned := fun u hu => hleads.owned (h.owned u hu)
  kept := fun u hu => hleads.kept (h.owned u hu) (h.kept u hu) (hrows u hu)
  property := h.property
  apart := h.apart
  saved := by
    intro v hv
    obtain ⟨hold, hsame⟩ | hnew := hsaved v hv
    · obtain ⟨g, hid, hg, hproperty⟩ := h.saved v hold
      have hrows : s.tables.SameRows g.id.text s'.tables := by
        rw [hid]
        exact hsame
      exact ⟨g, hid, hleads.saved hg hrows, hproperty⟩
    · exact hnew
  usages := husages
  usageOf := husageOf

/-- Ids were issued and not used. -/
lemma supply (h : Holds P owner s us) {supply : Supply} (hle : s.supply ≤ supply) :
    Holds P owner { s with supply := supply } us := by
  have hleads : Leads owner owner s { s with supply := supply } :=
    ⟨h.store, h.store.supply hle fun _ _ => rfl, hle, fun _ _ => rfl⟩
  exact h.leads hleads (fun _ _ v _ => .refl v _) (fun v hv => .inl ⟨hv, .refl v _⟩) h.usages
    h.usageOf

/-- A usage that was never stored comes into memory. -/
lemma make (h : Holds P owner s us) (hu : u.Unsaved) (howned : u.Owned owner s.supply)
    (hproperty : P u) : Holds P owner s (u :: us) := by
  refine h.cons howned ⟨howned.sound, h.store.backend, h.store.past, .inl hu⟩ hproperty
    fun _ _ v hid => ?_
  obtain ⟨token, htoken⟩ := hu.id
  rw [htoken] at hid
  cases hid

/-- A saved usage without changes comes into memory. -/
lemma load (h : Holds P owner s us) (hu : u.Saved s.tables)
    (hpending : u.pending = some Changes.none) (hproperty : P u)
    (hfree : ∀ u' ∈ us, u'.id ≠ u.id) : Holds P owner s (u :: us) :=
  h.cons (h.store.of_saved hu) (h.store.kept_of_saved hu hpending) hproperty
    fun u' hu' _ hid hid' => hfree u' hu' (hid'.trans hid.symm)

/-- A save stores the usage that stands first, or fails and only issues ids. -/
lemma save (h : Holds P owner s (u :: us))
    (hproperty : ∀ plan, (Usage.prepare (u, s.supply)).result = .ok plan →
      P (Usage.prepare (u, s.supply)).state.1.settle) :
    ∃ owner', Holds P owner' (Store.save (u, s)).state.2 ((Store.save (u, s)).state.1 :: us) := by
  have howned := h.owned u List.mem_cons_self
  have hkept := h.kept u List.mem_cons_self
  obtain ⟨e, -, hstate⟩ | ⟨plan, hok, -⟩ := hkept.save_eq
  · rw [hstate]
    exact ⟨owner, h.supply (u.le_prepare s.supply)⟩
  · obtain ⟨⟨owner', hsame, hw, hs'⟩, hle, -, hrows⟩ := h.store.save howned
    obtain ⟨uid, hid, huid, hhas⟩ := h.store.id_save howned hok
    obtain ⟨-, hsettled, hsaved⟩ := hkept.saved_save hok
    have hnew : P (Store.save (u, s)).state.1 := by
      rw [hsettled]
      exact hproperty plan hok
    -- nothing else in memory goes by the id of the usage, and what goes by another is not written
    have hnamed : ∀ u' ∈ us, ∀ v, u'.id = .stored v → ¬ s.supply.ToCome v ∧ v ≠ uid := by
      intro u' hu' v hid'
      have hissued := (h.tail.owned u' hu').named (by simp [hid', UsageId.isStored])
      rw [hid'] at hissued
      refine ⟨hissued, ?_⟩
      rintro rfl
      obtain hown | ⟨-, hcome⟩ := huid
      · exact (List.pairwise_cons.1 h.apart).1 u' hu' v hown hid'
      · exact hissued hcome
    have hother : ∀ v, ¬ s.supply.ToCome v → v ≠ uid →
        s.tables.SameRows v (Store.save (u, s)).state.2.tables := by
      refine fun v hv hne => hrows v hv fun hown => ?_
      obtain hown' | ⟨hephemeral, -⟩ := huid
      · exact hne (UsageId.stored.inj (hown.symm.trans hown'))
      · simp [hown, UsageId.isStored] at hephemeral
    obtain ⟨husages, husageOf⟩ := h.store.usages_save howned hkept hok h.usages h.usageOf
    have htail := h.tail.leads ⟨h.store, hs', hle, hsame⟩ (fun u' hu' v hid' => ?_) (fun v hv => ?_)
      husages husageOf
    · refine ⟨owner', htail.cons hw hkept.save hnew fun u' hu' v hv hid' => ?_⟩
      exact (hnamed u' hu' v hid').2 (UsageId.stored.inj (hv.symm.trans hid))
    · exact hother v (hnamed u' hu' v hid').1 (hnamed u' hu' v hid').2
    · by_cases heq : v = uid
      · exact .inr ⟨_, heq ▸ hid, hsaved, hnew⟩
      · have hold := hhas v hv heq
        exact .inl ⟨hold, hother v (h.store.not_toCome hold) heq⟩

/-- A save that is prepared and aborted, or cannot be prepared, only issues ids. -/
lemma abort (h : Holds P owner s (u :: us)) {plan : Plan ν}
    (hok : (Usage.prepare (u, s.supply)).result = .ok plan) :
    Holds P owner { s with supply := (Usage.prepare (u, s.supply)).state.2 }
      ((Usage.prepare (u, s.supply)).state.1.abort plan :: us) := by
  rw [(Usage.prepare_undone (h.kept u List.mem_cons_self).sound s.supply).2 plan hok]
  exact h.supply (u.le_prepare s.supply)

lemma delete (h : Holds P owner s us) {uid : String} (hfree : ∀ u ∈ us, u.id ≠ .stored uid) :
    Holds P owner (Store.delete uid s).state us := by
  obtain ⟨hstate, howned⟩ := h.store.delete uid
  rw [hstate] at howned ⊢
  refine h.leads ⟨h.store, howned, le_rfl, fun _ _ => rfl⟩ (fun u hu v hid => ?_)
    (fun v hv => .inl ?_) ?_ fun r hr => ?_
  · exact h.store.tables.sameRows_delete fun heq => hfree u hu (heq ▸ hid)
  · obtain ⟨row, hrow, rfl⟩ := hv
    obtain ⟨hmem, hne⟩ := List.mem_filter.1 hrow
    exact ⟨⟨row, hmem, rfl⟩, h.store.tables.sameRows_delete fun heq => by simp [heq] at hne⟩
  · exact h.usages.sublist (List.filter_sublist.map _)
  · obtain ⟨hmem, hne⟩ := List.mem_filter.1 hr
    obtain ⟨row, hrow, hid⟩ := h.usageOf r hmem
    exact ⟨row, List.mem_filter.2 ⟨hrow, hid ▸ hne⟩, hid⟩

end Holds
end Store
end Assessment
