import Assessment.Field
import Mathlib.Data.List.Forall2
import Mathlib.Data.List.TakeWhile
import Mathlib.Tactic.Common

/-!
# Removing script elements

Cleaned HTML has its script elements removed in one pass from left to right.  This module says what
an element is without the pass (`Text.IsScript`) and how the pass cuts a text: into what is kept and
the elements after it, each up to its first end tag, where no element begins at a character that is
kept (`Text.Strips`, `Text.exists_strips`).

One pass is not enough.  What stands around an element that is removed comes together, and may be an
element then (`FieldKind.clean_assembles_script`).  Main result: that is the only way for one to be
left, and the cut goes through the name of its start tag
(`FieldKind.clean_leaves_only_assembled_scripts`).  The reason is that a start tag may hold anything
but a `>` and a script may hold anything at all: had the whole name been kept before the cut, it
would have been the start of a longer element, which ends where the removed one ends
(`Text.IsScript.resume`).
-/

namespace Assessment
namespace Text

/-! ## The pattern -/

/-- A text that is a word in some case. -/
def Spells (word cs : List Char) : Prop := List.Forall₂ (fun l c => isLetter l c = true) word cs

/-- A start tag: its name, which ends as a word there, and what stands before the first `>`. -/
inductive IsScriptStart : List Char → Prop
  | mk {name attributes : List Char} (hname : Spells "<script".toList name)
      (hends : endsWord (attributes ++ ['>']) = true) (hattributes : '>' ∉ attributes) :
      IsScriptStart (name ++ (attributes ++ ['>']))

/-- An end tag: its name, perhaps blanks, and `>`. -/
inductive IsScriptEnd : List Char → Prop
  | mk {name blanks : List Char} (hname : Spells "</script".toList name)
      (hblanks : ∀ c ∈ blanks, isBlank c = true) : IsScriptEnd (name ++ (blanks ++ ['>']))

/-- A script element: a start tag, anything, and an end tag. -/
inductive IsScript : List Char → Prop
  | mk {start stop : List Char} (body : List Char) (hstart : IsScriptStart start)
      (hstop : IsScriptEnd stop) : IsScript (start ++ (body ++ stop))

/-! ## Reading tags -/

/-- The name of a start tag has seven characters. -/
lemma Spells.length_eq_seven {name : List Char} (h : Spells "<script".toList name) :
    name.length = 7 :=
  (List.Forall₂.length_eq h).symm

/-- No letter of a tag name is a `>`. -/
lemma Spells.not_mem {word cs : List Char} (h : Spells word cs)
    (hword : ∀ l ∈ word, isLetter l '>' = false) : '>' ∉ cs := by
  induction h with
  | nil => simp
  | cons hc _ ih =>
    intro hmem
    rcases List.mem_cons.1 hmem with rfl | hmem
    · rw [hword _ List.mem_cons_self] at hc
      cases hc
    · exact ih (fun l hl => hword l (List.mem_cons_of_mem _ hl)) hmem

lemma afterWord?_eq_some_iff {word cs rest : List Char} :
    afterWord? word cs = some rest ↔ ∃ name, Spells word name ∧ cs = name ++ rest := by
  induction word generalizing cs with
  | nil =>
    rw [afterWord?, Option.some.injEq]
    simp only [Spells, List.forall₂_nil_left_iff, exists_eq_left, List.nil_append]
  | cons l ls ih =>
    cases cs with
    | nil =>
      simp only [afterWord?, Spells, List.forall₂_cons_left_iff, reduceCtorEq, false_iff, not_exists,
        not_and]
      rintro _ ⟨c, name, -, -, rfl⟩
      simp
    | cons c cs =>
      rw [afterWord?]
      constructor
      · intro h
        split at h
        · rename_i hc
          obtain ⟨name, hname, rfl⟩ := ih.1 h
          exact ⟨c :: name, .cons hc hname, rfl⟩
        · cases h
      · rintro ⟨_, hspells, heq⟩
        cases hspells with
        | cons hc hname =>
          obtain ⟨rfl, rfl⟩ := List.cons.inj heq
          rw [if_pos hc]
          exact ih.2 ⟨_, hname, rfl⟩

lemma afterAngle?_eq_some_iff {cs rest : List Char} :
    afterAngle? cs = some rest ↔ ∃ before, '>' ∉ before ∧ cs = before ++ '>' :: rest := by
  induction cs with
  | nil => simp [afterAngle?]
  | cons c cs ih =>
    rw [afterAngle?]
    by_cases hc : c = '>'
    · subst hc
      simp only [beq_self_eq_true, if_true, Option.some.injEq]
      constructor
      · rintro rfl
        exact ⟨[], by simp, rfl⟩
      · rintro ⟨before, hbefore, heq⟩
        cases before with
        | nil => exact (List.cons.inj heq).2
        | cons b before => exact absurd ((List.cons.inj heq).1 ▸ List.mem_cons_self) hbefore
    · rw [if_neg (by simpa using hc), ih]
      constructor
      · rintro ⟨before, hbefore, rfl⟩
        exact ⟨c :: before, by simp [hbefore, Ne.symm hc], rfl⟩
      · rintro ⟨before, hbefore, heq⟩
        cases before with
        | nil => exact absurd (List.cons.inj heq).1 hc
        | cons b before =>
          exact ⟨before, fun h => hbefore (List.mem_cons_of_mem _ h), (List.cons.inj heq).2⟩

/-- Where a word ends is decided by the next character alone. -/
lemma endsWord_append {cs : List Char} (h : cs ≠ []) (more : List Char) :
    endsWord (cs ++ more) = endsWord cs := by
  cases cs with
  | nil => exact absurd rfl h
  | cons c rest => rfl

lemma afterScriptStart?_eq_some_iff {cs rest : List Char} :
    afterScriptStart? cs = some rest ↔ ∃ start, IsScriptStart start ∧ cs = start ++ rest := by
  have hends : ∀ attributes : List Char,
      endsWord (attributes ++ '>' :: rest) = endsWord (attributes ++ ['>']) := fun attributes => by
    have h : endsWord (attributes ++ ['>'] ++ rest) = endsWord (attributes ++ ['>']) :=
      endsWord_append (by simp) rest
    rwa [List.append_assoc, List.singleton_append] at h
  rw [afterScriptStart?]
  constructor
  · intro h
    split at h
    · rename_i more hmore
      obtain ⟨name, hname, rfl⟩ := afterWord?_eq_some_iff.1 hmore
      split at h
      · rename_i hword
        obtain ⟨attributes, hattributes, rfl⟩ := afterAngle?_eq_some_iff.1 h
        rw [hends] at hword
        exact ⟨_, .mk hname hword hattributes, by simp⟩
      · cases h
    · cases h
  · rintro ⟨_, ⟨hname, hword, hattributes⟩, rfl⟩
    rw [afterWord?_eq_some_iff.2 ⟨_, hname, by simp only [List.append_assoc]; rfl⟩]
    simp only [List.singleton_append]
    rw [hends, if_pos hword]
    exact afterAngle?_eq_some_iff.2 ⟨_, hattributes, rfl⟩

lemma afterScriptEnd?_eq_some_iff {cs rest : List Char} :
    afterScriptEnd? cs = some rest ↔ ∃ stop, IsScriptEnd stop ∧ cs = stop ++ rest := by
  rw [afterScriptEnd?]
  constructor
  · intro h
    split at h
    · rename_i more hmore
      obtain ⟨name, hname, rfl⟩ := afterWord?_eq_some_iff.1 hmore
      split at h
      · rename_i rest' hrest
        cases h
        have hblanks : ∀ c ∈ more.takeWhile isBlank, isBlank c = true := fun c hc =>
          List.mem_takeWhile_imp hc
        refine ⟨_, .mk hname hblanks, ?_⟩
        rw [List.append_assoc, List.append_assoc, List.singleton_append, ← hrest,
          List.takeWhile_append_dropWhile]
      · cases h
    · cases h
  · rintro ⟨_, ⟨hname, hblanks⟩, rfl⟩
    rw [afterWord?_eq_some_iff.2 ⟨_, hname, by simp only [List.append_assoc]; rfl⟩]
    simp only [List.singleton_append]
    rw [List.dropWhile_append_of_pos hblanks]
    rfl

/-- An end tag goes up to its first `>`. -/
lemma IsScriptEnd.exists_concat {stop : List Char} (h : IsScriptEnd stop) :
    ∃ before, '>' ∉ before ∧ stop = before ++ ['>'] := by
  obtain @⟨name, blanks, hname, hblanks⟩ := h
  refine ⟨name ++ blanks, fun hmem => ?_, (List.append_assoc ..).symm⟩
  rcases List.mem_append.1 hmem with hmem | hmem
  · exact hname.not_mem (by simp [isLetter]) hmem
  · exact absurd (hblanks _ hmem) (by decide)

/-- Less follows a later place of a character than its first one. -/
lemma length_le_of_first {a : Char} {xs ys zs ws : List Char} (h : a ∉ zs)
    (heq : xs ++ a :: ys = zs ++ a :: ws) : ys.length ≤ ws.length := by
  obtain ⟨as, rfl, hws⟩ | ⟨as, rfl, hys⟩ := List.append_eq_append_iff.1 heq
  · cases as with
    | nil => rw [List.nil_append, List.cons.injEq] at hws; rw [hws.2]
    | cons b as =>
      obtain ⟨rfl, -⟩ := List.cons.inj hws
      exact absurd (List.mem_append_right _ List.mem_cons_self) h
  · have hlength := congrArg List.length hys
    simp only [List.length_append, List.length_cons] at hlength
    omega

lemma afterFirstScriptEnd?_eq_some {cs rest : List Char} (h : afterFirstScriptEnd? cs = some rest) :
    ∃ body stop, IsScriptEnd stop ∧ cs = body ++ stop ++ rest := by
  induction cs with
  | nil => cases h
  | cons c cs ih =>
    rw [afterFirstScriptEnd?] at h
    split at h
    · rename_i rest' hend
      cases h
      obtain ⟨stop, hstop, heq⟩ := afterScriptEnd?_eq_some_iff.1 hend
      exact ⟨[], stop, hstop, heq⟩
    · obtain ⟨body, stop, hstop, rfl⟩ := ih h
      exact ⟨c :: body, stop, hstop, rfl⟩

/-- An end tag is found at the latest where there is one. -/
lemma exists_afterFirstScriptEnd? {stop : List Char} (hstop : IsScriptEnd stop)
    (body rest : List Char) :
    ∃ rest', afterFirstScriptEnd? (body ++ stop ++ rest) = some rest' ∧
      rest.length ≤ rest'.length := by
  induction body with
  | nil =>
    have hend : afterScriptEnd? (stop ++ rest) = some rest :=
      afterScriptEnd?_eq_some_iff.2 ⟨stop, hstop, rfl⟩
    rw [List.nil_append]
    cases hcs : stop ++ rest with
    | nil => rw [hcs] at hend; cases hend
    | cons c cs =>
      rw [hcs] at hend
      exact ⟨rest, by rw [afterFirstScriptEnd?, hend], le_rfl⟩
  | cons c body ih =>
    rw [List.cons_append, List.cons_append, afterFirstScriptEnd?]
    cases hend : afterScriptEnd? (c :: (body ++ stop ++ rest)) with
    | none => exact ih
    | some rest' =>
      refine ⟨rest', rfl, ?_⟩
      obtain ⟨first, hfirst, heq⟩ := afterScriptEnd?_eq_some_iff.1 hend
      obtain ⟨before, hbefore, rfl⟩ := hfirst.exists_concat
      obtain ⟨inner, -, rfl⟩ := hstop.exists_concat
      have hends : (c :: body ++ inner) ++ '>' :: rest = before ++ '>' :: rest' := by
        simpa only [List.append_assoc, List.cons_append, List.nil_append] using heq
      exact length_le_of_first hbefore hends

/-! ## Reading elements -/

/-- Whether a script element stands at the beginning of a text. -/
def BeginsScript (cs : List Char) : Prop := ∃ e, IsScript e ∧ e <+: cs

/-- What is taken for an element is one, and none shorter stands there. -/
lemma afterScript?_eq_some {cs rest : List Char} (h : afterScript? cs = some rest) :
    ∃ e, IsScript e ∧ cs = e ++ rest ∧ ∀ e', IsScript e' → e' <+: cs → e.length ≤ e'.length := by
  obtain ⟨more, hmore, hrest⟩ := Option.bind_eq_some_iff.1 h
  obtain ⟨start, hstart, rfl⟩ := afterScriptStart?_eq_some_iff.1 hmore
  obtain ⟨body, stop, hstop, rfl⟩ := afterFirstScriptEnd?_eq_some hrest
  refine ⟨_, .mk body hstart hstop, by simp only [List.append_assoc], ?_⟩
  rintro _ ⟨body', hstart', hstop'⟩ ⟨rest', heq⟩
  rw [List.append_assoc] at heq
  -- the start tags are the same, because what follows a start tag is determined
  have hsame := hmore.symm.trans (afterScriptStart?_eq_some_iff.2 ⟨_, hstart', heq.symm⟩)
  obtain ⟨rest'', hrest'', hle⟩ := exists_afterFirstScriptEnd? hstop' body' rest'
  rw [← Option.some.inj hsame, hrest] at hrest''
  obtain rfl := Option.some.inj hrest''
  have hlength := congrArg List.length heq
  simp only [List.length_append] at hlength ⊢
  omega

lemma afterScript?_eq_none_iff {cs : List Char} : afterScript? cs = none ↔ ¬ BeginsScript cs := by
  constructor
  · rintro h ⟨_, ⟨body, hstart, hstop⟩, rest, rfl⟩
    obtain ⟨rest', hrest', -⟩ := exists_afterFirstScriptEnd? hstop body rest
    rw [List.append_assoc, afterScript?, afterScriptStart?_eq_some_iff.2 ⟨_, hstart, rfl⟩,
      Option.bind_some, hrest'] at h
    cases h
  · intro h
    cases hs : afterScript? cs with
    | none => rfl
    | some rest =>
      obtain ⟨e, he, rfl, -⟩ := afterScript?_eq_some hs
      exact absurd ⟨e, he, List.prefix_append _ _⟩ h

/-! ## Removing elements -/

/-- A cut in a text: what is kept before an element, and the element, which is removed. -/
structure Cut where
  kept : List Char
  removed : List Char

/-- The text of a cut. -/
def Cut.text (cut : Cut) : List Char := cut.kept ++ cut.removed

/-- How a text is cut from left to right, and what comes after the last cut.  An element is removed
where one begins, up to its first end tag, and none begins at a character that is kept. -/
inductive Strips : List Char → List Cut → List Char → Prop
  | done (tail : List Char) (htail : ∀ kept rest, tail = kept ++ rest → ¬ BeginsScript rest) :
      Strips tail [] tail
  | cut {kept removed rest tail : List Char} {cuts : List Cut} (hremoved : IsScript removed)
      (hfirst : ∀ e, IsScript e → e <+: removed → e = removed)
      (hkept : ∀ before after, kept = before ++ after → after ≠ [] →
        ¬ BeginsScript (after ++ removed ++ rest))
      (h : Strips rest cuts tail) : Strips (kept ++ removed ++ rest) (⟨kept, removed⟩ :: cuts) tail

/-- A character at which no element begins is kept. -/
lemma Strips.keep {c : Char} {cs tail : List Char} {cuts : List Cut}
    (hc : ¬ BeginsScript (c :: cs)) (h : Strips cs cuts tail) :
    ∃ cuts' tail', Strips (c :: cs) cuts' tail' ∧
      cuts'.flatMap Cut.kept ++ tail' = c :: (cuts.flatMap Cut.kept ++ tail) := by
  cases h with
  | done _ htail =>
    refine ⟨[], c :: cs, .done _ fun kept rest heq => ?_, rfl⟩
    cases kept with
    | nil => rwa [← List.nil_append rest, ← heq]
    | cons b kept => exact htail kept rest (List.cons.inj heq).2
  | @cut kept removed rest _ cuts hremoved hfirst hkept h =>
    suffices hcut : Strips ((c :: kept) ++ removed ++ rest) (⟨c :: kept, removed⟩ :: cuts) tail from
      ⟨_, _, hcut, rfl⟩
    refine .cut hremoved hfirst (fun before after heq hne => ?_) h
    cases before with
    | nil => rwa [← List.nil_append after, ← heq]
    | cons b before => exact hkept before after (List.cons.inj heq).2 hne

lemma dropScripts_eq (skip : Nat) (cs : List Char) :
    dropScripts skip cs = dropScripts 0 (cs.drop skip) := by
  induction skip generalizing cs with
  | zero => rfl
  | succ skip ih =>
    cases cs with
    | nil => rfl
    | cons c cs => rw [dropScripts, ih, List.drop_succ_cons]

lemma IsScript.ne_nil {e : List Char} (h : IsScript e) : e ≠ [] := by
  obtain ⟨body, -, hstop⟩ := h
  obtain ⟨before, -, rfl⟩ := hstop.exists_concat
  simp

/-- Where an element begins, it is skipped. -/
lemma dropScripts_of_script {cs rest : List Char} (h : afterScript? cs = some rest) :
    dropScripts 0 cs = dropScripts 0 rest := by
  obtain ⟨e, he, rfl, -⟩ := afterScript?_eq_some h
  obtain ⟨c, e, rfl⟩ := List.exists_cons_of_ne_nil he.ne_nil
  rw [List.cons_append] at h ⊢
  rw [dropScripts, h]
  simp only
  rw [dropScripts_eq, List.length_append, Nat.add_sub_cancel, List.drop_left]

/-- A text without its elements is what is kept when it is cut from left to right. -/
lemma exists_strips (cs : List Char) : ∃ cuts tail, Strips cs cuts tail ∧
    dropScripts 0 cs = cuts.flatMap Cut.kept ++ tail := by
  induction hn : cs.length using Nat.strong_induction_on generalizing cs with
  | _ n ih =>
    subst hn
    cases hs : afterScript? cs with
    | some rest =>
      obtain ⟨e, he, rfl, hfirst⟩ := afterScript?_eq_some hs
      have hlt : rest.length < (e ++ rest).length := by
        have := List.length_pos_of_ne_nil he.ne_nil
        rw [List.length_append]
        omega
      obtain ⟨cuts, tail, h, hkept⟩ := ih _ hlt rest rfl
      suffices hcut : Strips ([] ++ e ++ rest) (⟨[], e⟩ :: cuts) tail from
        ⟨_, _, hcut, by rw [dropScripts_of_script hs, hkept]; rfl⟩
      refine .cut he (fun e' he' hlead => ?_) (fun before after heq hne => ?_) h
      · exact hlead.eq_of_length_le (hfirst e' he' (hlead.trans (List.prefix_append _ _)))
      · exact absurd (List.append_eq_nil_iff.1 heq.symm).2 hne
    | none =>
      have hno := afterScript?_eq_none_iff.1 hs
      cases cs with
      | nil =>
        refine ⟨[], [], .done _ fun kept rest heq => ?_, rfl⟩
        rwa [(List.append_eq_nil_iff.1 heq.symm).2]
      | cons c cs =>
        obtain ⟨cuts, tail, h, hkept⟩ := ih _ (Nat.lt_succ_self _) cs rfl
        obtain ⟨cuts', tail', h', hkept'⟩ := h.keep hno
        refine ⟨cuts', tail', h', ?_⟩
        rw [dropScripts, hs, hkept', ← hkept]

lemma Strips.text {cs tail : List Char} {cuts : List Cut} (h : Strips cs cuts tail) :
    cs = cuts.flatMap Cut.text ++ tail := by
  induction h with
  | done tail _ => rfl
  | @cut kept removed rest tail cuts _ _ _ _ ih =>
    calc kept ++ removed ++ rest
        = kept ++ removed ++ (cuts.flatMap Cut.text ++ tail) := by rw [← ih]
      _ = _ := (List.append_assoc ..).symm

/-- What is removed are elements, each up to its first end tag. -/
lemma Strips.removed {cs tail : List Char} {cuts : List Cut} (h : Strips cs cuts tail) :
    ∀ cut ∈ cuts, IsScript cut.removed ∧
      ∀ e, IsScript e → e <+: cut.removed → e = cut.removed := by
  induction h with
  | done tail _ => simp
  | cut hremoved hfirst _ _ ih => exact List.forall_mem_cons.2 ⟨⟨hremoved, hfirst⟩, ih⟩

/-! ## What is put together -/

/-- An element is longer than the name of its start tag. -/
lemma IsScript.seven_le_length {e : List Char} (h : IsScript e) : 7 ≤ e.length := by
  obtain ⟨body, ⟨hname, -, -⟩, -⟩ := h
  simp only [List.length_append, hname.length_eq_seven]
  omega

lemma eq_of_isLetter_lt {c : Char} (h : isLetter '<' c = true) : c = '<' := by
  have hlower : c.toLower = '<' := by simpa [isLetter] using h
  unfold Char.toLower at hlower
  split at hlower
  · rename_i hupper
    have hlow : 65 ≤ c.val.toNat := hupper.1
    have hhigh : c.val.toNat ≤ 90 := hupper.2
    have hval : (c.val + 32).toNat = 60 := congrArg Char.toNat hlower
    have hthirtytwo : (32 : UInt32).toNat = 32 := rfl
    rw [UInt32.toNat_add, hthirtytwo] at hval
    omega
  · exact hlower

/-- An element begins with a `<`, at which a word before it ends. -/
lemma IsScript.endsWord {e : List Char} (h : IsScript e) : Text.endsWord e = true := by
  obtain ⟨body, ⟨hname, -, -⟩, -⟩ := h
  obtain ⟨c, name, hc, -, rfl⟩ := List.forall₂_cons_left_iff.1 hname
  rw [eq_of_isLetter_lt hc]
  rfl

/-- The name of a start tag before an element makes a longer element with it. -/
lemma IsScript.extend {name between e : List Char} (hname : Spells "<script".toList name)
    (hends : Text.endsWord (between ++ e) = true) (he : IsScript e) :
    IsScript (name ++ (between ++ e)) := by
  obtain @⟨start, stop, body, hstart, hstop⟩ := he
  by_cases hangle : '>' ∈ between
  · -- the start tag ends in between, and all after it belongs to the element
    obtain ⟨lead, more, rfl, hlead⟩ := List.eq_append_cons_of_mem hangle
    have hword : Text.endsWord (lead ++ ['>']) = true := by
      rw [← endsWord_append (by simp) (more ++ (start ++ (body ++ stop))), ← hends]
      simp only [List.append_assoc, List.cons_append, List.nil_append]
    have hlonger : IsScript ((name ++ (lead ++ ['>'])) ++ ((more ++ (start ++ body)) ++ stop)) :=
      .mk _ (.mk hname hword hlead) hstop
    simpa only [List.append_assoc, List.cons_append, List.nil_append] using hlonger
  · -- the start tag goes on up to the end of the start tag of the element
    obtain @⟨name', attributes, hname', -, hattributes⟩ := hstart
    have hne : between ++ name' ≠ [] := by
      intro h
      have hlength := hname'.length_eq_seven
      rw [(List.append_eq_nil_iff.1 h).2] at hlength
      cases hlength
    have hword : Text.endsWord ((between ++ (name' ++ attributes)) ++ ['>']) = true := by
      rw [← hends]
      have h := endsWord_append hne (attributes ++ ['>'])
      have h' := endsWord_append hne (attributes ++ ['>'] ++ (body ++ stop))
      simp only [List.append_assoc, List.cons_append, List.nil_append] at h h' ⊢
      rw [h, h']
    have hnone : '>' ∉ between ++ (name' ++ attributes) := by
      simp only [List.mem_append, not_or]
      exact ⟨hangle, hname'.not_mem (by simp [isLetter]), hattributes⟩
    have hlonger : IsScript ((name ++ ((between ++ (name' ++ attributes)) ++ ['>'])) ++
        (body ++ stop)) := .mk _ (.mk hname hword hnone) hstop
    simpa only [List.append_assoc, List.cons_append, List.nil_append] using hlonger

/-- What begins as an element and goes on with one is an element, if the name of the start tag is
there. -/
lemma IsScript.resume {part more e after removed : List Char} (he : IsScript e)
    (heq : e ++ after = part ++ more) (hlength : 7 ≤ part.length) (hremoved : IsScript removed) :
    IsScript (part ++ removed) := by
  obtain ⟨body, @⟨name, attributes, hname, hends, -⟩, -⟩ := he
  rw [List.append_assoc, List.append_assoc] at heq
  obtain ⟨between, rfl, hbetween⟩ : ∃ between, part = name ++ between ∧
      attributes ++ ['>'] ++ (body ++ _ ++ after) = between ++ more := by
    obtain ⟨between, hpart, hbetween⟩ | ⟨rest, hrest, hmore⟩ := List.append_eq_append_iff.1 heq
    · exact ⟨between, hpart, hbetween⟩
    · have hrest' : rest = [] := by
        have h := congrArg List.length hrest
        rw [List.length_append, hname.length_eq_seven] at h
        exact List.length_eq_zero_iff.1 (by omega)
      exact ⟨[], by simpa [hrest'] using hrest.symm, by simpa [hrest'] using hmore.symm⟩
  rw [List.append_assoc]
  refine hremoved.extend hname ?_
  cases between with
  | nil => exact hremoved.endsWord
  | cons c between =>
    have hsame := congrArg Text.endsWord hbetween
    rw [endsWord_append (by simp), hends] at hsame
    exact hsame.symm

/-- Whether a cut goes through the name of the start tag with which `e` begins, where `e` comes after
`before` in what is kept: the last characters kept before the cut are the first ones of `e`, and they
are fewer than the name has. -/
def CutInName (cuts : List Cut) (before e : List Char) : Prop :=
  ∃ first kept k removed last, 0 < k ∧ k < 7 ∧
    cuts = first ++ ⟨kept ++ e.take k, removed⟩ :: last ∧ before = first.flatMap Cut.kept ++ kept

/-- An element in what is left of a text was put together at a cut. -/
lemma Strips.cutInName {text tail : List Char} {cuts : List Cut} (h : Strips text cuts tail)
    {before e after : List Char} (he : IsScript e)
    (heq : cuts.flatMap Cut.kept ++ tail = before ++ (e ++ after)) : CutInName cuts before e := by
  induction h generalizing before with
  | done tail htail =>
    exact absurd ⟨e, he, List.prefix_append _ _⟩ (htail before _ heq)
  | @cut kept removed rest tail cuts hremoved _ hkept _ ih =>
    rw [List.flatMap_cons, List.append_assoc] at heq
    have hlater : ∀ before', before = kept ++ before' →
        cuts.flatMap Cut.kept ++ tail = before' ++ (e ++ after) →
        CutInName (⟨kept, removed⟩ :: cuts) before e := by
      intro before' hbefore hrest
      obtain ⟨first, kept', k, removed', last, hpos, hlt, rfl, rfl⟩ := ih hrest
      exact ⟨_ :: first, kept', k, removed', last, hpos, hlt, rfl, by simp [hbefore]⟩
    obtain ⟨before', hbefore, hrest⟩ | ⟨part, hpart, hrest⟩ := List.append_eq_append_iff.1 heq
    · exact hlater before' hbefore hrest
    cases part with
    | nil => exact hlater [] (by simpa using hpart.symm) (by simpa using hrest.symm)
    | cons c part =>
      by_cases hlength : (c :: part).length < 7
      · refine ⟨[], before, (c :: part).length, removed, cuts, by simp, hlength, ?_, rfl⟩
        have htake : e.take (c :: part).length = c :: part := by
          have h := congrArg (List.take (c :: part).length) hrest
          rwa [List.take_left, List.take_append_of_le_length (hlength.le.trans he.seven_le_length)]
            at h
        rw [htake, List.nil_append, ← hpart]
      · have hlonger := he.resume hrest (Nat.le_of_not_lt hlength) hremoved
        exact absurd ⟨_, hlonger, List.prefix_append _ _⟩ (hkept before _ hpart (by simp))

end Text

namespace FieldKind

open Text

/-- Cleaning HTML removes script elements in one pass from left to right.  The trimmed text is cut
into what is kept and elements, each up to its first end tag, and the value is what is kept.  A script
element that still stands in the value was put together by the pass: an element was removed in the
middle of the name of its start tag. -/
theorem clean_leaves_only_assembled_scripts (ν : Type) [Scalar ν] (field raw : String) :
    ∃ (cuts : List Cut) (tail : List Char),
      cleanHtml.clean ν field raw = .ok (String.ofList (cuts.flatMap Cut.kept ++ tail)) ∧
      (trim raw).toList = cuts.flatMap Cut.text ++ tail ∧
      (∀ cut ∈ cuts, IsScript cut.removed ∧
        ∀ e, IsScript e → e <+: cut.removed → e = cut.removed) ∧
      ∀ before e after, cuts.flatMap Cut.kept ++ tail = before ++ e ++ after → IsScript e →
        CutInName cuts before e := by
  obtain ⟨cuts, tail, h, hleft⟩ := exists_strips (trim raw).toList
  refine ⟨cuts, tail, ?_, h.text, h.removed, fun before e after heq he => ?_⟩
  · rw [← hleft]
    rfl
  · rw [List.append_assoc] at heq
    exact h.cutInName he heq

/-- Removing the element in the middle of `<script>` puts one together from what stands around it. -/
theorem clean_assembles_script :
    cleanHtml.clean Float "answer" "<scr<script></script>ipt>alert(1)</script>" =
        .ok "<script>alert(1)</script>" ∧
      IsScript "<script>alert(1)</script>".toList := by
  have hscript : afterScript? "<script>alert(1)</script>".toList = some [] := by decide
  obtain ⟨e, he, heq, -⟩ := afterScript?_eq_some hscript
  rw [List.append_nil] at heq
  exact ⟨by rfl, heq ▸ he⟩

end FieldKind
end Assessment
