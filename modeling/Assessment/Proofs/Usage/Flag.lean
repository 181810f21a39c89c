import Assessment.Proofs.Digest.Hex
import Assessment.Proofs.Usage.FieldName
import Assessment.Proofs.Usage.Step
import Assessment.Store.Supply
import Mathlib.Data.List.Basic
import Mathlib.Data.Set.Function

/-!
# Flags and their checksums

A page that holds a checksum may set the flag of one attempt on behalf of one person.  The checksum is
the keyed digest of a message that names the usage, the slot and the person.  The message has the shape
of the name of a form field, and it is told apart like one: its first colon comes after the usage, which
has none in its identity, and the `_` that comes next ends the digits of the slot.  What follows is the
person, whatever the name may hold (`flagMessage_inj`).  So a checksum is right for another usage, slot
or person only if two different messages have the same digest (`Flagging.checksum_binds`).

With the right checksum, in either case of its letters, a page does what setting the flag does; with any
other text it does nothing (`Usage.setFlagChecked_spec`).
-/

namespace Assessment

/-! ## Bytes -/

namespace Digest

lemma loop_toList (bytes : ByteArray) (i : Nat) (front : List UInt8) :
    ByteArray.toList.loop bytes i front = front.reverse ++ bytes.data.toList.drop i := by
  fun_induction ByteArray.toList.loop bytes i front with
  | case1 i front h ih =>
    have hi : i < bytes.data.toList.length := h
    have hget : bytes.get! i = bytes.data.toList[i] := getElem!_pos bytes.data i h
    rw [ih, List.drop_eq_getElem_cons hi, hget, List.reverse_cons, List.append_assoc]
    rfl
  | case2 i front h =>
    rw [List.drop_eq_nil_of_le (Nat.not_lt.1 h), List.append_nil]

/-- Different texts have different bytes. -/
lemma toUTF8_toList_inj {s t : String} : s.toUTF8.toList = t.toUTF8.toList ↔ s = t := by
  refine ⟨fun h => ?_, congrArg fun s : String => s.toUTF8.toList⟩
  rw [ByteArray.toList, ByteArray.toList, loop_toList, loop_toList] at h
  exact String.toByteArray_inj.1 (ByteArray.ext (Array.toList_inj.1 h))

end Digest

/-! ## Messages -/

/-- A message names one usage, one slot and one person. -/
lemma flagMessage_inj {usageId usageId' : String} (hcolon : ':' ∉ usageId.toList)
    (hcolon' : ':' ∉ usageId'.toList) {slot slot' : Nat} {actor actor' : String} :
    flagMessage usageId slot actor = flagMessage usageId' slot' actor' ↔
      usageId = usageId' ∧ slot = slot' ∧ actor = actor' := by
  -- a message is a field name of the usage `aid…` whose own part is `user…`
  have hfield : ∀ (usageId : String) (slot : Nat) (actor : String), flagMessage usageId slot actor =
      Attempt.stemOf ("aid" ++ usageId) slot ++ ("user" ++ actor) := fun _ _ _ =>
    String.toList_inj.1 (by simp [flagMessage, Attempt.stemOf, String.toList_append])
  have hne : ∀ usageId : String, "aid" ++ usageId ≠ "" := fun usageId h =>
    absurd (congrArg String.toList h) (by simp [String.toList_append])
  have hclear : ∀ {usageId : String}, ':' ∉ usageId.toList → ':' ∉ ("aid" ++ usageId).toList :=
    fun h => by simpa [String.toList_append] using h
  constructor
  · intro h
    rw [hfield, hfield] at h
    have howner := congrArg Batch.fieldOwner? h
    rw [Batch.fieldOwner?_stemOf (hne _) (hclear hcolon),
      Batch.fieldOwner?_stemOf (hne _) (hclear hcolon')] at howner
    have husage := String.toList_inj.1 (Prod.mk.inj (Option.some.inj howner)).1
    rw [husage] at h
    obtain ⟨hslot, hactor⟩ := Attempt.stemOf_append_inj (hne _) (hclear hcolon') h
    exact ⟨(String.append_right_inj _).1 husage, hslot, (String.append_right_inj _).1 hactor⟩
  · rintro ⟨rfl, rfl, rfl⟩
    rfl

/-! ## Checksums -/

/-- A checksum is right if in lower case it is the one that is written. -/
lemma verifiesFlag_iff {secret usageId actor checksum : String} {slot : Nat} :
    verifiesFlag secret usageId slot actor checksum = true ↔
      checksum.toLower = flagChecksum secret usageId slot actor := by
  rw [flagChecksum, ← Digest.unhex?_eq_some_iff, verifiesFlag]
  cases Digest.unhex? checksum with
  | none => simp
  | some bytes => simp

/-- What a checksum is for: the flag in one slot of one usage, on behalf of one person. -/
structure Flagging where
  usageId : String
  slot : Nat
  actor : String
  deriving DecidableEq

namespace Flagging

/-- The bytes of the message that a checksum authenticates. -/
def bytes (f : Flagging) : Digest.Bytes := (flagMessage f.usageId f.slot f.actor).toUTF8.toList

/-- The checksum under a secret. -/
def checksum (f : Flagging) (secret : String) : String :=
  flagChecksum secret f.usageId f.slot f.actor

/-- Whether a checksum is the right one under a secret. -/
def Accepts (f : Flagging) (secret checksum : String) : Prop :=
  verifiesFlag secret f.usageId f.slot f.actor checksum = true

variable {f g : Flagging}

/-- Different purposes have different messages. -/
lemma bytes_inj (hf : ':' ∉ f.usageId.toList) (hg : ':' ∉ g.usageId.toList) :
    f.bytes = g.bytes ↔ f = g := by
  cases f with | mk usageId slot actor =>
    cases g with | mk usageId' slot' actor' =>
      rw [bytes, bytes, Digest.toUTF8_toList_inj, flagMessage_inj hf hg, Flagging.mk.injEq]

/-- A checksum is right wherever the digest is the same. -/
lemma accepts_checksum (secret : String) :
    g.Accepts secret (f.checksum secret) ↔
      Digest.hmac secret.toUTF8.toList f.bytes = Digest.hmac secret.toUTF8.toList g.bytes := by
  rw [Accepts, verifiesFlag, checksum, flagChecksum, Digest.unhex?_hex]
  exact beq_iff_eq

/-- A checksum is for one usage, one slot and one person.  No identity that a supply gives out has a
colon, and for identities without one the message that a checksum authenticates determines all three.
So the checksum for three of them is right for three others only if the two messages are different and
have the same digest under the secret; among messages with different digests it is right for no
others. -/
theorem checksum_binds :
    (∀ supply : Supply, ':' ∉ supply.takeToken.1.toList ∧ ':' ∉ supply.takeRowId.1.toList) ∧
    ∀ f g : Flagging, ':' ∉ f.usageId.toList → ':' ∉ g.usageId.toList →
      (f.bytes = g.bytes ↔ f = g) ∧
      ∀ secret : String,
        (g.Accepts secret (f.checksum secret) ↔ f = g ∨ f.bytes ≠ g.bytes ∧
          Digest.hmac secret.toUTF8.toList f.bytes = Digest.hmac secret.toUTF8.toList g.bytes) ∧
        ∀ messages : Set Digest.Bytes, Set.InjOn (Digest.hmac secret.toUTF8.toList) messages →
          f.bytes ∈ messages → g.bytes ∈ messages →
          (g.Accepts secret (f.checksum secret) ↔ f = g) := by
  refine ⟨fun supply => ⟨supply.source.colon_notMem_token _, supply.source.colon_notMem_rowId _⟩,
    fun f g hf hg => ⟨bytes_inj hf hg, fun secret => ⟨?_, fun messages hinj hfm hgm => ?_⟩⟩⟩
  · rw [accepts_checksum, ← bytes_inj hf hg]
    constructor
    · intro heq
      by_cases h : f.bytes = g.bytes
      · exact .inl h
      · exact .inr ⟨h, heq⟩
    · rintro (h | ⟨-, heq⟩)
      · rw [h]
      · exact heq
  · rw [accepts_checksum, ← bytes_inj hf hg]
    exact hinj.eq_iff hfm hgm

/-- The name of one person looks like the end of the message for another slot. -/
theorem checksum_binds_apart :
    let f : Flagging := ⟨"u1", 2, "3_user4"⟩
    let g : Flagging := ⟨"u1", 2, "3"⟩
    ':' ∉ "u1".toList ∧ Set.InjOn (Digest.hmac "secret".toUTF8.toList) {f.bytes, g.bytes} ∧
      ¬ g.Accepts "secret" (f.checksum "secret") := by
  intro f g
  have hcolon : ':' ∉ "u1".toList := by decide
  have hapart : Digest.hmac "secret".toUTF8.toList f.bytes ≠
      Digest.hmac "secret".toUTF8.toList g.bytes := by decide +kernel
  have hinj : Set.InjOn (Digest.hmac "secret".toUTF8.toList) {f.bytes, g.bytes} := by
    rw [Set.injOn_pair]
    exact fun heq => absurd heq hapart
  have hbinds := ((checksum_binds.2 f g hcolon hcolon).2 "secret").2 {f.bytes, g.bytes} hinj
    (Set.mem_insert _ _) (Set.mem_insert_of_mem _ rfl)
  exact ⟨hcolon, hinj, fun haccepts => absurd (hbinds.1 haccepts) (by decide)⟩

end Flagging

namespace Usage

variable {ν : Type} [Scalar ν]

omit [Scalar ν] in
/-- What comes of setting a flag in a slot with an attempt: nothing if the flag is set so already, and
otherwise the attempt with its flag set, and one notice. -/
lemma setFlag_of_get? {u : Usage ν} {slot : Nat} {a : Attempt ν} (ha : u.attempts.get? slot = some a)
    (flagged : Bool) :
    setFlag slot flagged u =
      if a.flagged = flagged then ⟨.ok (), u, []⟩
      else ⟨.ok (), u.put slot { a with flagged := flagged } [.attemptModified a.slot],
        [.notice (.attemptModified a.slot)]⟩ := by
  simp only [setFlag, onSlot, ha, Attempt.setFlag, beq_iff_eq]
  split
  · rw [noting_eq, Observer.heard_nil, Event.notices_nil, noted_nil, SortedMap.insert_of_get? ha]
  · rw [noting_eq, Event.notices_heard]
    rfl

/-- A flag changes only with the right checksum.  Without an attempt in the slot the request fails.
Otherwise it answers whether the checksum, with its ASCII letters in lower case, is the one for the
usage, the slot and the person.  If so it does what setting the flag does: the attempt has its flag set,
and if it was not set so before, one notice tells that the attempt was modified.  With any other text
nothing changes. -/
theorem setFlagChecked_spec (u : Usage ν) (slot : Nat) (flagged : Bool)
    (secret actor checksum : String) :
    let right := checksum.toLower = flagChecksum secret u.id.text slot actor
    let r := setFlagChecked slot flagged secret actor checksum u
    (u.attempts.get? slot = none → r = ⟨.error (.unknownSlot slot), u, []⟩) ∧
    ∀ a, u.attempts.get? slot = some a →
      (r.result = .ok true ↔ right) ∧
      (¬ right → r = ⟨.ok false, u, []⟩) ∧
      (right →
        r.state = (setFlag slot flagged u).state ∧ r.events = (setFlag slot flagged u).events ∧
        r.state = (if a.flagged = flagged then u
          else u.put slot { a with flagged := flagged } [.attemptModified a.slot]) ∧
        r.events = if a.flagged = flagged then [] else [.notice (.attemptModified a.slot)]) := by
  intro right r
  refine ⟨fun hnone => ?_, fun a ha => ?_⟩
  · simp only [r, setFlagChecked, hnone]
  by_cases h : right
  · have hr : r = Op.bind (setFlag slot flagged) (fun _ => Op.pure true) u := by
      simp only [r, setFlagChecked, ha, if_pos (verifiesFlag_iff.2 h)]
    rw [hr]
    unfold Op.bind
    rw [setFlag_of_get? ha]
    split <;> simp [h, Op.pure]
  · have hr : r = ⟨.ok false, u, []⟩ := by
      simp only [r, setFlagChecked, ha, if_neg (mt verifiesFlag_iff.1 h)]
    rw [hr]
    simp [h]

end Usage
end Assessment
