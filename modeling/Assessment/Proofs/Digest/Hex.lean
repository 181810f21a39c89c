import Assessment.Digest.Hex
import Mathlib.Tactic.Common

/-!
# Hexadecimal text reads back

A text is read as bytes exactly when, with its ASCII letters in lower case, it is what these bytes are
written as (`Digest.unhex?_eq_some_iff`).  So to compare the bytes that a text says with some given bytes
is to compare the text in lower case with the text of these bytes, for every text whatever: one of odd
length, of another length, or with a character that is no digit is the text of no bytes at all.
-/

namespace Assessment
namespace Digest

/-! ## Digits -/

/-- Among the ASCII characters a digit is one that becomes it in lower case. -/
lemma hexValue?_ofNat : ∀ code < 128, ∀ n < 16,
    (hexValue? (Char.ofNat code) = some n ↔ (Char.ofNat code).toLower = hexDigit n) := by
  decide +kernel

/-- Other characters are no digits and have no other case. -/
lemma hexValue?_of_not_ascii {c : Char} (h : 128 ≤ c.toNat) :
    hexValue? c = none ∧ c.toLower = c := by
  have hbeyond : ∀ last : Char, last.toNat < 128 → ¬ c ≤ last := fun last hlast hle =>
    absurd (Nat.le_trans h (UInt32.le_iff_toNat_le.1 hle)) (Nat.not_le.2 hlast)
  constructor
  · simp only [hexValue?, hbeyond '9' (by decide), hbeyond 'f' (by decide), hbeyond 'F' (by decide),
      and_false, if_false]
  · unfold Char.toLower
    rw [dif_neg]
    exact fun hupper => hbeyond 'Z' (by decide) hupper.2

/-- A digit is read in either case. -/
lemma hexValue?_eq_some_iff {c : Char} {n : Nat} (hn : n < 16) :
    hexValue? c = some n ↔ c.toLower = hexDigit n := by
  obtain hascii | hother := Nat.lt_or_ge c.toNat 128
  · rw [← Char.ofNat_toNat c]
    exact hexValue?_ofNat _ hascii n hn
  · obtain ⟨hnone, hlower⟩ := hexValue?_of_not_ascii hother
    have hdigit : ∀ n < 16, (hexDigit n).toNat < 128 := by decide
    rw [hnone, hlower]
    refine ⟨nofun, ?_⟩
    rintro rfl
    exact absurd (hdigit n hn) (Nat.not_lt.2 hother)

/-- The number of a digit is below sixteen. -/
lemma lt_of_hexValue? {c : Char} {n : Nat} (h : hexValue? c = some n) : n < 16 := by
  obtain hascii | hother := Nat.lt_or_ge c.toNat 128
  · have hall : ∀ code < 128, (hexValue? (Char.ofNat code)).all (· < 16) = true := by decide +kernel
    have hc := hall _ hascii
    rw [Char.ofNat_toNat, h] at hc
    simpa using hc
  · rw [(hexValue?_of_not_ascii hother).1] at h
    cases h

/-! ## Texts -/

/-- Two numbers below sixteen are the halves of the byte that they make. -/
lemma ofNat_eq_iff {b : UInt8} {high low : Nat} (hhigh : high < 16) (hlow : low < 16) :
    UInt8.ofNat (16 * high + low) = b ↔ high = b.toNat / 16 ∧ low = b.toNat % 16 := by
  have hb := b.toNat_lt
  rw [← UInt8.toNat_inj, UInt8.toNat_ofNat']
  omega

/-- Digits are read as bytes exactly when in lower case they are the digits of these bytes. -/
lemma unhexChars?_eq_some_iff {cs : List Char} {bytes : Bytes} :
    unhexChars? cs = some bytes ↔ cs.map Char.toLower = hexChars bytes := by
  induction cs using unhexChars?.induct generalizing bytes with
  | case1 => cases bytes <;> simp [unhexChars?, hexChars, hexOfByte]
  | case2 c => cases bytes <;> simp [unhexChars?, hexChars, hexOfByte]
  | case3 hi lo rest ih =>
    cases bytes with
    | nil => simp [unhexChars?, hexChars, Option.bind_eq_some_iff]
    | cons b bytes =>
      have hb := b.toNat_lt
      have hhigh : b.toNat / 16 < 16 := by omega
      have hlow : b.toNat % 16 < 16 := by omega
      have hchars : hexChars (b :: bytes) =
          hexDigit (b.toNat / 16) :: hexDigit (b.toNat % 16) :: hexChars bytes := rfl
      rw [hchars, List.map_cons, List.map_cons, List.cons.injEq, List.cons.injEq,
        ← hexValue?_eq_some_iff hhigh, ← hexValue?_eq_some_iff hlow, ← ih]
      simp only [unhexChars?, Option.bind_eq_bind, Option.bind_eq_some_iff, Option.pure_def,
        Option.some.injEq, List.cons.injEq]
      constructor
      · rintro ⟨high, hhi, low, hlo, more, hmore, hbyte, rfl⟩
        obtain ⟨rfl, rfl⟩ := (ofNat_eq_iff (lt_of_hexValue? hhi) (lt_of_hexValue? hlo)).1 hbyte
        exact ⟨hhi, hlo, hmore⟩
      · rintro ⟨hhi, hlo, hmore⟩
        exact ⟨_, hhi, _, hlo, _, hmore, (ofNat_eq_iff hhigh hlow).2 ⟨rfl, rfl⟩, rfl⟩

lemma toList_toLower (s : String) : s.toLower.toList = s.toList.map Char.toLower :=
  String.toList_map

/-- A text is read as bytes exactly when in lower case it is the text of these bytes. -/
lemma unhex?_eq_some_iff {s : String} {bytes : Bytes} :
    unhex? s = some bytes ↔ s.toLower = hex bytes := by
  rw [unhex?, unhexChars?_eq_some_iff, ← String.toList_inj, toList_toLower, hex, String.toList_ofList]

/-- The text of bytes is in lower case. -/
lemma toLower_hex (bytes : Bytes) : (hex bytes).toLower = hex bytes := by
  have hdigit : ∀ n < 16, (hexDigit n).toLower = hexDigit n := by decide
  have hchars : (hexChars bytes).map Char.toLower = hexChars bytes := by
    induction bytes with
    | nil => rfl
    | cons b rest ih =>
      have hb := b.toNat_lt
      show (hexDigit (b.toNat / 16)).toLower :: (hexDigit (b.toNat % 16)).toLower ::
        (hexChars rest).map Char.toLower = _
      rw [hdigit _ (by omega), hdigit _ (by omega), ih]
      rfl
  rw [← String.toList_inj, toList_toLower, hex, String.toList_ofList, hchars]

/-- What is written reads back. -/
lemma unhex?_hex (bytes : Bytes) : unhex? (hex bytes) = some bytes :=
  unhex?_eq_some_iff.2 (toLower_hex bytes)

end Digest
end Assessment
