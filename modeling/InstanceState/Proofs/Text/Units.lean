import InstanceState.Text.Basic
import Mathlib.Logic.Function.Defs

/-!
# UTF-16

The code units of a text, of which the strings of the generated language are made.  A character is
one unit or a pair of surrogates, and no character is itself a surrogate, so the units of a text
determine the text.
-/

namespace InstanceState

/-- A string of UTF-16 code units. -/
abbrev Units : Type := List UInt16

namespace Utf16

/-- The units of one character. -/
def encodeChar (c : Char) : Units :=
  if c.toNat < 0x10000 then [c.toNat.toUInt16]
  else
    [(0xD800 + (c.toNat - 0x10000) / 0x400).toUInt16,
     (0xDC00 + (c.toNat - 0x10000) % 0x400).toUInt16]

/-- The units of a text. -/
def encode (t : Text) : Units := t.flatMap encodeChar

theorem toNat_toUInt16 {n : Nat} (h : n < 0x10000) :
  n.toUInt16.toNat = n
  := by
  rw [Nat.toUInt16, UInt16.toNat_ofNat']
  omega

theorem encode_cons (c : Char) (t : Text) :
  encode (c :: t) = encodeChar c ++ encode t
  := List.flatMap_cons

theorem encode_append (s t : Text) :
  encode (s ++ t) = encode s ++ encode t
  := List.flatMap_append

theorem encodeChar_ne_nil (c : Char) :
  encodeChar c ≠ []
  := by
  rw [encodeChar]
  split
  · apply List.cons_ne_nil
  · apply List.cons_ne_nil

theorem encodeChar_of_lt {c : Char} (h : c.toNat < 0x10000) :
  encodeChar c = [c.toNat.toUInt16]
  := if_pos h

theorem encodeChar_of_le {c : Char} (h : 0x10000 ≤ c.toNat) :
  encodeChar c
    = [(0xD800 + (c.toNat - 0x10000) / 0x400).toUInt16,
       (0xDC00 + (c.toNat - 0x10000) % 0x400).toUInt16]
  := if_neg (Nat.not_lt.2 h)

theorem unit_of_encodeChar {c : Char} {n : UInt16} (h : encodeChar c = [n]) :
  c.toNat < 0x10000 ∧ n.toNat = c.toNat
  := by
  rcases Nat.lt_or_ge c.toNat 0x10000 with hlt | hge
  · rw [encodeChar_of_lt hlt] at h
    rw [← (List.cons.inj h).1, toNat_toUInt16 hlt]
    exact ⟨hlt, rfl⟩
  · rw [encodeChar_of_le hge] at h
    cases h

theorem pair_of_encodeChar {c : Char} {high low : UInt16} (h : encodeChar c = [high, low]) :
  0x10000 ≤ c.toNat
    ∧ high.toNat = 0xD800 + (c.toNat - 0x10000) / 0x400
    ∧ low.toNat = 0xDC00 + (c.toNat - 0x10000) % 0x400
  := by
  have hc : c.toNat < 0xD800 ∨ 0xDFFF < c.toNat ∧ c.toNat < 0x110000 := c.valid
  rcases Nat.lt_or_ge c.toNat 0x10000 with hlt | hge
  · rw [encodeChar_of_lt hlt] at h
    cases h
  · rw [encodeChar_of_le hge] at h
    obtain ⟨hhigh, hrest⟩ := List.cons.inj h
    rw [← hhigh, ← (List.cons.inj hrest).1, toNat_toUInt16 (by omega), toNat_toUInt16 (by omega)]
    exact ⟨hge, rfl, rfl⟩

/-- The units of a character are read off whatever begins with them. -/
theorem encodeChar_append_inj {c d : Char} {s t : Units}
    (h : encodeChar c ++ s = encodeChar d ++ t) :
  c = d ∧ s = t
  := by
  have hc : c.toNat < 0xD800 ∨ 0xDFFF < c.toNat ∧ c.toNat < 0x110000 := c.valid
  have hd : d.toNat < 0xD800 ∨ 0xDFFF < d.toNat ∧ d.toNat < 0x110000 := d.valid
  rw [← Char.toNat_inj]
  rcases Nat.lt_or_ge c.toNat 0x10000 with hm | hm
  · rw [encodeChar_of_lt hm] at h
    rcases Nat.lt_or_ge d.toNat 0x10000 with hn | hn
    · rw [encodeChar_of_lt hn] at h
      obtain ⟨hunit, hrest⟩ := List.cons.inj h
      have hcode := congrArg UInt16.toNat hunit
      rw [toNat_toUInt16 hm, toNat_toUInt16 hn] at hcode
      exact ⟨hcode, hrest⟩
    · rw [encodeChar_of_le hn] at h
      have hcode := congrArg UInt16.toNat (List.cons.inj h).1
      rw [toNat_toUInt16 hm, toNat_toUInt16 (by omega)] at hcode
      omega
  · rw [encodeChar_of_le hm] at h
    rcases Nat.lt_or_ge d.toNat 0x10000 with hn | hn
    · rw [encodeChar_of_lt hn] at h
      have hcode := congrArg UInt16.toNat (List.cons.inj h).1
      rw [toNat_toUInt16 hn, toNat_toUInt16 (by omega)] at hcode
      omega
    · rw [encodeChar_of_le hn] at h
      obtain ⟨hfirst, hrest⟩ := List.cons.inj h
      obtain ⟨hsecond, hrest⟩ := List.cons.inj hrest
      have hhigh := congrArg UInt16.toNat hfirst
      have hlow := congrArg UInt16.toNat hsecond
      rw [toNat_toUInt16 (by omega), toNat_toUInt16 (by omega)] at hhigh hlow
      exact ⟨by omega, hrest⟩

/-- Texts of the same units are the same. -/
theorem encode_injective :
  Function.Injective encode
  := by
  intro s t h
  induction s generalizing t with
  | nil =>
    cases t with
    | nil => rfl
    | cons d t =>
      rw [encode_cons] at h
      exact absurd (List.append_eq_nil_iff.1 h.symm).1 (encodeChar_ne_nil d)
  | cons c s ih =>
    cases t with
    | nil =>
      rw [encode_cons] at h
      exact absurd (List.append_eq_nil_iff.1 h).1 (encodeChar_ne_nil c)
    | cons d t =>
      rw [encode_cons, encode_cons] at h
      obtain ⟨rfl, hrest⟩ := encodeChar_append_inj h
      rw [ih hrest]

end Utf16

end InstanceState
