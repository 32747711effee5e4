import InstanceState.Text.Utf8
import Mathlib.Tactic.SplitIfs
/-!
# Octets of texts

Reading the octets of a text gives the text back, and texts are ordered by code points as their
octets are ordered.
-/

namespace InstanceState.Utf8

/-! ### Octets as numbers -/

theorem toNat_toUInt8 {n : Nat} (h : n < 0x100) :
  n.toUInt8.toNat = n
  := by
  rw [Nat.toUInt8, UInt8.toNat_ofNat']
  omega

theorem width?_eq (b : UInt8) :
  width? b =
    if b.toNat < 0x80 then some 1
    else if b.toNat < 0xC2 then none
    else if b.toNat < 0xE0 then some 2
    else if b.toNat < 0xF0 then some 3
    else if b.toNat < 0xF5 then some 4
    else none
  := by
  simp only [width?, UInt8.lt_iff_toNat_lt]
  rfl

theorem isTail_iff (b : UInt8) :
  isTail b = true ↔ 0x80 ≤ b.toNat ∧ b.toNat ≤ 0xBF
  := by
  simp [isTail, UInt8.le_iff_toNat_le]

theorem isSecond_iff (a b : UInt8) :
  isSecond a b = true ↔ 0x80 ≤ b.toNat ∧ b.toNat ≤ 0xBF ∧ (a.toNat = 0xE0 → 0xA0 ≤ b.toNat)
    ∧ (a.toNat = 0xED → b.toNat ≤ 0x9F) ∧ (a.toNat = 0xF0 → 0x90 ≤ b.toNat)
    ∧ (a.toNat = 0xF4 → b.toNat ≤ 0x8F)
  := by
  simp only [isSecond, secondRange, ← UInt8.toNat_inj]
  split_ifs <;> simp_all [UInt8.le_iff_toNat_le] <;> omega

theorem payload_eq {n : Nat} (h : n < 0x40) :
  payload (0x80 + n).toUInt8 = n
  := by
  rw [payload, toNat_toUInt8 (by omega)]
  omega

/-! ### Segments of encoded characters -/

theorem segments_one {a : UInt8} (ha : width? a = some 1) (rest : List UInt8) :
  segments (a :: rest) = .scalar (Char.ofNat a.toNat) :: segments rest
  := by
  rw [segments, ha]
  rfl

theorem segments_two {a b : UInt8} (ha : width? a = some 2) (hb : isSecond a b = true)
    (rest : List UInt8) :
  segments (a :: b :: rest) = .scalar (char₂ a b) :: segments rest
  := by
  rw [segments, ha]
  simp [hb]

theorem segments_three {a b c : UInt8} (ha : width? a = some 3) (hb : isSecond a b = true)
    (hc : isTail c = true) (rest : List UInt8) :
  segments (a :: b :: c :: rest) = .scalar (char₃ a b c) :: segments rest
  := by
  rw [segments, ha]
  simp [hb, hc]

theorem segments_four {a b c d : UInt8} (ha : width? a = some 4) (hb : isSecond a b = true)
    (hc : isTail c = true) (hd : isTail d = true) (rest : List UInt8) :
  segments (a :: b :: c :: d :: rest) = .scalar (char₄ a b c d) :: segments rest
  := by
  rw [segments, ha]
  simp [hb, hc, hd]

theorem isTail_toUInt8 (n : Nat) :
  isTail (0x80 + n % 0x40).toUInt8 = true
  := by
  rw [isTail_iff, toNat_toUInt8 (by omega)]
  omega

/-- The octets of a character are read as that character, whatever follows them. -/
theorem segments_encodeChar_append (c : Char) (rest : List UInt8) :
  segments (encodeChar c ++ rest) = .scalar c :: segments rest
  := by
  have hc : c.toNat < 0xD800 ∨ 0xDFFF < c.toNat ∧ c.toNat < 0x110000 := c.valid
  have hself := Char.ofNat_toNat c
  simp only [encodeChar]
  generalize c.toNat = n at hc hself
  split_ifs with h₁ h₂ h₃
  · have hlead : n.toUInt8.toNat = n := toNat_toUInt8 (by omega)
    have hwidth : width? n.toUInt8 = some 1 := by
      rw [width?_eq, hlead, if_pos h₁]
    apply (segments_one hwidth rest).trans
    rw [hlead, hself]
  · have hlead : (0xC0 + n / 0x40).toUInt8.toNat = 0xC0 + n / 0x40 := toNat_toUInt8 (by omega)
    have hwidth : width? (0xC0 + n / 0x40).toUInt8 = some 2 := by
      rw [width?_eq, hlead, if_neg (by omega), if_neg (by omega), if_pos (by omega)]
    have hsecond : isSecond (0xC0 + n / 0x40).toUInt8 (0x80 + n % 0x40).toUInt8 = true := by
      rw [isSecond_iff, hlead, toNat_toUInt8 (by omega)]
      omega
    apply (segments_two hwidth hsecond rest).trans
    rw [char₂, hlead, payload_eq (by omega), ← hself]
    congr 3
    omega
  · have hlead : (0xE0 + n / 0x1000).toUInt8.toNat = 0xE0 + n / 0x1000 :=
      toNat_toUInt8 (by omega)
    have hwidth : width? (0xE0 + n / 0x1000).toUInt8 = some 3 := by
      rw [width?_eq, hlead, if_neg (by omega), if_neg (by omega), if_neg (by omega),
        if_pos (by omega)]
    have hsecond :
        isSecond (0xE0 + n / 0x1000).toUInt8 (0x80 + n / 0x40 % 0x40).toUInt8 = true := by
      rw [isSecond_iff, hlead, toNat_toUInt8 (by omega)]
      omega
    apply (segments_three hwidth hsecond (isTail_toUInt8 n) rest).trans
    rw [char₃, hlead, payload_eq (by omega), payload_eq (by omega), ← hself]
    congr 3
    omega
  · have hlead : (0xF0 + n / 0x40000).toUInt8.toNat = 0xF0 + n / 0x40000 :=
      toNat_toUInt8 (by omega)
    have hwidth : width? (0xF0 + n / 0x40000).toUInt8 = some 4 := by
      rw [width?_eq, hlead, if_neg (by omega), if_neg (by omega), if_neg (by omega),
        if_neg (by omega), if_pos (by omega)]
    have hsecond :
        isSecond (0xF0 + n / 0x40000).toUInt8 (0x80 + n / 0x1000 % 0x40).toUInt8 = true := by
      rw [isSecond_iff, hlead, toNat_toUInt8 (by omega)]
      omega
    apply (segments_four hwidth hsecond (isTail_toUInt8 _) (isTail_toUInt8 n) rest).trans
    rw [char₄, hlead, payload_eq (by omega), payload_eq (by omega), payload_eq (by omega),
      ← hself]
    congr 3
    omega

/-- The segments of the octets of a text are its characters. -/
theorem segments_encode (t : Text) :
  segments (encode t) = t.map .scalar
  := by
  induction t with
  | nil => simp [encode, segments]
  | cons c t ih =>
    rw [encode, List.flatMap_cons, segments_encodeChar_append, ← encode, ih]
    rfl

theorem textOf_map_scalar (start : Nat) (t : Text) :
  textOf start (t.map .scalar) = .ok t
  := by
  induction t generalizing start with
  | nil => rfl
  | cons c t ih =>
    rw [List.map_cons, textOf, ih]
    rfl

/-- The octets of a text are read back as the text. -/
theorem decode_encode (t : Text) :
  decode (encode t) = .ok t
  := by
  rw [decode, segments_encode, textOf_map_scalar]

theorem encodeChar_ne_nil (c : Char) :
  encodeChar c ≠ []
  := by
  simp only [encodeChar]
  split_ifs <;> exact List.cons_ne_nil _ _

theorem encode_append (s t : Text) :
  encode (s ++ t) = encode s ++ encode t
  := List.flatMap_append

theorem encode_flatten (ts : List Text) :
  encode ts.flatten = (ts.map encode).flatten
  := by
  induction ts with
  | nil => rfl
  | cons t ts ih =>
    rw [List.flatten_cons, encode_append, ih]
    rfl

/-! ### Order -/

/-- A smaller character has smaller octets, whatever follows the two. -/
theorem encodeChar_append_lt {c d : Char} (h : c < d) (s t : List UInt8) :
  encodeChar c ++ s < encodeChar d ++ t
  := by
  have hcd : c.toNat < d.toNat := h
  have hd : d.toNat < 0x110000 := by
    have : d.toNat < 0xD800 ∨ 0xDFFF < d.toNat ∧ d.toNat < 0x110000 := d.valid
    omega
  simp only [encodeChar]
  generalize c.toNat = m at hcd
  generalize d.toNat = n at hcd hd
  split_ifs
  all_goals
    simp only [List.cons_append, List.nil_append, List.cons_lt_cons_iff, UInt8.lt_iff_toNat_lt,
      ← UInt8.toNat_inj]
    simp (disch := omega) only [toNat_toUInt8]
    omega

theorem encode_lt {s t : Text} (h : s < t) :
  encode s < encode t
  := by
  induction h with
  | @nil c t =>
    rw [encode, encode, List.flatMap_nil, List.flatMap_cons]
    have := encodeChar_ne_nil c
    cases hc : encodeChar c with
    | nil => contradiction
    | cons b bs => exact .nil
  | @cons c s t _ ih =>
    rw [encode, encode, List.flatMap_cons, List.flatMap_cons]
    exact List.append_left_lt ih
  | @rel c s d t h =>
    rw [encode, encode, List.flatMap_cons, List.flatMap_cons]
    apply encodeChar_append_lt h

/-- Texts are ordered as their octets are. -/
theorem encode_lt_iff {s t : Text} :
  encode s < encode t ↔ s < t
  := by
  constructor
  · intro h
    apply Classical.byContradiction
    intro hst
    rcases List.le_iff_lt_or_eq.1 (List.not_lt.1 hst) with hts | rfl
    · exact List.lt_asymm h (encode_lt hts)
    · exact List.lt_irrefl _ h
  · exact encode_lt

end InstanceState.Utf8
