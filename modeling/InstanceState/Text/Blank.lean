import InstanceState.Text.Basic

/-!
# Blank characters

The characters with the Unicode property `White_Space`, and the removal of blank
characters from the ends of a text.
-/

namespace InstanceState.Text

/-- The ranges of code points with the property `White_Space`. -/
def blankRanges : List (Nat × Nat) :=
  [(0x09, 0x0D), (0x20, 0x20), (0x85, 0x85), (0xA0, 0xA0), (0x1680, 0x1680),
   (0x2000, 0x200A), (0x2028, 0x2029), (0x202F, 0x202F), (0x205F, 0x205F), (0x3000, 0x3000)]

/-- Whether a character has the property `White_Space`. -/
def isBlank (c : Char) : Bool :=
  blankRanges.any fun range => range.1 ≤ c.toNat && c.toNat ≤ range.2

/-- The text without its leading blank characters. -/
def trimStart (t : Text) : Text := t.dropWhile isBlank

/-- The text without its trailing blank characters. -/
def trimEnd (t : Text) : Text := (t.reverse.dropWhile isBlank).reverse

/-- The text without its leading and trailing blank characters. -/
def trim (t : Text) : Text := trimEnd (trimStart t)

theorem length_dropWhile_le (p : Char → Bool) (t : Text) :
  (t.dropWhile p).length ≤ t.length
  := (List.dropWhile_sublist p).length_le

theorem length_trimStart_le (t : Text) :
  (trimStart t).length ≤ t.length
  := length_dropWhile_le isBlank t

theorem length_trimEnd_le (t : Text) :
  (trimEnd t).length ≤ t.length
  := by
  simpa [trimEnd] using length_dropWhile_le isBlank t.reverse

theorem length_trim_le (t : Text) :
  (trim t).length ≤ t.length
  := Nat.le_trans (length_trimEnd_le _) (length_trimStart_le t)

end InstanceState.Text
