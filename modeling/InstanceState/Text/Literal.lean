import InstanceState.Text.Basic

/-!
# Java string literals

The Java string literal of a text.  A quote, a backslash and the three control characters with
an escape of their own are escaped by a letter, and each other control character by its code in
four hexadecimal digits; every other character stands for itself.
-/

namespace InstanceState.Literal

/-- The lower-case hexadecimal digit of a number below sixteen. -/
def hexDigit (n : Nat) : Char :=
  if n < 10 then Char.ofNat (0x30 + n) else Char.ofNat (0x57 + n)

/-- The four lowest hexadecimal digits of a number, highest first. -/
def hexDigits₄ (n : Nat) : Text :=
  [hexDigit (n / 0x1000 % 0x10), hexDigit (n / 0x100 % 0x10), hexDigit (n / 0x10 % 0x10),
   hexDigit (n % 0x10)]

/-- Whether a character is of the general category `Cc`. -/
def isControl (c : Char) : Bool :=
  c.toNat < 0x20 || (0x7F ≤ c.toNat && c.toNat < 0xA0)

/-- The characters that stand for `c` between the quotes of a literal. -/
def escape (c : Char) : Text :=
  if c = '"' then ['\\', '"']
  else if c = '\\' then ['\\', '\\']
  else if c = '\n' then ['\\', 'n']
  else if c = '\r' then ['\\', 'r']
  else if c = '\t' then ['\\', 't']
  else if isControl c then '\\' :: 'u' :: hexDigits₄ c.toNat
  else [c]

/-- The literal of a text. -/
def quote (t : Text) : Text := '"' :: (t.flatMap escape ++ ['"'])

end InstanceState.Literal
