import InstanceState.Json.Value

/-!
# Reading JSON

A strict reader: one value, with nothing but blanks around it.  Each function takes what it reads
from the front of a text and gives the rest; the functions that call themselves on values count
down a number that is never smaller than the text that is left.
-/

namespace InstanceState.Json

/-- Whether a character may stand between the parts of a value. -/
def isBlank (c : Char) : Bool := c = ' ' || c = '\t' || c = '\n' || c = '\r'

/-- The text without its leading blanks. -/
def skipBlanks (t : Text) : Text := t.dropWhile isBlank

/-! ### Strings -/

/-- The value of a hexadecimal digit. -/
def hexValue? (c : Char) : Option Nat :=
  if c.isDigit then some (c.toNat - 0x30)
  else if 'a' ≤ c ∧ c ≤ 'f' then some (c.toNat - 0x57)
  else if 'A' ≤ c ∧ c ≤ 'F' then some (c.toNat - 0x37)
  else none

/-- The number of four hexadecimal digits. -/
def codeUnit? (a b c d : Char) : Option Nat := do
  return (((← hexValue? a) * 16 + (← hexValue? b)) * 16 + (← hexValue? c)) * 16 + (← hexValue? d)

/-- Whether a code unit begins a surrogate pair. -/
def isHighSurrogate (n : Nat) : Bool := 0xD800 ≤ n && n < 0xDC00

/-- Whether a code unit ends a surrogate pair. -/
def isLowSurrogate (n : Nat) : Bool := 0xDC00 ≤ n && n < 0xE000

/-- The character of a surrogate pair. -/
def pairedChar (high low : Nat) : Char :=
  Char.ofNat (0x10000 + (high - 0xD800) * 0x400 + (low - 0xDC00))

/-- The character of an escape of one letter. -/
def letterEscape? : Char → Option Char
  | '"' => some '"'
  | '\\' => some '\\'
  | '/' => some '/'
  | 'b' => some '\x08'
  | 'f' => some '\x0c'
  | 'n' => some '\n'
  | 'r' => some '\r'
  | 't' => some '\t'
  | _ => none

/-- A part of a written string. -/
inductive StringItem where
  | char (c : Char)
  /-- A code unit that is escaped by its number. -/
  | unit (n : Nat)
deriving DecidableEq, Repr

/-- The parts of a string, after its opening quote. -/
def readStringItems : Text → Option (List StringItem × Text)
  | [] => none
  | '"' :: t => some ([], t)
  | '\\' :: 'u' :: a :: b :: c :: d :: t =>
    match codeUnit? a b c d with
    | none => none
    | some n => (readStringItems t).map fun r => (.unit n :: r.1, r.2)
  | '\\' :: c :: t =>
    match letterEscape? c with
    | none => none
    | some e => (readStringItems t).map fun r => (.char e :: r.1, r.2)
  | c :: t =>
    if c.toNat < 0x20 then none
    else (readStringItems t).map fun r => (.char c :: r.1, r.2)

/-- The text of the parts of a string, unless half of a surrogate pair is among them. -/
def textOfItems : List StringItem → Option Text
  | [] => some []
  | .char c :: rest => (textOfItems rest).map (c :: ·)
  | .unit n :: rest =>
    if isHighSurrogate n then
      match rest with
      | .unit low :: rest =>
        if isLowSurrogate low then (textOfItems rest).map (pairedChar n low :: ·) else none
      | _ => none
    else if isLowSurrogate n then none
    else (textOfItems rest).map (Char.ofNat n :: ·)

/-- A string, after its opening quote. -/
def readString (t : Text) : Option (Option Text × Text) :=
  (readStringItems t).map fun r => (textOfItems r.1, r.2)

/-! ### Numbers -/

/-- The digits at the front of a text, of which there must be one. -/
def readDigits (t : Text) : Option (Text × Text) :=
  let digits := t.takeWhile Char.isDigit
  if digits.isEmpty then none else some (digits, t.dropWhile Char.isDigit)

/-- The digits before the point of a number; a zero stands alone. -/
def readWhole : Text → Option (Text × Text)
  | '0' :: t => some (['0'], t)
  | t => readDigits t

/-- The point and the digits after it, if there is a point. -/
def readFraction : Text → Option (Text × Text)
  | '.' :: t => (readDigits t).map fun r => ('.' :: r.1, r.2)
  | t => some ([], t)

/-- The exponent of a number, if there is one. -/
def readExponent : Text → Option (Text × Text)
  | e :: s :: t =>
    if e = 'e' ∨ e = 'E' then
      if s = '+' ∨ s = '-' then (readDigits t).map fun r => (e :: s :: r.1, r.2)
      else (readDigits (s :: t)).map fun r => (e :: r.1, r.2)
    else some ([], e :: s :: t)
  | [e] => if e = 'e' ∨ e = 'E' then none else some ([], [e])
  | [] => some ([], [])

/-- A number without sign. -/
def readUnsigned (t : Text) : Option (Text × Text) := do
  let (whole, t) ← readWhole t
  let (fraction, t) ← readFraction t
  let (exponent, t) ← readExponent t
  return (whole ++ fraction ++ exponent, t)

/-- A number. -/
def readNumber : Text → Option (Text × Text)
  | '-' :: t => (readUnsigned t).map fun r => ('-' :: r.1, r.2)
  | t => readUnsigned t

/-! ### Values -/

mutual

/-- A value, with the blanks before it. -/
def readValue (fuel : Nat) (t : Text) : Option (Value × Text) :=
  match fuel with
  | 0 => none
  | fuel + 1 =>
    match skipBlanks t with
    | 'n' :: 'u' :: 'l' :: 'l' :: t => some (.null, t)
    | 't' :: 'r' :: 'u' :: 'e' :: t => some (.boolean true, t)
    | 'f' :: 'a' :: 'l' :: 's' :: 'e' :: t => some (.boolean false, t)
    | '"' :: t => (readString t).map fun r => (.string r.1, r.2)
    | '[' :: t =>
      match skipBlanks t with
      | ']' :: t => some (.array [], t)
      | t => (readItems fuel t).map fun r => (.array r.1, r.2)
    | '\x7b' :: t =>
      match skipBlanks t with
      | '\x7d' :: t => some (.object [], t)
      | t => (readEntries fuel t).map fun r => (.object r.1, r.2)
    | t => (readNumber t).map fun r => (.number r.1, r.2)

/-- The items of an array, of which there is at least one, and its closing bracket. -/
def readItems (fuel : Nat) (t : Text) : Option (List Value × Text) :=
  match fuel with
  | 0 => none
  | fuel + 1 =>
    match readValue fuel t with
    | none => none
    | some (v, t) =>
      match skipBlanks t with
      | ',' :: t => (readItems fuel t).map fun r => (v :: r.1, r.2)
      | ']' :: t => some ([v], t)
      | _ => none

/-- The entries of an object, of which there is at least one, and its closing brace. -/
def readEntries (fuel : Nat) (t : Text) : Option (List (Option Text × Value) × Text) :=
  match fuel with
  | 0 => none
  | fuel + 1 =>
    match skipBlanks t with
    | '"' :: t =>
      match readString t with
      | none => none
      | some (key, t) =>
        match skipBlanks t with
        | ':' :: t =>
          match readValue fuel t with
          | none => none
          | some (v, t) =>
            match skipBlanks t with
            | ',' :: t => (readEntries fuel t).map fun r => ((key, v) :: r.1, r.2)
            | '\x7d' :: t => some ([(key, v)], t)
            | _ => none
        | _ => none
    | _ => none

end

/-- The value that a text is. -/
def parse (t : Text) : Option Value :=
  match readValue (2 * t.length + 1) t with
  | some (v, rest) => if (skipBlanks rest).isEmpty then some v else none
  | none => none

end InstanceState.Json
