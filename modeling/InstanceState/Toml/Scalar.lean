import InstanceState.Text.Basic

/-!
# TOML scalars

The written forms of numbers, dates and times.
-/

namespace InstanceState.Toml

/-- Whether a text consists of groups of the given digits with single underscores between. -/
def isDigits (isDigit : Char → Bool) (t : Text) : Bool :=
  (Text.pieces '_' t).all fun group => !group.isEmpty && group.all isDigit

/-- A text without its sign. -/
def unsigned : Text → Text
  | '+' :: t => t
  | '-' :: t => t
  | t => t

/-- Whether a text is a decimal number without sign and without superfluous zeros. -/
def isDecimal (t : Text) : Bool :=
  isDigits Char.isDigit t && (t = ['0'] || t.head? ≠ some '0')

/-- Whether a character is a hexadecimal digit. -/
def isHexDigit (c : Char) : Bool :=
  c.isDigit || ('a' ≤ c && c ≤ 'f') || ('A' ≤ c && c ≤ 'F')

/-- Whether a text can follow the sign of a radix; the digits may be missing altogether. -/
def isRadixPart (isDigit : Char → Bool) (t : Text) : Bool := t.isEmpty || isDigits isDigit t

/-- Whether every underscore of a text stands between two hexadecimal digits. -/
def isGrouped (t : Text) : Bool :=
  let groups := Text.pieces '_' t
  groups.dropLast.all (fun group => group.getLast?.any isHexDigit) &&
    groups.tail.all (fun group => group.head?.any isHexDigit)

/-- Whether a text begins like a whole decimal number in groups and goes on without a mark of a
fraction or an exponent.  Nothing asks for the value of a number, so it may go on with anything that
leaves its underscores in place. -/
def isGroupedNumber (t : Text) : Bool :=
  t.head? ≠ some '0' && (t.dropWhile Char.isDigit).head? = some '_' &&
    !t.any (" .eE".toList.contains ·) && isGrouped t

/-- Whether a text is an integer. -/
def isInteger : Text → Bool
  | '0' :: 'x' :: t => isRadixPart isHexDigit t
  | '0' :: 'o' :: t => isRadixPart (fun c => '0' ≤ c && c ≤ '7') t
  | '0' :: 'b' :: t => isRadixPart (fun c => c = '0' || c = '1') t
  | t => isDecimal (unsigned t) || isGroupedNumber (unsigned t)

/-- Whether a text is a decimal number, with a fraction if `fraction` requires one. -/
def isMantissa (fraction : Bool) (t : Text) : Bool :=
  match Text.cutFirst? '.' t with
  | some (whole, part) => isDecimal whole && isDigits Char.isDigit part
  | none => !fraction && isDecimal t

/-- Whether a text is a floating-point number. -/
def isFloat (t : Text) : Bool :=
  let t := unsigned t
  if t = ↑"inf" ∨ t = ↑"nan" then true
  else
    match Text.cutFirst? 'e' (Text.substitute 'E' 'e' t) with
    | some (mantissa, exponent) =>
      isMantissa false mantissa && isDigits Char.isDigit (unsigned exponent)
    | none => isMantissa true t

/-! ### Dates and times -/

/-- The number that the first `count` characters write in decimal digits, and what follows. -/
def number? (count : Nat) (t : Text) : Option (Nat × Text) :=
  let digits := t.take count
  if digits.length = count ∧ digits.all Char.isDigit then
    some (digits.foldl (fun n c => n * 10 + (c.toNat - 48)) 0, t.drop count)
  else none

/-- What follows a number of two digits that lies within the bounds. -/
def twoDigits? (least greatest : Nat) (t : Text) : Option Text := do
  let (n, rest) ← number? 2 t
  if least ≤ n ∧ n ≤ greatest then some rest else none

/-- Whether a year has a leap day. -/
def isLeapYear (year : Nat) : Bool := year % 4 = 0 && (year % 100 ≠ 0 || year % 400 = 0)

/-- The number of days of a month. -/
def daysOfMonth (year : Nat) : Nat → Nat
  | 2 => if isLeapYear year then 29 else 28
  | 4 | 6 | 9 | 11 => 30
  | _ => 31

/-- What follows a date of the calendar. -/
def afterDate? (t : Text) : Option Text := do
  let (year, rest) ← number? 4 t
  let (month, rest) ← number? 2 (← Text.after? "-" rest)
  let rest ← Text.after? "-" rest
  if 1 ≤ month ∧ month ≤ 12 then twoDigits? 1 (daysOfMonth year month) rest else none

/-- What follows a time of day; the seconds may be missing. -/
def afterTime? (t : Text) : Option Text := do
  let rest ← Text.after? ":" (← twoDigits? 0 23 t)
  let rest ← twoDigits? 0 59 rest
  match rest with
  | ':' :: seconds =>
    match ← twoDigits? 0 60 seconds with
    | '.' :: fraction =>
      if fraction.head?.any Char.isDigit then some (fraction.dropWhile Char.isDigit) else none
    | rest => some rest
  | _ => some rest

/-- Whether a text is the offset of a time zone, or empty. -/
def isOffset : Text → Bool
  | [] | ['Z'] | ['z'] => true
  | '+' :: t | '-' :: t =>
    match do twoDigits? 0 59 (← Text.after? ":" (← twoDigits? 0 23 t)) with
    | some rest => rest.isEmpty
    | none => false
  | _ => false

/-- Whether a text is a date, a time of day or both. -/
def isMoment (t : Text) : Bool :=
  match afterDate? t with
  | some [] => true
  | some (c :: time) =>
    (c = 'T' || c = 't' || c = ' ') && (afterTime? time).any isOffset
  | none => (afterTime? t).any List.isEmpty

end InstanceState.Toml
