import InstanceState.Toml.Scalar
import InstanceState.Toml.Value

/-!
# Reading TOML

A document is a list of lines: assignments and headers.  Each function takes what it reads from
the front of a text and gives the rest; the functions that call themselves count down a number
that is never smaller than the text that is left.
-/

namespace InstanceState.Toml

/-! ### Blanks, comments and line ends -/

/-- Whether a character separates the parts of a line. -/
def isSpace (c : Char) : Bool := c = ' ' || c = '\t'

/-- Whether a character may stand for itself in a comment or a text. -/
def isPrintable (c : Char) : Bool := c = '\t' || (0x20 ≤ c.toNat && c.toNat ≠ 0x7F)

/-- The text after its leading spaces. -/
def skipSpaces (t : Text) : Text := t.dropWhile isSpace

/-- The text after a line end at its beginning. -/
def afterLineEnd? : Text → Option Text
  | '\n' :: t => some t
  | '\r' :: '\n' :: t => some t
  | _ => none

/-- The text after a comment at its beginning, if there is one. -/
def skipComment : Text → Text
  | '#' :: t => t.dropWhile isPrintable
  | t => t

/-- The text after spaces, a comment and the end of the line or of the text. -/
def endLine? (t : Text) : Option Text :=
  match skipComment (skipSpaces t) with
  | [] => some []
  | rest => afterLineEnd? rest

/-- The text after spaces, comments and line ends. -/
def skipFiller (fuel : Nat) (t : Text) : Text :=
  match fuel with
  | 0 => t
  | fuel + 1 =>
    match skipComment (skipSpaces t) with
    | [] => []
    | rest =>
      match afterLineEnd? rest with
      | some rest => skipFiller fuel rest
      | none => skipSpaces t

/-! ### Texts -/

/-- The value of a hexadecimal digit. -/
def hexValue (c : Char) : Nat :=
  if c.isDigit then c.toNat - 48 else if 'a' ≤ c then c.toNat - 87 else c.toNat - 55

/-- The character whose code the first `count` hexadecimal digits give. -/
def readCode (count : Nat) (t : Text) : Option (Char × Text) :=
  let digits := t.take count
  let code := digits.foldl (fun n c => n * 16 + hexValue c) 0
  if digits.length = count ∧ digits.all isHexDigit ∧ code.isValidChar then
    some (Char.ofNat code, t.drop count)
  else none

/-- The character of an escape, after its backslash. -/
def readEscape : Text → Option (Char × Text)
  | 'b' :: t => some ('\x08', t)
  | 't' :: t => some ('\t', t)
  | 'n' :: t => some ('\n', t)
  | 'f' :: t => some ('\x0c', t)
  | 'r' :: t => some ('\r', t)
  | 'e' :: t => some ('\x1b', t)
  | '"' :: t => some ('"', t)
  | '\\' :: t => some ('\\', t)
  | 'x' :: t => readCode 2 t
  | 'u' :: t => readCode 4 t
  | 'U' :: t => readCode 8 t
  | _ => none

/-- A text of one line in double quotes, after the first quote. -/
def readBasic (fuel : Nat) (t : Text) : Option (Text × Text) :=
  match fuel, t with
  | _ + 1, '"' :: t => some ([], t)
  | fuel + 1, '\\' :: t => do
    let (c, t) ← readEscape t
    let (cs, t) ← readBasic fuel t
    some (c :: cs, t)
  | fuel + 1, c :: t =>
    if isPrintable c then (readBasic fuel t).map fun r => (c :: r.1, r.2) else none
  | _, _ => none

/-- A text of one line in single quotes, after the first quote. -/
def readLiteral : Text → Option (Text × Text)
  | '\'' :: t => some ([], t)
  | c :: t => if isPrintable c then (readLiteral t).map fun r => (c :: r.1, r.2) else none
  | [] => none

/-- The number of quotes at the end of a text of many lines: those that belong to the text, and
what follows the three that close it. -/
def closingQuotes? (quote : Char) (t : Text) : Option (Text × Text) :=
  let quotes := min 5 (t.takeWhile (· = quote)).length
  if quotes < 3 then none else some (t.take (quotes - 3), t.drop quotes)

/-- The text after its leading spaces and line ends. -/
def skipLines (fuel : Nat) (t : Text) : Text :=
  match fuel with
  | 0 => t
  | fuel + 1 =>
    match afterLineEnd? (skipSpaces t) with
    | some rest => skipLines fuel rest
    | none => skipSpaces t

/-- The text after the spaces and line ends that follow a backslash at the end of a line. -/
def afterContinuation? (fuel : Nat) (t : Text) : Option Text :=
  (afterLineEnd? (skipSpaces t)).map (skipLines fuel)

/-- A text of many lines, after its opening quotes.  Its line ends stay as they are, and only a text
in double quotes has escapes. -/
def readLines (quote : Char) (fuel : Nat) (t : Text) : Option (Text × Text) :=
  match fuel with
  | 0 => none
  | fuel + 1 =>
    match closingQuotes? quote t with
    | some closing => some closing
    | none =>
      match t with
      | [] => none
      | '\r' :: '\n' :: rest => (readLines quote fuel rest).map fun r => ('\r' :: '\n' :: r.1, r.2)
      | c :: rest =>
        if c = '\\' ∧ quote = '"' then
          match afterContinuation? fuel rest with
          | some rest => readLines quote fuel rest
          | none => do
            let (c, rest) ← readEscape rest
            let (cs, rest) ← readLines quote fuel rest
            some (c :: cs, rest)
        else if c = '\n' ∨ isPrintable c then
          (readLines quote fuel rest).map fun r => (c :: r.1, r.2)
        else none

/-- A text in quotes of any sort. -/
def readText (fuel : Nat) : Text → Option (Text × Text)
  | '"' :: '"' :: '"' :: t => readLines '"' fuel ((afterLineEnd? t).getD t)
  | '\'' :: '\'' :: '\'' :: t => readLines '\'' fuel ((afterLineEnd? t).getD t)
  | '"' :: t => readBasic fuel t
  | '\'' :: t => readLiteral t
  | _ => none

/-! ### Keys -/

/-- Whether a character may stand in a key without quotes. -/
def isBareKeyChar (c : Char) : Bool := c.isAlphanum || c = '-' || c = '_'

/-- One part of a key. -/
def readKeyPart (fuel : Nat) : Text → Option (Text × Text)
  | '"' :: t => readBasic fuel t
  | '\'' :: t => readLiteral t
  | t =>
    let name := t.takeWhile isBareKeyChar
    if name.isEmpty then none else some (name, t.dropWhile isBareKeyChar)

/-- The parts of a key, with dots and spaces between, and the spaces after them. -/
def readKeyParts (fuel : Nat) (t : Text) : Option (List Text × Text) :=
  match fuel with
  | 0 => none
  | fuel + 1 => do
    let (name, t) ← readKeyPart fuel (skipSpaces t)
    match skipSpaces t with
    | '.' :: t => (readKeyParts fuel t).map fun r => (name :: r.1, r.2)
    | t => some ([name], t)

/-- The number of arrays and inline tables that may be open at once, and of the parts that a key
may have. -/
def deepest : Nat := 80

/-- A key of no more parts than are allowed. -/
def readKey (fuel : Nat) (t : Text) : Option (List Text × Text) :=
  (readKeyParts fuel t).filter fun r => r.1.length ≤ deepest

/-! ### Values -/

/-- Whether a character may stand in a word of a scalar without quotes. -/
def isWordChar (c : Char) : Bool := !"=,[]\x7b\x7d# \t\r\n".toList.contains c

/-- Whether a text begins with spaces and a word that is not a text in quotes. -/
def wordFollows (t : Text) : Bool :=
  (skipSpaces t).head?.any fun c => isWordChar c && c ≠ '"' && c ≠ '\''

/-- The words at the beginning of a text with the spaces between them, and what follows. -/
def readWords : Text → Text × Text
  | [] => ([], [])
  | c :: t =>
    if isWordChar c || (isSpace c && wordFollows t) then
      let (words, rest) := readWords t
      (c :: words, rest)
    else ([], c :: t)

/-- A scalar without quotes. -/
def readPlain (t : Text) : Option (Value × Text) :=
  let (plain, rest) := readWords t
  if plain = ↑"true" then some (.boolean true, rest)
  else if plain = ↑"false" then some (.boolean false, rest)
  else if isInteger plain ∨ isFloat plain then some (.number plain, rest)
  else if isMoment plain then some (.moment plain, rest)
  else none

mutual

/-- A value, in which `room` arrays and inline tables may be open at once. -/
def readValue (fuel room : Nat) (t : Text) : Option (Value × Text) :=
  match fuel with
  | 0 => none
  | fuel + 1 =>
    match room, t with
    | 0, '[' :: _ | 0, '\x7b' :: _ => none
    | room + 1, '[' :: t =>
      (readItems fuel room (skipFiller fuel t)).map fun r => (.array r.1, r.2)
    | room + 1, '\x7b' :: t =>
      (readEntries fuel room [] (skipFiller fuel t)).map fun r => (.table .inlined r.1, r.2)
    | _, '"' :: _ | _, '\'' :: _ => (readText fuel t).map fun r => (.text r.1, r.2)
    | _, _ => readPlain t

/-- The items of an array up to its closing bracket. -/
def readItems (fuel room : Nat) (t : Text) : Option (List Value × Text) :=
  match fuel with
  | 0 => none
  | fuel + 1 =>
    match t with
    | ']' :: t => some ([], t)
    | _ => do
      let (v, t) ← readValue fuel room t
      match skipFiller fuel t with
      | ',' :: t => (readItems fuel room (skipFiller fuel t)).map fun r => (v :: r.1, r.2)
      | ']' :: t => some ([v], t)
      | _ => none

/-- The entries of an inline table up to its closing brace, added to those before. -/
def readEntries (fuel room : Nat) (entries : Table) (t : Text) : Option (Table × Text) :=
  match fuel with
  | 0 => none
  | fuel + 1 =>
    match t with
    | '\x7d' :: t => some (entries, t)
    | _ => do
      let (entries, t) ← readEntry fuel room entries t
      match skipFiller fuel t with
      | ',' :: t => readEntries fuel room entries (skipFiller fuel t)
      | '\x7d' :: t => some (entries, t)
      | _ => none

/-- A key and its value, added to the entries before.  Lines may end on both sides of the equals
sign. -/
def readEntry (fuel room : Nat) (entries : Table) (t : Text) : Option (Table × Text) :=
  match fuel with
  | 0 => none
  | fuel + 1 => do
    let (key, t) ← readKey fuel t
    let t ← Text.after? "=" (skipFiller fuel t)
    let (v, t) ← readValue fuel room (skipFiller fuel t)
    let entries ← entries.assign key.dropLast (key.getLast?.getD []) v
    some (entries, t)

end

/-! ### Documents -/

/-- A header, after its first bracket: the tables that it leaves, and the path of the table to
which the lines after it belong. -/
def readHeader (fuel : Nat) (root : Table) (t : Text) : Option ((Table × List Text) × Text) := do
  let (openLast, closing, t) : (Text → Table → Option Table) × Text × Text :=
    match t with
    | '[' :: t => (Table.openArrayTable, "]]", t)
    | t => (Table.openTable, "]", t)
  let (key, t) ← readKey fuel t
  let t ← Text.after? closing t
  let root ← root.changeAt (openLast (key.getLast?.getD [])) key.dropLast
  some ((root, key), t)

/-- The tables after the remaining lines of a document, of which the first belong to the table of
the given path. -/
def readDocument (fuel : Nat) (root : Table) (path : List Text) (t : Text) : Option Table :=
  match fuel with
  | 0 => none
  | fuel + 1 =>
    match skipFiller fuel t with
    | [] => some root
    | '[' :: t => do
      let ((root, path), t) ← readHeader fuel root t
      readDocument fuel root path (← endLine? t)
    | t => do
      let (key, t) ← readKey fuel t
      let t ← Text.after? "=" t
      let (v, t) ← readValue fuel deepest (skipSpaces t)
      let root ← root.changeAt
        (fun entries => entries.assign key.dropLast (key.getLast?.getD []) v) path
      readDocument fuel root path (← endLine? t)

/-- The table that a document is. -/
def parse (t : Text) : Option Table :=
  let t := (Text.after? "\uFEFF" t).getD t
  readDocument (2 * t.length + 2) [] [] t

end InstanceState.Toml
