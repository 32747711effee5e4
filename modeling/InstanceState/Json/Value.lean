import InstanceState.Text.Literal

/-!
# JSON values

The values of JSON texts, and their compact written form.  A string that escapes half of a
surrogate pair denotes no text, and may only stand where no text is asked for.
-/

namespace InstanceState.Json

/-- A JSON value. -/
inductive Value where
  | null
  | boolean (b : Bool)
  /-- A number, as it is written. -/
  | number (lexeme : Text)
  /-- A string; `none` if it denotes no text. -/
  | string (t : Option Text)
  | array (items : List Value)
  | object (entries : List (Option Text × Value))

/-- The string of a text. -/
def Value.ofText (t : Text) : Value := .string (some t)

/-- The object of named values. -/
def Value.ofFields (fields : List (Text × Value)) : Value :=
  .object (fields.map fun f => (some f.1, f.2))

/-! ### Writing -/

/-- The characters that stand for `c` in a written string. -/
def escape (c : Char) : Text :=
  if c = '"' then ['\\', '"']
  else if c = '\\' then ['\\', '\\']
  else if c = '\x08' then ['\\', 'b']
  else if c = '\t' then ['\\', 't']
  else if c = '\n' then ['\\', 'n']
  else if c = '\x0c' then ['\\', 'f']
  else if c = '\r' then ['\\', 'r']
  else if c.toNat < 0x20 then '\\' :: 'u' :: Literal.hexDigits₄ c.toNat
  else [c]

/-- The written string of a text. -/
def quote (t : Text) : Text := '"' :: (t.flatMap escape ++ ['"'])

/-- The written form of a string, which is empty for one that denotes no text. -/
def writeString (t : Option Text) : Text := quote (t.getD [])

mutual

/-- The compact written form of a value. -/
def Value.write : Value → Text
  | .null => "null"
  | .boolean true => "true"
  | .boolean false => "false"
  | .number lexeme => lexeme
  | .string t => writeString t
  | .array items => '[' :: writeItems items
  | .object entries => '\x7b' :: writeEntries entries

/-- The written items of an array, with its closing bracket. -/
def writeItems : List Value → Text
  | [] => [']']
  | [v] => v.write ++ [']']
  | v :: w :: rest => v.write ++ ',' :: writeItems (w :: rest)

/-- The written entries of an object, with its closing brace. -/
def writeEntries : List (Option Text × Value) → Text
  | [] => ['\x7d']
  | [(key, v)] => writeString key ++ ':' :: v.write ++ ['\x7d']
  | (key, v) :: e :: rest => writeString key ++ ':' :: v.write ++ ',' :: writeEntries (e :: rest)

end

end InstanceState.Json
