import InstanceState.Json.Reader
import InstanceState.Proofs.Text.Units
import Mathlib.Data.List.Basic
import Mathlib.Data.List.TakeWhile

/-!
# Spellings of JSON values

A value of strings, arrays and objects has many spellings.  A character of a string stands for
itself, or is escaped by a letter or by the numbers of its code units in four hexadecimal digits
each, and blanks may stand between the parts of a value.  The reader gives back the value whatever
spelling it is given, and what is written is a spelling.
-/

namespace InstanceState.Json

/-! ### Characters -/

/-- The hexadecimal digits in the order of their values, with the letters in lower and in upper
case. -/
def hexAlphabets : List Text := ["0123456789abcdef", "0123456789ABCDEF"]

/-- Whether a character is a hexadecimal digit of a value. -/
def IsHexDigit (n : Nat) (d : Char) : Prop := ∃ alphabet ∈ hexAlphabets, alphabet[n]? = some d

/-- The spellings of a code unit by its number. -/
inductive SpellsUnit : Nat → Text → Prop where
  | digits {n₁ n₂ n₃ n₄ : Nat} {d₁ d₂ d₃ d₄ : Char} (h₁ : IsHexDigit n₁ d₁)
      (h₂ : IsHexDigit n₂ d₂) (h₃ : IsHexDigit n₃ d₃) (h₄ : IsHexDigit n₄ d₄) :
    SpellsUnit (n₁ * 0x1000 + n₂ * 0x100 + n₃ * 0x10 + n₄) ['\\', 'u', d₁, d₂, d₃, d₄]

/-- The letters that escape a character after a backslash. -/
def letterEscapes : List (Char × Char) :=
  [('"', '"'), ('\\', '\\'), ('/', '/'), ('b', '\x08'), ('f', '\x0c'), ('n', '\n'), ('r', '\r'),
   ('t', '\t')]

/-- The spellings of a character of a string. -/
inductive SpellsChar : Char → Text → Prop where
  | itself {c : Char} (hcontrol : 0x20 ≤ c.toNat) (hquote : c ≠ '"') (hbackslash : c ≠ '\\') :
    SpellsChar c [c]
  | letter {c l : Char} (h : (l, c) ∈ letterEscapes) :
    SpellsChar c ['\\', l]
  | unit {c : Char} {n : UInt16} {s : Text} (hunits : Utf16.encodeChar c = [n])
      (h : SpellsUnit n.toNat s) :
    SpellsChar c s
  | pair {c : Char} {high low : UInt16} {s s' : Text} (hunits : Utf16.encodeChar c = [high, low])
      (h : SpellsUnit high.toNat s) (h' : SpellsUnit low.toNat s') :
    SpellsChar c (s ++ s')

/-- The spellings of a text between quotes. -/
inductive SpellsText : Text → Text → Prop where
  | nil : SpellsText [] []
  | cons {c : Char} {t s s' : Text} (h : SpellsChar c s) (h' : SpellsText t s') :
    SpellsText (c :: t) (s ++ s')

/-! ### Values -/

/-- Blanks, of which there may be none. -/
def AreBlanks (s : Text) : Prop := ∀ c ∈ s, c ∈ [' ', '\t', '\n', '\r']

/-- What a part of a spelling stands for: a value, the items of an array with its closing bracket,
or the entries of an object with its closing brace. -/
inductive Phrase where
  | value (v : Value)
  | items (vs : List Value)
  | entries (es : List (Option Text × Value))

/-- The spellings of values that are made of strings, arrays and objects. -/
inductive Spells : Phrase → Text → Prop where
  | string {t s : Text} (h : SpellsText t s) :
    Spells (.value (.ofText t)) ('"' :: (s ++ ['"']))
  | emptyArray {b : Text} (hb : AreBlanks b) :
    Spells (.value (.array [])) ('[' :: (b ++ [']']))
  | array {vs : List Value} {b s : Text} (hb : AreBlanks b) (h : Spells (.items vs) s) :
    Spells (.value (.array vs)) ('[' :: (b ++ s))
  | emptyObject {b : Text} (hb : AreBlanks b) :
    Spells (.value (.object [])) ('\x7b' :: (b ++ ['\x7d']))
  | object {es : List (Option Text × Value)} {b s : Text} (hb : AreBlanks b)
      (h : Spells (.entries es) s) :
    Spells (.value (.object es)) ('\x7b' :: (b ++ s))
  | lastItem {v : Value} {s b : Text} (h : Spells (.value v) s) (hb : AreBlanks b) :
    Spells (.items [v]) (s ++ (b ++ [']']))
  | item {v : Value} {vs : List Value} {s b b' s' : Text} (h : Spells (.value v) s)
      (hb : AreBlanks b) (hb' : AreBlanks b') (h' : Spells (.items vs) s') :
    Spells (.items (v :: vs)) (s ++ (b ++ ',' :: (b' ++ s')))
  | lastEntry {key w : Text} {v : Value} {s b b' b'' : Text} (hkey : SpellsText key w)
      (hb : AreBlanks b) (hb' : AreBlanks b') (h : Spells (.value v) s) (hb'' : AreBlanks b'') :
    Spells (.entries [(some key, v)])
      ('"' :: (w ++ '"' :: (b ++ ':' :: (b' ++ (s ++ (b'' ++ ['\x7d']))))))
  | entry {key w : Text} {v : Value} {es : List (Option Text × Value)} {s s' b b' b'' b₃ : Text}
      (hkey : SpellsText key w) (hb : AreBlanks b) (hb' : AreBlanks b') (h : Spells (.value v) s)
      (hb'' : AreBlanks b'') (hb₃ : AreBlanks b₃) (h' : Spells (.entries es) s') :
    Spells (.entries ((some key, v) :: es))
      ('"' :: (w ++ '"' :: (b ++ ':' :: (b' ++ (s ++ (b'' ++ ',' :: (b₃ ++ s')))))))

/-- The documents of a value: its spellings with blanks around them. -/
def IsDocument (v : Value) (t : Text) : Prop :=
  ∃ b s b' : Text, t = b ++ s ++ b' ∧ AreBlanks b ∧ Spells (.value v) s ∧ AreBlanks b'

/-! ### Strings are read back -/

theorem hexValue?_of_isHexDigit {n : Nat} {d : Char} (h : IsHexDigit n d) :
  hexValue? d = some n
  := by
  have hvalues : ∀ alphabet ∈ hexAlphabets, ∀ m : Fin 16,
      alphabet[m.val]?.bind hexValue? = some m.val := by
    decide
  have hlengths : ∀ alphabet ∈ hexAlphabets, alphabet.length = 16 := by
    decide
  obtain ⟨alphabet, halphabet, hd⟩ := h
  obtain ⟨hn, -⟩ := List.getElem?_eq_some_iff.1 hd
  rw [hlengths alphabet halphabet] at hn
  have hvalue := hvalues alphabet halphabet ⟨n, hn⟩
  rw [hd] at hvalue
  exact hvalue

theorem codeUnit?_of_isHexDigit {n₁ n₂ n₃ n₄ : Nat} {d₁ d₂ d₃ d₄ : Char} (h₁ : IsHexDigit n₁ d₁)
    (h₂ : IsHexDigit n₂ d₂) (h₃ : IsHexDigit n₃ d₃) (h₄ : IsHexDigit n₄ d₄) :
  codeUnit? d₁ d₂ d₃ d₄ = some (n₁ * 0x1000 + n₂ * 0x100 + n₃ * 0x10 + n₄)
  := by
  have hvalue : ((n₁ * 16 + n₂) * 16 + n₃) * 16 + n₄
      = n₁ * 0x1000 + n₂ * 0x100 + n₃ * 0x10 + n₄ := by
    omega
  rw [codeUnit?, hexValue?_of_isHexDigit h₁, hexValue?_of_isHexDigit h₂,
    hexValue?_of_isHexDigit h₃, hexValue?_of_isHexDigit h₄, ← hvalue]
  rfl

/-- A code unit that is spelled by its number is read as one part. -/
theorem readStringItems_of_spellsUnit {n : Nat} {s : Text} (h : SpellsUnit n s) (rest : Text) :
  readStringItems (s ++ rest) = (readStringItems rest).map fun r => (.unit n :: r.1, r.2)
  := by
  cases h with
  | digits h₁ h₂ h₃ h₄ =>
    simp only [List.cons_append, List.nil_append]
    rw [readStringItems, codeUnit?_of_isHexDigit h₁ h₂ h₃ h₄]

/-- A code unit that is no surrogate is a character. -/
theorem textOfItems_unit {c : Char} (h : c.toNat < 0x10000) (more : List StringItem) :
  textOfItems (.unit c.toNat :: more) = (textOfItems more).map (c :: ·)
  := by
  have hc : c.toNat < 0xD800 ∨ 0xDFFF < c.toNat ∧ c.toNat < 0x110000 := c.valid
  have hhigh : ¬ isHighSurrogate c.toNat = true := by
    rw [isHighSurrogate, Bool.and_eq_true, decide_eq_true_eq, decide_eq_true_eq]
    omega
  have hlow : ¬ isLowSurrogate c.toNat = true := by
    rw [isLowSurrogate, Bool.and_eq_true, decide_eq_true_eq, decide_eq_true_eq]
    omega
  rw [textOfItems.eq_def]
  simp only [if_neg hhigh, if_neg hlow, Char.ofNat_toNat]

/-- Two code units of a pair are one character. -/
theorem textOfItems_pair {c : Char} (h : 0x10000 ≤ c.toNat) (more : List StringItem) :
  textOfItems (.unit (0xD800 + (c.toNat - 0x10000) / 0x400)
      :: .unit (0xDC00 + (c.toNat - 0x10000) % 0x400) :: more)
    = (textOfItems more).map (c :: ·)
  := by
  have hc : c.toNat < 0xD800 ∨ 0xDFFF < c.toNat ∧ c.toNat < 0x110000 := c.valid
  have hhigh : isHighSurrogate (0xD800 + (c.toNat - 0x10000) / 0x400) = true := by
    rw [isHighSurrogate, Bool.and_eq_true, decide_eq_true_eq, decide_eq_true_eq]
    omega
  have hlow : isLowSurrogate (0xDC00 + (c.toNat - 0x10000) % 0x400) = true := by
    rw [isLowSurrogate, Bool.and_eq_true, decide_eq_true_eq, decide_eq_true_eq]
    omega
  have hcode : 0x10000 + (0xD800 + (c.toNat - 0x10000) / 0x400 - 0xD800) * 0x400
      + (0xDC00 + (c.toNat - 0x10000) % 0x400 - 0xDC00) = c.toNat := by
    omega
  rw [textOfItems, if_pos hhigh, if_pos hlow, pairedChar, hcode, Char.ofNat_toNat]

theorem readStringItems_of_itself {c : Char} (hcontrol : 0x20 ≤ c.toNat) (hquote : c ≠ '"')
    (hbackslash : c ≠ '\\') (rest : Text) :
  readStringItems (c :: rest) = (readStringItems rest).map fun r => (.char c :: r.1, r.2)
  := by
  rw [readStringItems, if_neg (Nat.not_lt.2 hcontrol)]
  · exact hquote
  · intro _ _ _ _ _ h
    exact absurd h hbackslash
  · intro _ _ h
    exact absurd h hbackslash

theorem readStringItems_of_letter {c l : Char} (h : (l, c) ∈ letterEscapes) (rest : Text) :
  readStringItems ('\\' :: l :: rest)
    = (readStringItems rest).map fun r => (.char c :: r.1, r.2)
  := by
  simp only [letterEscapes, List.mem_cons, Prod.mk.injEq, List.not_mem_nil, or_false] at h
  rcases h with h | h | h | h | h | h | h | h <;> obtain ⟨rfl, rfl⟩ := h <;> rfl

/-- The parts that a spelled character is read as denote the character. -/
theorem exists_items_of_spellsChar {c : Char} {s : Text} (h : SpellsChar c s) :
  ∃ items : List StringItem,
    (∀ rest, readStringItems (s ++ rest)
      = (readStringItems rest).map fun r => (items ++ r.1, r.2))
      ∧ ∀ more, textOfItems (items ++ more) = (textOfItems more).map (c :: ·)
  := by
  cases h with
  | itself hcontrol hquote hbackslash =>
    use [.char c], readStringItems_of_itself hcontrol hquote hbackslash
    exact fun _ => rfl
  | letter h =>
    use [.char c], readStringItems_of_letter h
    exact fun _ => rfl
  | @unit n _ hunits h =>
    obtain ⟨hsmall, hn⟩ := Utf16.unit_of_encodeChar hunits
    use [.unit n.toNat], readStringItems_of_spellsUnit h
    rw [hn]
    exact textOfItems_unit hsmall
  | @pair high low s s' hunits h h' =>
    obtain ⟨hlarge, hhigh, hlow⟩ := Utf16.pair_of_encodeChar hunits
    use [.unit high.toNat, .unit low.toNat]
    constructor
    · intro rest
      rw [List.append_assoc, readStringItems_of_spellsUnit h, readStringItems_of_spellsUnit h',
        Option.map_map]
      rfl
    · rw [hhigh, hlow]
      exact textOfItems_pair hlarge

/-- A spelled text is read back, up to the quote after it. -/
theorem readString_of_spellsText {t s : Text} (h : SpellsText t s) (rest : Text) :
  readString (s ++ '"' :: rest) = some (some t, rest)
  := by
  have hitems : ∃ items, readStringItems (s ++ '"' :: rest) = some (items, rest)
      ∧ textOfItems items = some t := by
    induction h with
    | nil => exact ⟨[], rfl, rfl⟩
    | cons hc _ ih =>
      obtain ⟨items, hread, htext⟩ := ih
      obtain ⟨front, hfront, hchar⟩ := exists_items_of_spellsChar hc
      use front ++ items
      rw [List.append_assoc, hfront, hread, hchar, htext]
      exact ⟨rfl, rfl⟩
  obtain ⟨items, hread, htext⟩ := hitems
  rw [readString, hread, Option.map_some, htext]

/-! ### Values are read back -/

theorem areBlanks_nil :
  AreBlanks []
  := by
  intro c hc
  contradiction

theorem isBlank_of_areBlanks {b : Text} (hb : AreBlanks b) :
  ∀ c ∈ b, isBlank c = true
  := by
  intro c hc
  have hblank := hb c hc
  simp only [List.mem_cons, List.not_mem_nil, or_false] at hblank
  rcases hblank with rfl | rfl | rfl | rfl <;> rfl

/-- Blanks are skipped up to a character that is none. -/
theorem skipBlanks_append_cons {b : Text} (hb : AreBlanks b) {c : Char} (hc : isBlank c = false)
    (t : Text) :
  skipBlanks (b ++ c :: t) = c :: t
  := by
  rw [skipBlanks, List.dropWhile_append_of_pos (isBlank_of_areBlanks hb),
    List.dropWhile_cons_of_neg (Bool.eq_false_iff.1 hc)]

section Reading

variable {fuel : Nat} {t t' rest b b' : Text} {v : Value}

/-- A character with which a value of the spelled kinds begins. -/
def begins (c : Char) : Bool := c = '"' || c = '[' || c = '\x7b'

theorem skipBlanks_append_of_begins (hb : AreBlanks b) {c : Char} (hc : begins c = true) :
  skipBlanks (b ++ c :: t) = c :: t
  := by
  apply skipBlanks_append_cons hb
  simp only [begins, Bool.or_eq_true, decide_eq_true_eq] at hc
  rcases hc with (rfl | rfl) | rfl <;> rfl

theorem readValue_string (hb : AreBlanks b) {s : Text} (h : SpellsText t s) :
  readValue (fuel + 1) (b ++ '"' :: (s ++ '"' :: rest)) = some (.ofText t, rest)
  := by
  rw [readValue, skipBlanks_append_cons hb rfl]
  simp only
  rw [readString_of_spellsText h]
  rfl

theorem readValue_emptyArray (hb : AreBlanks b) (hb' : AreBlanks b') :
  readValue (fuel + 1) (b ++ '[' :: (b' ++ ']' :: rest)) = some (.array [], rest)
  := by
  rw [readValue, skipBlanks_append_cons hb rfl]
  simp only
  rw [skipBlanks_append_cons hb' rfl]
  rfl

theorem readValue_array (hb : AreBlanks b) (hb' : AreBlanks b') {c : Char} (hc : begins c = true)
    {vs : List Value} (h : readItems fuel (c :: t) = some (vs, rest)) :
  readValue (fuel + 1) (b ++ '[' :: (b' ++ c :: t)) = some (.array vs, rest)
  := by
  rw [readValue, skipBlanks_append_cons hb rfl]
  simp only
  rw [skipBlanks_append_of_begins hb' hc]
  simp only [begins, Bool.or_eq_true, decide_eq_true_eq] at hc
  rcases hc with (rfl | rfl) | rfl
  all_goals exact congrArg (Option.map fun r => (Value.array r.1, r.2)) h

theorem readValue_emptyObject (hb : AreBlanks b) (hb' : AreBlanks b') :
  readValue (fuel + 1) (b ++ '\x7b' :: (b' ++ '\x7d' :: rest)) = some (.object [], rest)
  := by
  rw [readValue, skipBlanks_append_cons hb rfl]
  simp only
  rw [skipBlanks_append_cons hb' rfl]
  rfl

theorem readValue_object (hb : AreBlanks b) (hb' : AreBlanks b') {c : Char} (hc : begins c = true)
    {es : List (Option Text × Value)} (h : readEntries fuel (c :: t) = some (es, rest)) :
  readValue (fuel + 1) (b ++ '\x7b' :: (b' ++ c :: t)) = some (.object es, rest)
  := by
  rw [readValue, skipBlanks_append_cons hb rfl]
  simp only
  rw [skipBlanks_append_of_begins hb' hc]
  simp only [begins, Bool.or_eq_true, decide_eq_true_eq] at hc
  rcases hc with (rfl | rfl) | rfl
  all_goals exact congrArg (Option.map fun r => (Value.object r.1, r.2)) h

theorem readItems_last (hb : AreBlanks b) (h : readValue fuel t = some (v, b ++ ']' :: rest)) :
  readItems (fuel + 1) t = some ([v], rest)
  := by
  rw [readItems, h]
  simp only
  rw [skipBlanks_append_cons hb rfl]
  rfl

theorem readItems_cons (hb : AreBlanks b) (h : readValue fuel t = some (v, b ++ ',' :: t'))
    {vs : List Value} (h' : readItems fuel t' = some (vs, rest)) :
  readItems (fuel + 1) t = some (v :: vs, rest)
  := by
  rw [readItems, h]
  simp only
  rw [skipBlanks_append_cons hb rfl]
  simp only
  rw [h', Option.map_some]

theorem readEntries_last {b'' : Text} (hb : AreBlanks b) (hb' : AreBlanks b') (hb'' : AreBlanks b'')
    {key w : Text} (hkey : SpellsText key w)
    (h : readValue fuel t = some (v, b'' ++ '\x7d' :: rest)) :
  readEntries (fuel + 1) (b ++ '"' :: (w ++ '"' :: (b' ++ ':' :: t))) = some ([(some key, v)], rest)
  := by
  rw [readEntries, skipBlanks_append_cons hb rfl]
  simp only
  rw [readString_of_spellsText hkey]
  simp only
  rw [skipBlanks_append_cons hb' rfl]
  simp only
  rw [h]
  simp only
  rw [skipBlanks_append_cons hb'' rfl]
  rfl

theorem readEntries_cons {b'' : Text} (hb : AreBlanks b) (hb' : AreBlanks b') (hb'' : AreBlanks b'')
    {key w : Text} (hkey : SpellsText key w) (h : readValue fuel t = some (v, b'' ++ ',' :: t'))
    {es : List (Option Text × Value)} (h' : readEntries fuel t' = some (es, rest)) :
  readEntries (fuel + 1) (b ++ '"' :: (w ++ '"' :: (b' ++ ':' :: t)))
    = some ((some key, v) :: es, rest)
  := by
  rw [readEntries, skipBlanks_append_cons hb rfl]
  simp only
  rw [readString_of_spellsText hkey]
  simp only
  rw [skipBlanks_append_cons hb' rfl]
  simp only
  rw [h]
  simp only
  rw [skipBlanks_append_cons hb'' rfl]
  simp only
  rw [h', Option.map_some]

end Reading

/-- What a spelling begins with. -/
theorem Spells.exists_eq_cons {p : Phrase} {s : Text} (h : Spells p s) :
  ∃ c t, begins c = true ∧ s = c :: t
  := by
  induction h with
  | lastItem _ _ ih =>
    obtain ⟨c, t, hc, rfl⟩ := ih
    exact ⟨c, _, hc, rfl⟩
  | item _ _ _ _ ih _ =>
    obtain ⟨c, t, hc, rfl⟩ := ih
    exact ⟨c, _, hc, rfl⟩
  | string => exact ⟨_, _, rfl, rfl⟩
  | emptyArray => exact ⟨_, _, rfl, rfl⟩
  | array => exact ⟨_, _, rfl, rfl⟩
  | emptyObject => exact ⟨_, _, rfl, rfl⟩
  | object => exact ⟨_, _, rfl, rfl⟩
  | lastEntry => exact ⟨_, _, rfl, rfl⟩
  | entry => exact ⟨_, _, rfl, rfl⟩

/-- Whether the reader takes a phrase from the front of a text and leaves the rest. -/
def Phrase.IsRead (fuel : Nat) (t rest : Text) : Phrase → Prop
  | value v => readValue fuel t = some (v, rest)
  | items vs => readItems fuel t = some (vs, rest)
  | entries es => readEntries fuel t = some (es, rest)

/-- Whatever spelling of a phrase stands after blanks at the front of a text, the reader takes it
and leaves the rest.  Each character of the spelling is worth one call. -/
theorem Spells.isRead {p : Phrase} {s : Text} (h : Spells p s) {b : Text} (hb : AreBlanks b)
    {fuel : Nat} (hfuel : s.length < fuel) (rest : Text) :
  p.IsRead fuel (b ++ (s ++ rest)) rest
  := by
  induction h generalizing fuel rest b
  all_goals
    obtain ⟨fuel, rfl⟩ := Nat.exists_eq_add_one_of_ne_zero (Nat.ne_zero_of_lt hfuel)
    simp only [List.cons_append, List.append_assoc, List.nil_append, List.length_cons,
      List.length_append] at hfuel ⊢
  case string ht => exact readValue_string hb ht
  case emptyArray hb' => exact readValue_emptyArray hb hb'
  case array hb' h ih =>
    have hread := @ih [] areBlanks_nil fuel (by omega) rest
    obtain ⟨c, t, hc, rfl⟩ := h.exists_eq_cons
    exact readValue_array hb hb' hc hread
  case emptyObject hb' => exact readValue_emptyObject hb hb'
  case object hb' h ih =>
    have hread := @ih [] areBlanks_nil fuel (by omega) rest
    obtain ⟨c, t, hc, rfl⟩ := h.exists_eq_cons
    exact readValue_object hb hb' hc hread
  case lastItem h hb' ih => exact readItems_last hb' (ih hb (by omega) _)
  case item h hb' hb'' h' ih ih' =>
    exact readItems_cons hb' (ih hb (by omega) _) (ih' hb'' (by omega) _)
  case lastEntry hkey hb₁ hb₂ h hb₃ ih =>
    exact readEntries_last hb hb₁ hb₃ hkey (ih hb₂ (by omega) _)
  case entry hkey hb₁ hb₂ h hb₃ hb₄ h' ih ih' =>
    exact readEntries_cons hb hb₁ hb₃ hkey (ih hb₂ (by omega) _) (ih' hb₄ (by omega) _)

/-- Whatever document of a value is parsed, it gives the value. -/
theorem parse_of_isDocument {v : Value} {t : Text} (h : IsDocument v t) :
  parse t = some v
  := by
  obtain ⟨b, s, b', rfl, hb, hs, hb'⟩ := h
  have hfuel : s.length < 2 * (b ++ s ++ b').length + 1 := by
    rw [List.length_append, List.length_append]
    omega
  have hread : readValue (2 * (b ++ s ++ b').length + 1) (b ++ (s ++ b')) = some (v, b') :=
    hs.isRead hb hfuel b'
  have hrest : skipBlanks b' = [] := List.dropWhile_eq_nil_iff.2 (isBlank_of_areBlanks hb')
  rw [← List.append_assoc] at hread
  rw [parse, hread]
  simp only [hrest, List.isEmpty_nil, if_true]

/-! ### What is written is a spelling -/

theorem isHexDigit_hexDigit {n : Nat} (h : n < 0x10) :
  IsHexDigit n (Literal.hexDigit n)
  := by
  have hdigits : ∀ m : Fin 0x10,
      ("0123456789abcdef" : Text)[m.val]? = some (Literal.hexDigit m.val) := by
    decide
  exact ⟨_, List.mem_cons_self, hdigits ⟨n, h⟩⟩

theorem spellsUnit_hexDigits₄ {n : Nat} (h : n < 0x10000) :
  SpellsUnit n ('\\' :: 'u' :: Literal.hexDigits₄ n)
  := by
  have hn : n / 0x1000 % 0x10 * 0x1000 + n / 0x100 % 0x10 * 0x100 + n / 0x10 % 0x10 * 0x10
      + n % 0x10 = n := by
    omega
  have hdigits := SpellsUnit.digits
    (isHexDigit_hexDigit (Nat.mod_lt (n / 0x1000) (by decide)))
    (isHexDigit_hexDigit (Nat.mod_lt (n / 0x100) (by decide)))
    (isHexDigit_hexDigit (Nat.mod_lt (n / 0x10) (by decide)))
    (isHexDigit_hexDigit (Nat.mod_lt n (by decide)))
  rw [hn] at hdigits
  exact hdigits

theorem spellsChar_escape (c : Char) :
  SpellsChar c (escape c)
  := by
  unfold escape
  split_ifs with hquote hbackslash hb ht hn hf hr hcontrol
  · exact .letter (by simp [letterEscapes, hquote])
  · exact .letter (by simp [letterEscapes, hbackslash])
  · exact .letter (by simp [letterEscapes, hb])
  · exact .letter (by simp [letterEscapes, ht])
  · exact .letter (by simp [letterEscapes, hn])
  · exact .letter (by simp [letterEscapes, hf])
  · exact .letter (by simp [letterEscapes, hr])
  · have hsmall : c.toNat < 0x10000 := Nat.lt_trans hcontrol (by decide)
    apply SpellsChar.unit (Utf16.encodeChar_of_lt hsmall)
    rw [Utf16.toNat_toUInt16 hsmall]
    exact spellsUnit_hexDigits₄ hsmall
  · exact .itself (Nat.not_lt.1 hcontrol) hquote hbackslash

theorem spellsText_flatMap_escape (t : Text) :
  SpellsText t (t.flatMap escape)
  := by
  induction t with
  | nil => exact .nil
  | cons c t ih =>
    rw [List.flatMap_cons]
    exact .cons (spellsChar_escape c) ih

theorem spells_write_ofText (t : Text) :
  Spells (.value (.ofText t)) (Value.ofText t).write
  := by
  rw [Value.ofText, Value.write]
  exact .string (spellsText_flatMap_escape t)

theorem spells_writeItems {v : Value} {vs : List Value}
    (h : ∀ w ∈ v :: vs, Spells (.value w) w.write) :
  Spells (.items (v :: vs)) (writeItems (v :: vs))
  := by
  induction vs generalizing v with
  | nil =>
    rw [writeItems]
    exact .lastItem (h v List.mem_cons_self) areBlanks_nil
  | cons w vs ih =>
    rw [writeItems]
    exact .item (h v List.mem_cons_self) areBlanks_nil areBlanks_nil
      (ih fun u hu => h u (List.mem_cons_of_mem v hu))

theorem spells_write_array {vs : List Value} (h : ∀ v ∈ vs, Spells (.value v) v.write) :
  Spells (.value (.array vs)) (Value.array vs).write
  := by
  rw [Value.write]
  cases vs with
  | nil =>
    rw [writeItems]
    exact .emptyArray areBlanks_nil
  | cons v vs => exact .array areBlanks_nil (spells_writeItems h)

theorem spells_writeEntries {f : Text × Value} {fs : List (Text × Value)}
    (h : ∀ f' ∈ f :: fs, Spells (.value f'.2) f'.2.write) :
  Spells (.entries ((f :: fs).map fun f' => (some f'.1, f'.2)))
    (writeEntries ((f :: fs).map fun f' => (some f'.1, f'.2)))
  := by
  have hkey := spellsText_flatMap_escape f.1
  have hvalue := h f List.mem_cons_self
  induction fs generalizing f with
  | nil =>
    have hentry := Spells.lastEntry hkey areBlanks_nil areBlanks_nil hvalue areBlanks_nil
    simpa only [List.map_cons, List.map_nil, writeEntries, writeString, quote, Option.getD_some,
      List.append_assoc, List.cons_append, List.nil_append] using hentry
  | cons f' fs ih =>
    have hrest := ih (fun u hu => h u (List.mem_cons_of_mem f hu))
      (spellsText_flatMap_escape f'.1) (h f' (List.mem_cons_of_mem f List.mem_cons_self))
    have hentry := Spells.entry hkey areBlanks_nil areBlanks_nil hvalue areBlanks_nil
      areBlanks_nil hrest
    simpa only [List.map_cons, writeEntries, writeString, quote, Option.getD_some,
      List.append_assoc, List.cons_append, List.nil_append] using hentry

theorem spells_write_ofFields {fs : List (Text × Value)}
    (h : ∀ f ∈ fs, Spells (.value f.2) f.2.write) :
  Spells (.value (.ofFields fs)) (Value.ofFields fs).write
  := by
  rw [Value.ofFields, Value.write]
  cases fs with
  | nil =>
    rw [List.map_nil, writeEntries]
    exact .emptyObject areBlanks_nil
  | cons f fs => exact .object areBlanks_nil (spells_writeEntries h)

end InstanceState.Json
