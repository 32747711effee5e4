import InstanceState.Proofs.Text.Units
import InstanceState.Text.Literal
import Mathlib.Data.List.Basic

/-!
# Reading string literals

How the generated language reads a string literal.  First the source text is translated into code
units: a backslash with an even number of backslashes right before it, letters `u` and four
hexadecimal digits make up one unit.  Only then the units are read as a literal, with the escapes
between its quotes.  Both phases read one symbol at a time.  The literal of a text is read as the
units of the text.
-/

namespace InstanceState.Literal

/-! ### Reading symbols one at a time -/

section Transduce

variable {σ α β : Type} {step : σ → α → Option (σ × List β)}

/-- The state after the symbols and what they were read as, unless one of them is refused. -/
def transduce (step : σ → α → Option (σ × List β)) : σ → List α → Option (σ × List β)
  | q, [] => some (q, [])
  | q, a :: rest =>
    (step q a).bind fun read =>
      (transduce step read.1 rest).map fun later => (later.1, read.2 ++ later.2)

theorem transduce_nil (q : σ) :
  transduce step q [] = some (q, [])
  := rfl

theorem transduce_cons {q q' q'' : σ} {a : α} {rest : List α} {out out' : List β}
    (h : step q a = some (q', out)) (h' : transduce step q' rest = some (q'', out')) :
  transduce step q (a :: rest) = some (q'', out ++ out')
  := by
  rw [transduce, h, Option.bind_some, h', Option.map_some]

theorem transduce_append {q q' q'' : σ} {before after : List α} {out out' : List β}
    (h : transduce step q before = some (q', out))
    (h' : transduce step q' after = some (q'', out')) :
  transduce step q (before ++ after) = some (q'', out ++ out')
  := by
  induction before generalizing q out with
  | nil =>
    cases h
    exact h'
  | cons a before ih =>
    rw [transduce, Option.bind_eq_some_iff] at h
    obtain ⟨read, hstep, h⟩ := h
    rw [Option.map_eq_some_iff] at h
    obtain ⟨later, hlater, h⟩ := h
    cases h
    rw [List.cons_append, transduce_cons hstep (ih hlater), List.append_assoc]

/-- Pieces that each lead from a state back to it are read one after the other. -/
theorem transduce_flatMap {γ : Type} {q : σ} {piece : γ → List α} {out : γ → List β}
    (h : ∀ x, transduce step q (piece x) = some (q, out x)) (xs : List γ) :
  transduce step q (xs.flatMap piece) = some (q, xs.flatMap out)
  := by
  induction xs with
  | nil => rfl
  | cons x xs ih =>
    rw [List.flatMap_cons, List.flatMap_cons]
    apply transduce_append (h x) ih

end Transduce

/-! ### Translation to code units -/

/-- Where the translation of a source text stands. -/
inductive Translation where
  | plain
  /-- After a backslash that may begin a unit given by its code. -/
  | backslash
  /-- After such a backslash and letters `u`. -/
  | marked
  /-- After some of the four digits, with the number that they give. -/
  | digits (count value : Nat)
deriving DecidableEq, Repr

/-- The value of a hexadecimal digit. -/
def hexValue? (c : Char) : Option Nat :=
  if '0' ≤ c ∧ c ≤ '9' then some (c.toNat - 0x30)
  else if 'a' ≤ c ∧ c ≤ 'f' then some (c.toNat - 0x57)
  else if 'A' ≤ c ∧ c ≤ 'F' then some (c.toNat - 0x37)
  else none

namespace Translation

/-- The translation of one more character.  Of two backslashes in a row the second begins no
unit. -/
def step : Translation → Char → Option (Translation × Units)
  | plain, c => if c = '\\' then some (backslash, []) else some (plain, Utf16.encodeChar c)
  | backslash, c =>
    if c = 'u' then some (marked, [])
    else some (plain, Utf16.encodeChar '\\' ++ Utf16.encodeChar c)
  | marked, c =>
    if c = 'u' then some (marked, []) else (hexValue? c).map fun d => (digits 1 d, [])
  | digits count value, c =>
    (hexValue? c).map fun d =>
      if count = 3 then (plain, [(0x10 * value + d).toUInt16])
      else (digits (count + 1) (0x10 * value + d), [])

/-- The units that are still due at the end of the text. -/
def rest? : Translation → Option Units
  | plain => some []
  | backslash => some (Utf16.encodeChar '\\')
  | _ => none

end Translation

/-- The code units of a source text, unless a unit is begun and not given by four digits. -/
def translate? (source : Text) : Option Units :=
  (transduce Translation.step .plain source).bind fun read =>
    read.1.rest?.map fun rest => read.2 ++ rest

/-! ### Reading between the quotes -/

/-- Where the reading of a literal stands. -/
inductive Reading where
  | before
  | inside
  | escaped
  /-- In an escape by an octal number, after some digits and before at most `left` more. -/
  | octal (value left : Nat)
  | closed
deriving DecidableEq, Repr

/-- What a letter stands for after a backslash. -/
def escapeValue? (u : UInt16) : Option UInt16 :=
  [(0x62, 0x08), (0x74, 0x09), (0x6E, 0x0A), (0x66, 0x0C), (0x72, 0x0D), (0x73, 0x20),
   (0x22, 0x22), (0x27, 0x27), (0x5C, 0x5C)].lookup u

/-- The value of an octal digit. -/
def octalValue? (u : UInt16) : Option Nat :=
  if 0x30 ≤ u ∧ u ≤ 0x37 then some (u.toNat - 0x30) else none

namespace Reading

/-- The reading of one more unit between the quotes, outside of escapes.  No line ends there. -/
def insideStep (u : UInt16) : Option (Reading × Units) :=
  if u = 0x22 then some (closed, [])
  else if u = 0x5C then some (escaped, [])
  else if u = 0x0A ∨ u = 0x0D then none
  else some (inside, [u])

/-- The reading of one more unit.  An octal number has two digits, or three if the first is at
most 3. -/
def step : Reading → UInt16 → Option (Reading × Units)
  | before, u => if u = 0x22 then some (inside, []) else none
  | inside, u => insideStep u
  | escaped, u =>
    match escapeValue? u with
    | some v => some (inside, [v])
    | none => (octalValue? u).map fun d => (octal d (if d ≤ 3 then 2 else 1), [])
  | octal value left, u =>
    match octalValue? u, left with
    | some d, left + 1 => some (octal (8 * value + d) left, [])
    | _, _ => (insideStep u).map fun read => (read.1, value.toUInt16 :: read.2)
  | closed, _ => none

end Reading

/-- The string that a literal denotes, if the source text is exactly one literal. -/
def value? (source : Text) : Option Units :=
  (translate? source).bind fun units =>
    (transduce Reading.step .before units).bind fun read =>
      if read.1 = .closed then some read.2 else none

/-! ### Escaped characters -/

/-- Whether a character is written by its code. -/
def byCode (c : Char) : Bool :=
  isControl c && !(c = '\n' || c = '\r' || c = '\t')

/-- The units between the quotes that a character is translated to. -/
def translated (c : Char) : Units :=
  if byCode c then Utf16.encodeChar c else Utf16.encode (escape c)

theorem hexValue?_hexDigit :
  ∀ n < 0x10, hexValue? (hexDigit n) = some n ∧ hexDigit n ≠ 'u'
  := by
  decide

namespace Translation

theorem step_marked {c : Char} {d : Nat} (hu : c ≠ 'u') (h : hexValue? c = some d) :
  step marked c = some (digits 1 d, [])
  := by
  rw [step, if_neg hu, h]
  rfl

theorem step_digits {c : Char} {d count : Nat} (value : Nat) (hcount : count ≠ 3)
    (h : hexValue? c = some d) :
  step (digits count value) c = some (digits (count + 1) (0x10 * value + d), [])
  := by
  rw [step, h, Option.map_some, if_neg hcount]

theorem step_digits_last {c : Char} {d : Nat} (value : Nat) (h : hexValue? c = some d) :
  step (digits 3 value) c = some (plain, [(0x10 * value + d).toUInt16])
  := by
  rw [step, h, Option.map_some, if_pos rfl]

end Translation

theorem translate_hexDigits {n : Nat} (h : n < 0x10000) :
  transduce Translation.step .marked (hexDigits₄ n) = some (.plain, [n.toUInt16])
  := by
  obtain ⟨h₁, hu⟩ := hexValue?_hexDigit (n / 0x1000 % 0x10) (Nat.mod_lt _ (by decide))
  obtain ⟨h₂, -⟩ := hexValue?_hexDigit (n / 0x100 % 0x10) (Nat.mod_lt _ (by decide))
  obtain ⟨h₃, -⟩ := hexValue?_hexDigit (n / 0x10 % 0x10) (Nat.mod_lt _ (by decide))
  obtain ⟨h₄, -⟩ := hexValue?_hexDigit (n % 0x10) (Nat.mod_lt _ (by decide))
  have hread := transduce_cons (Translation.step_marked hu h₁)
    (transduce_cons (Translation.step_digits _ (by decide) h₂)
      (transduce_cons (Translation.step_digits _ (by decide) h₃)
        (transduce_cons (Translation.step_digits_last _ h₄) (transduce_nil _))))
  have hn : 0x10 * (0x10 * (0x10 * (n / 0x1000 % 0x10) + n / 0x100 % 0x10) + n / 0x10 % 0x10)
      + n % 0x10 = n := by
    omega
  rw [hn] at hread
  exact hread

theorem byCode_lt {c : Char} (h : byCode c = true) :
  c.toNat < 0x10000
  := by
  simp only [byCode, isControl, Bool.and_eq_true, Bool.or_eq_true, decide_eq_true_eq] at h
  omega

theorem escape_of_byCode {c : Char} (h : byCode c = true) :
  escape c = '\\' :: 'u' :: hexDigits₄ c.toNat
  := by
  have hcontrol : isControl c = true := (Bool.and_eq_true_iff.1 h).1
  have hne : ∀ d : Char, byCode d = false → c ≠ d := by
    rintro d hd rfl
    exact Bool.eq_false_iff.1 hd h
  rw [escape, if_neg (hne _ (by decide)), if_neg (hne _ (by decide)), if_neg (hne _ (by decide)),
    if_neg (hne _ (by decide)), if_neg (hne _ (by decide)), if_pos hcontrol]

/-- The characters with an escape of their own. -/
def named : List Char := ['"', '\\', '\n', '\r', '\t']

theorem eq_of_mem_named {c : Char} (h : c ∈ named) :
  c = '"' ∨ c = '\\' ∨ c = '\n' ∨ c = '\r' ∨ c = '\t'
  := by
  simpa only [named, List.mem_cons, List.not_mem_nil, or_false] using h

theorem escape_of_not_named {c : Char} (hnamed : c ∉ named) (h : byCode c = false) :
  escape c = [c]
  := by
  simp only [named, List.mem_cons, List.not_mem_nil, or_false, not_or] at hnamed
  obtain ⟨h₁, h₂, h₃, h₄, h₅⟩ := hnamed
  have hcontrol : isControl c = false := by
    simpa [byCode, h₃, h₄, h₅] using h
  rw [escape, if_neg h₁, if_neg h₂, if_neg h₃, if_neg h₄, if_neg h₅,
    if_neg (Bool.eq_false_iff.1 hcontrol)]

/-- A character is named, or written by its code, or stands for itself. -/
theorem escape_cases (c : Char) :
  c ∈ named ∨ (c ∉ named ∧ byCode c = true ∧ escape c = '\\' :: 'u' :: hexDigits₄ c.toNat)
    ∨ (c ∉ named ∧ byCode c = false ∧ escape c = [c])
  := by
  by_cases hnamed : c ∈ named
  · left
    exact hnamed
  · right
    cases h : byCode c with
    | true =>
      left
      exact ⟨hnamed, rfl, escape_of_byCode h⟩
    | false =>
      right
      exact ⟨hnamed, rfl, escape_of_not_named hnamed h⟩

/-! ### Reading a literal back -/

theorem translate_escape (c : Char) :
  transduce Translation.step .plain (escape c) = some (.plain, translated c)
  := by
  rcases escape_cases c with hnamed | ⟨-, hcode, hescape⟩ | ⟨hnamed, hcode, hescape⟩
  · rcases eq_of_mem_named hnamed with rfl | rfl | rfl | rfl | rfl <;> decide
  · rw [hescape, translated, if_pos hcode, Utf16.encodeChar_of_lt (byCode_lt hcode)]
    have hbackslash : Translation.step .plain '\\' = some (.backslash, []) := by
      decide
    have hmark : Translation.step .backslash 'u' = some (.marked, []) := by
      decide
    exact transduce_cons hbackslash
      (transduce_cons hmark (translate_hexDigits (byCode_lt hcode)))
  · have hne : c ≠ '\\' := by
      rintro rfl
      exact hnamed (by decide)
    have hstep : Translation.step .plain c = some (.plain, Utf16.encodeChar c) := if_neg hne
    rw [hescape, translated, if_neg (Bool.eq_false_iff.1 hcode), hescape]
    exact transduce_cons hstep (transduce_nil _)

theorem toNat_of_mem_encodeChar {c : Char} {u : UInt16} (h : u ∈ Utf16.encodeChar c) :
  u.toNat = c.toNat ∨ 0xD800 ≤ u.toNat
  := by
  have hc : c.toNat < 0xD800 ∨ 0xDFFF < c.toNat ∧ c.toNat < 0x110000 := c.valid
  rcases Nat.lt_or_ge c.toNat 0x10000 with hlt | hle
  · rw [Utf16.encodeChar_of_lt hlt, List.mem_singleton] at h
    left
    rw [h, Utf16.toNat_toUInt16 hlt]
  · right
    rw [Utf16.encodeChar_of_le hle, List.mem_cons, List.mem_singleton] at h
    rcases h with rfl | rfl
    · rw [Utf16.toNat_toUInt16 (by omega)]
      omega
    · rw [Utf16.toNat_toUInt16 (by omega)]
      omega

/-- No unit of a character that needs no letter to be escaped is that of one that does. -/
theorem ne_of_mem_encodeChar {c d : Char} {u : UInt16} (hc : c ∉ named) (hd : d ∈ named)
    (hu : u ∈ Utf16.encodeChar c) :
  u ≠ d.toNat.toUInt16
  := by
  have hlt : d.toNat < 0xD800 := by
    rcases eq_of_mem_named hd with rfl | rfl | rfl | rfl | rfl <;> decide
  rintro rfl
  rcases toNat_of_mem_encodeChar hu with h | h
  · rw [Utf16.toNat_toUInt16 (by omega), Char.toNat_inj] at h
    apply hc
    rw [← h]
    apply hd
  · rw [Utf16.toNat_toUInt16 (by omega)] at h
    omega

/-- The units of a character that needs no letter to be escaped stand for themselves. -/
theorem read_encodeChar {c : Char} (hnamed : c ∉ named) :
  transduce Reading.step .inside (Utf16.encodeChar c) = some (.inside, Utf16.encodeChar c)
  := by
  have hstep : ∀ u ∈ Utf16.encodeChar c, Reading.insideStep u = some (.inside, [u]) := by
    intro u hu
    have hquote : u ≠ 0x22 := ne_of_mem_encodeChar (d := '"') hnamed (by decide) hu
    have hbackslash : u ≠ 0x5C := ne_of_mem_encodeChar (d := '\\') hnamed (by decide) hu
    have hfeed : u ≠ 0x0A := ne_of_mem_encodeChar (d := '\n') hnamed (by decide) hu
    have hreturn : u ≠ 0x0D := ne_of_mem_encodeChar (d := '\r') hnamed (by decide) hu
    rw [Reading.insideStep, if_neg hquote, if_neg hbackslash, if_neg (not_or.2 ⟨hfeed, hreturn⟩)]
  generalize Utf16.encodeChar c = units at hstep
  induction units with
  | nil => rfl
  | cons u units ih =>
    have hfirst : Reading.step .inside u = some (.inside, [u]) := hstep u List.mem_cons_self
    have hrest := ih fun v hv => hstep v (List.mem_cons_of_mem _ hv)
    exact transduce_cons hfirst hrest

theorem read_translated (c : Char) :
  transduce Reading.step .inside (translated c) = some (.inside, Utf16.encodeChar c)
  := by
  rcases escape_cases c with hnamed | ⟨hnamed, hcode, -⟩ | ⟨hnamed, hcode, hescape⟩
  · rcases eq_of_mem_named hnamed with rfl | rfl | rfl | rfl | rfl <;> decide
  · rw [translated, if_pos hcode]
    apply read_encodeChar hnamed
  · rw [translated, if_neg (Bool.eq_false_iff.1 hcode), hescape, Utf16.encode,
      List.flatMap_singleton]
    apply read_encodeChar hnamed

theorem translate?_quote (t : Text) :
  translate? (quote t) = some (0x22 :: (t.flatMap translated ++ [0x22]))
  := by
  have hbody := transduce_flatMap translate_escape t
  have hclose : transduce Translation.step .plain ['"'] = some (.plain, [0x22]) := by
    decide
  have hopen : Translation.step .plain '"' = some (.plain, [0x22]) := by
    decide
  rw [translate?, quote, transduce_cons hopen (transduce_append hbody hclose)]
  simp [Translation.rest?]

/-- The literal of a text is exactly one literal, and denotes the units of the text. -/
theorem value?_quote (t : Text) :
  value? (quote t) = some (Utf16.encode t)
  := by
  have hbody := transduce_flatMap read_translated t
  have hclose : transduce Reading.step .inside [0x22] = some (.closed, []) := by
    decide
  have hopen : Reading.step .before 0x22 = some (.inside, []) := by
    decide
  rw [value?, translate?_quote, Option.bind_some,
    transduce_cons hopen (transduce_append hbody hclose)]
  simp [Utf16.encode]

end InstanceState.Literal
