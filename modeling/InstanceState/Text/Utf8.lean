import InstanceState.Text.Basic

/-!
# UTF-8

The octets of a text, and the reading of octets.  `segments` splits any list of octets into
encoded characters, ill-formed runs and an incomplete run at the end; an ill-formed run is the
longest beginning of a character that the next octet rules out, and is never empty.
-/

namespace InstanceState.Utf8

/-! ### Writing -/

/-- The octets of one character. -/
def encodeChar (c : Char) : List UInt8 :=
  let n := c.toNat
  if n < 0x80 then [n.toUInt8]
  else if n < 0x800 then [(0xC0 + n / 0x40).toUInt8, (0x80 + n % 0x40).toUInt8]
  else if n < 0x10000 then
    [(0xE0 + n / 0x1000).toUInt8, (0x80 + n / 0x40 % 0x40).toUInt8, (0x80 + n % 0x40).toUInt8]
  else
    [(0xF0 + n / 0x40000).toUInt8, (0x80 + n / 0x1000 % 0x40).toUInt8,
     (0x80 + n / 0x40 % 0x40).toUInt8, (0x80 + n % 0x40).toUInt8]

/-- The octets of a text. -/
def encode (t : Text) : List UInt8 := t.flatMap encodeChar

/-! ### Reading -/

/-- A part of a list of octets. -/
inductive Segment where
  /-- An encoded character. -/
  | scalar (c : Char)
  /-- The beginning of a character that the next octet does not continue. -/
  | illFormed (octets : List UInt8)
  /-- The beginning of a character at the end of the octets. -/
  | incomplete (octets : List UInt8)
deriving DecidableEq, Repr

/-- The number of octets of a segment. -/
def Segment.size : Segment → Nat
  | .scalar c => (encodeChar c).length
  | .illFormed octets => octets.length
  | .incomplete octets => octets.length

/-- Whether an octet continues a character whose first octet is far enough back. -/
def isTail (b : UInt8) : Bool := 0x80 ≤ b && b ≤ 0xBF

/-- The octets that may stand second in a character of first octet `b`, as a range. -/
def secondRange (b : UInt8) : UInt8 × UInt8 :=
  if b = 0xE0 then (0xA0, 0xBF)
  else if b = 0xED then (0x80, 0x9F)
  else if b = 0xF0 then (0x90, 0xBF)
  else if b = 0xF4 then (0x80, 0x8F)
  else (0x80, 0xBF)

/-- Whether `b₂` may stand second in a character of first octet `b₁`. -/
def isSecond (b₁ b₂ : UInt8) : Bool := (secondRange b₁).1 ≤ b₂ && b₂ ≤ (secondRange b₁).2

/-- The number of octets of a character of first octet `b`. -/
def width? (b : UInt8) : Option Nat :=
  if b < 0x80 then some 1
  else if b < 0xC2 then none
  else if b < 0xE0 then some 2
  else if b < 0xF0 then some 3
  else if b < 0xF5 then some 4
  else none

/-- The six low bits of an octet. -/
def payload (b : UInt8) : Nat := b.toNat % 0x40

/-- The character of two octets. -/
def char₂ (b₁ b₂ : UInt8) : Char := Char.ofNat (b₁.toNat % 0x20 * 0x40 + payload b₂)

/-- The character of three octets. -/
def char₃ (b₁ b₂ b₃ : UInt8) : Char :=
  Char.ofNat (b₁.toNat % 0x10 * 0x1000 + payload b₂ * 0x40 + payload b₃)

/-- The character of four octets. -/
def char₄ (b₁ b₂ b₃ b₄ : UInt8) : Char :=
  Char.ofNat (b₁.toNat % 0x08 * 0x40000 + payload b₂ * 0x1000 + payload b₃ * 0x40 + payload b₄)

/-- The segments of a list of octets, in order. -/
def segments : List UInt8 → List Segment
  | [] => []
  | b₁ :: r₁ =>
    match width? b₁ with
    | some 1 => .scalar (Char.ofNat b₁.toNat) :: segments r₁
    | some width =>
      match r₁ with
      | [] => [.incomplete [b₁]]
      | b₂ :: r₂ =>
        if isSecond b₁ b₂ then
          if width = 2 then .scalar (char₂ b₁ b₂) :: segments r₂
          else
            match r₂ with
            | [] => [.incomplete [b₁, b₂]]
            | b₃ :: r₃ =>
              if isTail b₃ then
                if width = 3 then .scalar (char₃ b₁ b₂ b₃) :: segments r₃
                else
                  match r₃ with
                  | [] => [.incomplete [b₁, b₂, b₃]]
                  | b₄ :: r₄ =>
                    if isTail b₄ then .scalar (char₄ b₁ b₂ b₃ b₄) :: segments r₄
                    else .illFormed [b₁, b₂, b₃] :: segments (b₄ :: r₄)
              else .illFormed [b₁, b₂] :: segments (b₃ :: r₃)
        else .illFormed [b₁] :: segments (b₂ :: r₂)
    | none => .illFormed [b₁] :: segments r₁
termination_by octets => octets.length

/-- Where octets stop being UTF-8: the number of octets before, and the number of octets of the
ill-formed run, if it is not merely incomplete. -/
structure Malformed where
  start : Nat
  run : Option Nat
deriving DecidableEq, Repr

/-- What is wrong with the octets. -/
def Malformed.message (m : Malformed) : Text :=
  match m.run with
  | some run =>
    "invalid utf-8 sequence of " ++ (Nat.repr run).toList ++ " bytes from index "
      ++ (Nat.repr m.start).toList
  | none => "incomplete utf-8 byte sequence from index " ++ (Nat.repr m.start).toList

/-- The text of segments that begin `start` octets after the first. -/
def textOf (start : Nat) : List Segment → Except Malformed Text
  | [] => .ok []
  | .scalar c :: rest => (textOf (start + (Segment.scalar c).size) rest).map (c :: ·)
  | .illFormed octets :: _ => .error ⟨start, some octets.length⟩
  | .incomplete _ :: _ => .error ⟨start, none⟩

/-- The text whose octets are given, or the first place where they are not UTF-8. -/
def decode (octets : List UInt8) : Except Malformed Text := textOf 0 (segments octets)

/-- The text of octets, with `U+FFFD` in place of each part that is no character. -/
def decodeLossy (octets : List UInt8) : Text :=
  (segments octets).map fun
    | .scalar c => c
    | _ => '\uFFFD'

/-- The characters before the first part that is no character. -/
def longestText (octets : List UInt8) : Text :=
  (segments octets).takeWhile (fun s => s matches .scalar _) |>.filterMap fun
    | .scalar c => some c
    | _ => none

end InstanceState.Utf8
