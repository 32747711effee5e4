import InstanceState.Text.Blank

/-!
# Shapes of type names

A type name is read as an array of an element, as a base with type arguments, or as a plain name.
Every text has a shape, balanced or not, and an element or argument is always shorter than the
text it was read from.
-/

namespace InstanceState

/-- The shape of a type name as it is written in a declaration. -/
inductive TypeShape where
  | array (element : Text)
  | parameterized (base : Text) (arguments : List Text)
  | plain (name : Text)
deriving DecidableEq, Repr

namespace TypeShape

/-- The text with one character put before its first part. -/
def consHead (c : Char) : List Text → List Text
  | [] => [[c]]
  | p :: ps => (c :: p) :: ps

/-- The number of open angle brackets after a character; a bracket that closes none is ignored. -/
def depthAfter (depth : Nat) (c : Char) : Nat :=
  if c = '<' then depth + 1 else if c = '>' then depth - 1 else depth

/-- The parts between the commas that no angle bracket encloses, when `depth` brackets are open
before the text. -/
def splitArguments (depth : Nat) : Text → List Text
  | [] => [[]]
  | c :: t =>
    if c = ',' ∧ depth = 0 then [] :: splitArguments depth t
    else consHead c (splitArguments (depthAfter depth c) t)

/-- The upper bound of an argument: `X` for `? extends X`; any other argument stays as it is. -/
def upperBound (argument : Text) : Text :=
  match (Text.after? "?" argument).bind fun rest => Text.after? "extends " (Text.trimStart rest) with
  | some bound => Text.trim bound
  | none => argument

/-- The shape of a type name. -/
def parse (type : Text) : TypeShape :=
  match Text.before? "[]" (Text.trim type) with
  | some element => .array (Text.trimEnd element)
  | none =>
    match (Text.before? ">" (Text.trim type)).bind (Text.cutFirst? '<') with
    | some (base, arguments) =>
      .parameterized (Text.trim base)
        ((splitArguments 0 arguments).map fun a => upperBound (Text.trim a))
    | none => .plain (Text.trim type)

/-- The only type argument of a type of the given base. -/
def singleArgument? (base : Text) : TypeShape → Option Text
  | .parameterized b [argument] => if b = base then some argument else none
  | _ => none

/-! ### Elements and arguments are shorter -/

theorem length_le_of_mem_splitArguments {depth : Nat} {t a : Text}
    (h : a ∈ splitArguments depth t) :
  a.length ≤ t.length
  := by
  induction t generalizing depth a with
  | nil => simp_all [splitArguments]
  | cons c t ih =>
    simp only [splitArguments] at h
    split at h
    · rcases List.mem_cons.1 h with rfl | h
      · simp
      · exact Nat.le_succ_of_le (ih h)
    · generalize hs : splitArguments (depthAfter depth c) t = parts at h
      cases parts with
      | nil => simp_all [consHead]
      | cons p ps =>
        rcases List.mem_cons.1 h with rfl | h
        · have hp : p ∈ splitArguments (depthAfter depth c) t := by simp [hs]
          exact Nat.succ_le_succ (ih hp)
        · have ha : a ∈ splitArguments (depthAfter depth c) t := by simp [hs, h]
          exact Nat.le_succ_of_le (ih ha)

theorem length_upperBound_le (a : Text) :
  (upperBound a).length ≤ a.length
  := by
  simp only [upperBound]
  split
  · rename_i bound h
    obtain ⟨rest, hr, hb⟩ := Option.bind_eq_some_iff.1 h
    have hr := Text.after?_eq_some_iff.1 hr
    have hb := congrArg List.length (Text.after?_eq_some_iff.1 hb)
    have := Text.length_trimStart_le rest
    have := Text.length_trim_le bound
    simp only [hr, List.length_append] at *
    omega
  · exact Nat.le_refl _

theorem length_lt_of_parse_array {type element : Text} (h : parse type = .array element) :
  element.length < type.length
  := by
  simp only [parse] at h
  split at h
  · rename_i e he
    cases h
    have he := congrArg List.length (Text.before?_eq_some_iff.1 he)
    have := Text.length_trimEnd_le e
    have := Text.length_trim_le type
    simp at he
    omega
  · split at h <;> cases h

theorem length_lt_of_parse_parameterized {type base : Text} {arguments : List Text}
    (h : parse type = .parameterized base arguments) {a : Text} (ha : a ∈ arguments) :
  a.length < type.length
  := by
  simp only [parse] at h
  split at h
  · cases h
  · split at h
    · rename_i b r hb
      cases h
      obtain ⟨p, hp, rfl⟩ := List.mem_map.1 ha
      obtain ⟨inner, hi, hc⟩ := Option.bind_eq_some_iff.1 hb
      have hi := congrArg List.length (Text.before?_eq_some_iff.1 hi)
      have hc := congrArg List.length (Text.cutFirst?_eq_some_iff.1 hc).1
      have := length_le_of_mem_splitArguments hp
      have := length_upperBound_le (Text.trim p)
      have := Text.length_trim_le p
      have := Text.length_trim_le type
      simp at hi hc
      omega
    · cases h

end TypeShape

end InstanceState
