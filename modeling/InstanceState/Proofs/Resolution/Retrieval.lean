import InstanceState.Proofs.Resolution.Arrays

/-!
# Types of retrievals

A retrieval is a call of a bundle getter, with a type witness or none, under a cast or none, so it
has a type.  The commands of resolution carry a type argument if their retrieval needs one, and the
type of the retrieval is the declared type, however malformed that is: it differs at most in the
blank characters between its parts, in the package `java.lang`, in boxing, and in a wildcard that
has been replaced by its upper bound.
-/

namespace InstanceState

/-! ### Getters -/

/-- The result of a bundle getter. -/
inductive GetterResult where
  /-- The result is of one type. -/
  | fixed (type : Text)
  /-- The result is of the type parameter of the getter. -/
  | parameter
  /-- The result is a container of the type parameter of the getter. -/
  | container (name : Text)

/-- The type of the result of a getter, called with a type witness or without one. -/
def GetterResult.type? : GetterResult → Option Text → Option Text
  | .fixed type, none => some type
  | .parameter, some witness => some witness
  | .container name, some witness => some (name ++ "<" ++ witness ++ ">")
  | _, _ => none

/-- The getters of bundles, with their results. -/
def getters : List (Text × GetterResult) :=
  [("getBoolean", .fixed "boolean"), ("getBooleanArray", .fixed "boolean[]"),
   ("getBundle", .fixed "android.os.Bundle"),
   ("getByte", .fixed "byte"), ("getByteArray", .fixed "byte[]"),
   ("getChar", .fixed "char"), ("getCharArray", .fixed "char[]"),
   ("getCharSequence", .fixed "java.lang.CharSequence"),
   ("getCharSequenceArray", .fixed "java.lang.CharSequence[]"),
   ("getCharSequenceArrayList", .fixed "java.util.ArrayList<java.lang.CharSequence>"),
   ("getDouble", .fixed "double"), ("getDoubleArray", .fixed "double[]"),
   ("getFloat", .fixed "float"), ("getFloatArray", .fixed "float[]"),
   ("getInt", .fixed "int"), ("getIntArray", .fixed "int[]"),
   ("getIntegerArrayList", .fixed "java.util.ArrayList<java.lang.Integer>"),
   ("getLong", .fixed "long"), ("getLongArray", .fixed "long[]"),
   ("getParcelable", .parameter),
   ("getParcelableArray", .fixed "android.os.Parcelable[]"),
   ("getParcelableArrayList", .container "java.util.ArrayList"),
   ("getSerializable", .fixed "java.io.Serializable"),
   ("getShort", .fixed "short"), ("getShortArray", .fixed "short[]"),
   ("getSparseParcelableArray", .container "android.util.SparseArray"),
   ("getString", .fixed "java.lang.String"), ("getStringArray", .fixed "java.lang.String[]"),
   ("getStringArrayList", .fixed "java.util.ArrayList<java.lang.String>")]

/-! ### Retrievals -/

/-- A call of a getter with what is written before it. -/
structure Retrieval where
  cast : Option Text
  witness : Option Text
  getter : Text

namespace Retrieval

/-- A text between two others, if there is one. -/
def enclosed (before after : Text) : Option Text → Text
  | some t => before ++ t ++ after
  | none => []

/-- The retrieval from `bundle` under `key`. -/
def render (e : Retrieval) (bundle key : Text) : Text :=
  enclosed "(" ") " e.cast ++ bundle ++ "." ++ enclosed "<" ">" e.witness ++ e.getter
    ++ "(" ++ key ++ ")"

/-- The type of a retrieval whose call is well-typed: the one it is cast to, or else the one of the
call. -/
def type? (e : Retrieval) : Option Text :=
  ((getters.lookup e.getter).bind fun result => result.type? e.witness).map e.cast.getD

end Retrieval

namespace Command

/-- The retrieval of a command. -/
def expression (c : Command) : Retrieval :=
  match c.typeArgument, c.kind.style with
  | some type, .witness => ⟨none, some type, c.retrievalMethod⟩
  | some type, .cast => ⟨some type, none, c.retrievalMethod⟩
  | some type, .arrayCast => ⟨some (type ++ "[]"), none, c.retrievalMethod⟩
  | _, _ => ⟨none, none, c.retrievalMethod⟩

theorem retrieval_eq_render (c : Command) (bundle key : Text) :
  c.retrieval bundle key = c.expression.render bundle key
  := by
  rw [retrieval, expression]
  cases c.typeArgument with
  | none => simp [Retrieval.render, Retrieval.enclosed]
  | some type => cases c.kind.style <;> simp [Retrieval.render, Retrieval.enclosed]

/-- Whether a command carries the type argument that its retrieval needs, and the retrieval is of
the given type. -/
structure HasType (c : Command) (type : Text) : Prop where
  isSome_iff : c.typeArgument.isSome = true ↔ c.kind.style ≠ .direct
  type_eq : c.expression.type? = some type

theorem hasType_iff {c : Command} {type : Text} :
  (c.typeArgument.isSome = true ↔ c.kind.style ≠ .direct) ∧ c.expression.type? = some type
    ↔ c.HasType type
  := ⟨fun h => ⟨h.1, h.2⟩, fun h => ⟨h.1, h.2⟩⟩

instance (c : Command) (type : Text) : Decidable (c.HasType type) :=
  decidable_of_iff _ hasType_iff

theorem hasType_plain {kind : CommandKind} (hstyle : kind.style = .direct) {type : Text}
    (h : (plain kind).expression.type? = some type) :
  (plain kind).HasType type
  := by
  constructor
  · simp [plain, hstyle]
  · apply h

/-- The type of the retrievals of a kind with a type argument. -/
def retrievedType : CommandKind → Text → Text
  | .parcelableArrayList, argument => "java.util.ArrayList" ++ "<" ++ argument ++ ">"
  | .sparseParcelableArray, argument => "android.util.SparseArray" ++ "<" ++ argument ++ ">"
  | .parcelableArray, argument => argument ++ "[]"
  | _, argument => argument

theorem hasType_typed {kind : CommandKind} (hstyle : kind.style ≠ .direct) (argument : Text) :
  (typed kind argument).HasType (retrievedType kind argument)
  := by
  constructor
  · simp [typed, hstyle]
  · cases kind with
    | parcelable | point | pointF | rect | rectF | parcelableArray | parcelableArrayList
    | sparseParcelableArray | serializable => rfl
    | _ => contradiction

/-- The type argument of a command determines the type of its retrieval. -/
theorem HasType.eq_retrievedType {c : Command} {type argument : Text} (h : c.HasType type)
    (hargument : c.typeArgument = some argument) :
  type = retrievedType c.kind argument
  := by
  obtain ⟨kind, typeArgument⟩ := c
  dsimp only at hargument
  subst hargument
  have hstyle : kind.style ≠ .direct := h.isSome_iff.1 rfl
  have htype := h.type_eq
  rw [← typed, (hasType_typed hstyle argument).type_eq, Option.some.injEq] at htype
  apply htype.symm

end Command

/-! ### Texts as tokens -/

namespace Text

/-- A text is made of the given tokens, with blank characters around each of them. -/
inductive Spaced : List Text → Text → Prop where
  | nil {w : Text} (hw : AllBlank w) : Spaced [] w
  | cons {w : Text} (hw : AllBlank w) (token : Text) {tokens : List Text} {t : Text}
      (ht : Spaced tokens t) : Spaced (token :: tokens) (w ++ token ++ t)

namespace Spaced

theorem token (t : Text) :
  Spaced [t] t
  := by
  have h := cons allBlank_nil t (nil allBlank_nil)
  rw [List.nil_append, List.append_nil] at h
  apply h

theorem blank_append {w : Text} (hw : AllBlank w) {tokens : List Text} {t : Text}
    (h : Spaced tokens t) :
  Spaced tokens (w ++ t)
  := by
  cases h with
  | nil hw' =>
    apply nil
    apply List.forall_mem_append.2 ⟨hw, hw'⟩
  | cons hw' token ht =>
    rw [List.append_assoc, ← List.append_assoc, ← List.append_assoc]
    apply cons (List.forall_mem_append.2 ⟨hw, hw'⟩) token ht

theorem append {tokens tokens' : List Text} {t t' : Text} (h : Spaced tokens t)
    (h' : Spaced tokens' t') :
  Spaced (tokens ++ tokens') (t ++ t')
  := by
  induction h with
  | nil hw => apply h'.blank_append hw
  | cons hw token _ ih =>
    rw [List.append_assoc]
    apply cons hw token ih

/-- Blank characters around a text make no difference to its tokens. -/
theorem of_trim {tokens : List Text} {t : Text} (h : Spaced tokens (trim t)) :
  Spaced tokens t
  := by
  obtain ⟨w, w', hw, hw', ht⟩ := exists_eq_append_trim_append t
  rw [ht, ← List.append_nil tokens]
  apply (h.blank_append hw).append (nil hw')

theorem of_trimStart {tokens : List Text} {t : Text} (h : Spaced tokens (trimStart t)) :
  Spaced tokens t
  := by
  obtain ⟨w, hw, ht⟩ := exists_eq_append_trimStart t
  rw [ht]
  apply h.blank_append hw

theorem trim (t : Text) :
  Spaced [Text.trim t] t
  := of_trim (token _)

theorem trimEnd (t : Text) :
  Spaced [Text.trimEnd t] t
  := by
  obtain ⟨w, hw, ht⟩ := exists_eq_trimEnd_append t
  have h := (token (Text.trimEnd t)).append (nil hw)
  rw [← ht] at h
  apply h

end Spaced

end Text

open Text (Spaced)

/-! ### Declared types -/

/-- The name of a type without the package `java.lang`. -/
def simpleName (type : Text) : Text := (Text.after? "java.lang." type).getD type

/-- The boxed types with the primitive types in them. -/
def boxTable : List (Text × Text) :=
  [("Boolean", "boolean"), ("Byte", "byte"), ("Character", "char"), ("Double", "double"),
   ("Float", "float"), ("Integer", "int"), ("Long", "long"), ("Short", "short")]

/-- The name of a type without the package `java.lang`, and of the type in the box for a boxed
type. -/
def unboxed (type : Text) : Text := (boxTable.lookup (simpleName type)).getD (simpleName type)

/-- A text declares a type, up to blank characters, the package `java.lang`, boxing of the type or
of its only argument, and a wildcard with an upper bound for that argument. -/
inductive Declares (t : Text) : Text → Prop where
  | name {u type : Text} (ht : Spaced [u] t) (h : unboxed u = unboxed type) : Declares t type
  | array {u type : Text} (ht : Spaced [u, "[]"] t) (h : simpleName (u ++ "[]") = simpleName type) :
      Declares t type
  | applied {base u argument : Text} (ht : Spaced [base, "<", u, ">"] t)
      (h : unboxed u = unboxed argument) : Declares t (base ++ "<" ++ argument ++ ">")
  | bounded {base u argument : Text} (ht : Spaced [base, "<", "?", "extends ", u, ">"] t)
      (h : unboxed u = unboxed argument) : Declares t (base ++ "<" ++ argument ++ ">")

theorem declares_trim (t : Text) :
  Declares t (Text.trim t)
  := .name (Spaced.trim t) rfl

namespace TypeShape

theorem trim_upperBound (argument : Text) :
  Text.trim (upperBound (Text.trim argument)) = upperBound (Text.trim argument)
  := by
  rw [upperBound]
  split
  · apply Text.trim_trim
  · apply Text.trim_trim

/-- There are no blank characters at the ends of an argument. -/
theorem trim_of_parse_parameterized {type base argument : Text} {arguments : List Text}
    (h : parse type = .parameterized base arguments) (ha : argument ∈ arguments) :
  Text.trim argument = argument
  := by
  obtain ⟨a, b, -, -, -, rfl⟩ := exists_of_parse_parameterized h
  obtain ⟨part, -, rfl⟩ := List.mem_map.1 ha
  apply trim_upperBound

/-- An argument is its upper bound, or a wildcard with it. -/
theorem spaced_upperBound (argument : Text) :
  Spaced [upperBound (Text.trim argument)] argument
    ∨ Spaced ["?", "extends ", upperBound (Text.trim argument)] argument
  := by
  rw [upperBound]
  split
  · rename_i bound hbound
    right
    obtain ⟨rest, hmark, hextends⟩ := Option.bind_eq_some_iff.1 hbound
    apply Spaced.of_trim
    rw [Text.after?_eq_some_iff.1 hmark]
    apply (Spaced.token _).append
    apply Spaced.of_trimStart
    rw [Text.after?_eq_some_iff.1 hextends]
    apply (Spaced.token _).append (Spaced.trim bound)
  · left
    apply Spaced.trim

/-- An array type declares what its element and the brackets make up. -/
theorem declares_of_parse_array {t element type : Text} (h : parse t = .array element)
    (htype : simpleName (element ++ "[]") = simpleName type) :
  Declares t type
  := by
  obtain ⟨s, hs, rfl⟩ := parse_eq_array_iff.1 h
  apply Declares.array _ htype
  apply Spaced.of_trim
  rw [hs]
  apply (Spaced.trimEnd s).append (Spaced.token _)

/-- A type with one argument declares what its base, the upper bound of the argument and the
brackets make up. -/
theorem declares_of_parse_parameterized {t base element argument : Text}
    (h : parse t = .parameterized base [element]) (hargument : unboxed element = unboxed argument) :
  Declares t (base ++ "<" ++ argument ++ ">")
  := by
  obtain ⟨a, b, htrim, -, rfl, harguments⟩ := exists_of_parse_parameterized h
  -- The only part is all that stands between the brackets.
  obtain ⟨part, hparts, rfl⟩ := List.map_eq_singleton_iff.1 harguments.symm
  have hpart := joinWith_splitArguments 0 b
  rw [hparts, Text.joinWith] at hpart
  subst hpart
  have hspaced : ∀ tokens, Spaced tokens part →
      Spaced ([Text.trim a, ['<']] ++ tokens ++ [['>']]) t := by
    intro tokens htokens
    apply Spaced.of_trim
    rw [htrim, List.append_cons a, ← List.append_assoc]
    apply Spaced.append _ (Spaced.token ['>'])
    apply Spaced.append _ htokens
    apply (Spaced.trim a).append (Spaced.token ['<'])
  rcases spaced_upperBound part with hbound | hbound
  · apply Declares.applied (hspaced _ hbound) hargument
  · apply Declares.bounded (hspaced _ hbound) hargument

end TypeShape

namespace Resolver

open TypeShape

/-! ### Types of the tables -/

/-- The getter of a scalar kind gives the type, up to boxing. -/
theorem exists_hasType_scalar {u : Text} {kind : CommandKind} (h : scalarKind? u = some kind) :
  ∃ type, (Command.plain kind).HasType type ∧ unboxed u = unboxed type
  := by
  have htable : ∀ entry ∈ scalarTable, entry.2.style = .direct
      ∧ ∀ u ∈ [entry.1, "java.lang." ++ entry.1],
        (Command.plain entry.2).expression.type?.map unboxed = some (unboxed u) := by
    decide
  obtain ⟨entry, hentry, rfl, hu⟩ := exists_mem_scalarTable h
  obtain ⟨hstyle, htype⟩ := htable entry hentry
  obtain ⟨type, htype, heq⟩ := Option.map_eq_some_iff.1 (htype u hu)
  use type, Command.hasType_plain hstyle htype
  rw [heq]

/-- The getter of the arrays of a scalar kind gives the arrays of the type, without boxing. -/
theorem exists_hasType_array {u : Text} {kind array : CommandKind}
    (h : arrayElementKind? u = some kind) (harray : kind.arrayOf? = some array) :
  ∃ type, (Command.plain array).HasType type ∧ simpleName (u ++ "[]") = simpleName type
  := by
  have htable : ∀ entry ∈ scalarTable, ∀ u ∈ [entry.1, "java.lang." ++ entry.1],
      ((arrayElementKind? u).bind CommandKind.arrayOf?).all fun array =>
        array.style = .direct
          ∧ (Command.plain array).expression.type?.map simpleName
            = some (simpleName (u ++ "[]")) := by
    decide
  obtain ⟨entry, hentry, -, hu⟩ := exists_mem_scalarTable (Option.filter_eq_some_iff.1 h).1
  have hentry := htable entry hentry u hu
  rw [h, Option.bind_some, harray, Option.all_some, decide_eq_true_iff] at hentry
  obtain ⟨hstyle, htype⟩ := hentry
  obtain ⟨type, htype, heq⟩ := Option.map_eq_some_iff.1 htype
  use type, Command.hasType_plain hstyle htype
  rw [heq]

/-- The retrieval of a framework value type is of that type. -/
theorem hasType_framework {type : Text} {command : Command}
    (h : frameworkCommand? type = some command) :
  command.HasType type
  := by
  have htable : ∀ entry ∈ geometryTable, (Command.typed entry.2 entry.1).HasType entry.1 := by
    decide
  rcases frameworkCommand?_cases h with ⟨rfl, rfl⟩ | ⟨kind, hkind, rfl⟩
  · decide
  · apply htable _ hkind

/-! ### Types of lists -/

/-- The scalar kinds that have lists of their own, with the kinds of these lists and the types of
their elements. -/
def listTable : List (CommandKind × CommandKind × Text) :=
  [(.int, .integerArrayList, "java.lang.Integer"), (.string, .stringArrayList, "java.lang.String"),
   (.charSequence, .charSequenceArrayList, "java.lang.CharSequence")]

theorem listCommand?_cases {element : Text} {kind : CommandKind} {command : Command}
    (h : listCommand? element kind = some command) :
  (∃ entry ∈ listTable, entry.1 = kind ∧ command = .plain entry.2.1)
    ∨ command = .typed .parcelableArrayList element
  := by
  rw [listCommand?.eq_def] at h
  split at h
  · left
    cases h
    decide
  · left
    cases h
    decide
  · left
    cases h
    decide
  · right
    split_ifs at h
    cases h
    rfl

/-- A type with one argument has the command of a list of scalars, of a list or of a sparse array of
parcelables. -/
theorem containerCommand?_cases {base element : Text} {kind : CommandKind} {command : Command}
    (h : containerCommand? base element kind = some command) :
  (base = arrayListName ∧ ∃ entry ∈ listTable, entry.1 = kind ∧ command = .plain entry.2.1)
    ∨ (base = arrayListName ∧ command = .typed .parcelableArrayList element)
    ∨ (base = sparseArrayName ∧ command = .typed .sparseParcelableArray element)
  := by
  rw [containerCommand?] at h
  split_ifs at h with hlist hsparse
  · rcases listCommand?_cases h with hscalar | hparcelable
    · left
      exact ⟨hlist, hscalar⟩
    · right
      left
      use hlist, hparcelable
  · right
    right
    cases h
    use hsparse.1

/-- An array has the command of the arrays of a scalar kind or of the arrays of parcelables. -/
theorem arrayCommand?_cases {element : Text} {kind : CommandKind} {command : Command}
    (h : arrayCommand? element kind = some command) :
  (∃ scalar array, arrayElementKind? element = some scalar ∧ scalar.arrayOf? = some array
      ∧ command = .plain array)
    ∨ command = .typed .parcelableArray element
  := by
  rw [arrayCommand?] at h
  split at h
  · rename_i array harray
    left
    obtain ⟨scalar, hscalar, harray⟩ := Option.bind_eq_some_iff.1 harray
    cases h
    use scalar, array, hscalar, harray
  · right
    split_ifs at h
    cases h
    rfl

variable (r : Resolver)

/-- Only a scalar type has a kind that has lists of its own. -/
theorem scalarKind?_of_mem_listTable {t : Text}
    (h : (r.resolve t).kind ∈ listTable.map Prod.fst) :
  scalarKind? (Text.trim t) = some (r.resolve t).kind
  := by
  have hgeometry : ∀ entry ∈ geometryTable, entry.2 ∉ listTable.map Prod.fst := by
    decide
  have harrays : ∀ kind ∈ CommandKind.arrays, kind ∉ listTable.map Prod.fst := by
    decide
  have hlists : ∀ list ∈ listTable, list.2.1 ∉ listTable.map Prod.fst := by
    decide
  rcases r.resolve_cases t with ⟨kind, hkind, hr⟩ | hr | ⟨element, -, hr⟩ | ⟨base, element, -, hr⟩
    | hr | hr
  · rw [hr]
    apply hkind
  · rcases frameworkCommand?_cases hr with ⟨-, hr⟩ | ⟨kind, hkind, hr⟩
    · rw [hr] at h
      contradiction
    · rw [hr] at h
      apply absurd h (hgeometry _ hkind)
  · rcases arrayCommand?_cases hr with ⟨scalar, array, -, harray, hr⟩ | hr
    · rw [hr] at h
      apply absurd h (harrays _ (CommandKind.mem_arrays_of_arrayOf? harray).1)
    · rw [hr] at h
      contradiction
  · rcases containerCommand?_cases hr with ⟨-, list, hlist, -, hr⟩ | ⟨-, hr⟩ | ⟨-, hr⟩
    · rw [hr] at h
      apply absurd h (hlists _ hlist)
    · rw [hr] at h
      contradiction
    · rw [hr] at h
      contradiction
  · rw [hr] at h
    contradiction
  · rw [hr] at h
    contradiction

/-! ### Types of commands -/

/-- The command of an array type is of the declared type. -/
theorem exists_hasType_of_array {t element : Text} {kind : CommandKind} {command : Command}
    (hshape : parse t = .array element) (h : arrayCommand? element kind = some command) :
  ∃ type, command.HasType type ∧ Declares t type
  := by
  rcases arrayCommand?_cases h with ⟨scalar, array, hscalar, harray, rfl⟩ | rfl
  · obtain ⟨type, htype, hname⟩ := exists_hasType_array hscalar harray
    use type, htype
    apply declares_of_parse_array hshape hname
  · refine ⟨_, Command.hasType_typed (by decide) element, ?_⟩
    apply declares_of_parse_array hshape rfl

/-- The command of a type with one argument is of the declared type. -/
theorem exists_hasType_of_container {t base element : Text} {command : Command}
    (hshape : parse t = .parameterized base [element])
    (h : containerCommand? base element (r.resolve element).kind = some command) :
  ∃ type, command.HasType type ∧ Declares t type
  := by
  have hlists : ∀ list ∈ listTable,
      (Command.plain list.2.1).HasType (arrayListName ++ "<" ++ list.2.2 ++ ">")
        ∧ (Command.plain list.1).expression.type?.map unboxed = some (unboxed list.2.2) := by
    decide
  rcases containerCommand?_cases h with ⟨rfl, list, hlist, hkind, rfl⟩ | ⟨rfl, rfl⟩ | ⟨rfl, rfl⟩
  · obtain ⟨htype, hargument⟩ := hlists list hlist
    refine ⟨_, htype, declares_of_parse_parameterized hshape ?_⟩
    have hmem : (r.resolve element).kind ∈ listTable.map Prod.fst := by
      rw [← hkind]
      apply List.mem_map_of_mem hlist
    have hscalar := r.scalarKind?_of_mem_listTable hmem
    rw [trim_of_parse_parameterized hshape (List.mem_singleton_self element), ← hkind] at hscalar
    obtain ⟨type, helement, heq⟩ := exists_hasType_scalar hscalar
    rw [helement.type_eq, Option.map_some, Option.some.injEq] at hargument
    rw [heq, hargument]
  · refine ⟨_, Command.hasType_typed (by decide) element, ?_⟩
    apply declares_of_parse_parameterized hshape rfl
  · refine ⟨_, Command.hasType_typed (by decide) element, ?_⟩
    apply declares_of_parse_parameterized hshape rfl

/-- The command of a type is of the declared type. -/
theorem exists_hasType_resolve (t : Text) :
  ∃ type, (r.resolve t).HasType type ∧ Declares t type
  := by
  rcases r.resolve_cases t with ⟨kind, hkind, hr⟩ | hr | ⟨element, hshape, hr⟩
    | ⟨base, element, hshape, hr⟩ | hr | hr
  · rw [hr]
    obtain ⟨type, htype, heq⟩ := exists_hasType_scalar hkind
    use type, htype
    apply Declares.name (Spaced.trim t) heq
  · use Text.trim t, hasType_framework hr
    apply declares_trim
  · apply exists_hasType_of_array hshape hr
  · apply r.exists_hasType_of_container hshape hr
  · rw [hr]
    use Text.trim t, Command.hasType_typed (by decide) _
    apply declares_trim
  · rw [hr]
    use Text.trim t, Command.hasType_typed (by decide) _
    apply declares_trim

/-- The command of a type carries a type argument if its kind needs one.  Its retrieval is that of
an expression, and the text declares the type of this expression, which is the one that the kind
makes of the type argument. -/
theorem retrieval_has_declared_type (t : Text) :
  ((r.resolve t).typeArgument.isSome = true ↔ (r.resolve t).kind.style ≠ .direct)
    ∧ (∀ bundle key,
      (r.resolve t).retrieval bundle key = (r.resolve t).expression.render bundle key)
    ∧ ∃ type, (r.resolve t).expression.type? = some type
      ∧ (∀ argument, (r.resolve t).typeArgument = some argument →
        type = Command.retrievedType (r.resolve t).kind argument)
      ∧ Declares t type
  := by
  obtain ⟨type, htype, hdeclares⟩ := r.exists_hasType_resolve t
  use htype.isSome_iff
  constructor
  · apply (r.resolve t).retrieval_eq_render
  · use type, htype.type_eq
    constructor
    · intro argument hargument
      apply htype.eq_retrievedType hargument
    · apply hdeclares

end Resolver

end InstanceState
