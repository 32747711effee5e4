import InstanceState.Model.Basic
import Mathlib.Data.List.Basic

/-!
# Names in model documents

The type names of a model are those that its document writes, character by character.  A record has
its values under keys, or in the order of its keys; `writtenNames` collects the texts that stand
where a model has type names, and reading a document takes them over as they are.
-/

namespace InstanceState

/-- The value that a record has for one of its keys, which are given in order. -/
def Json.Value.entry? (keys : List Text) (key : Text) : Json.Value → Option Json.Value
  | .object entries => entries.lookup (some key)
  | .array items => (keys.zip items).lookup key
  | _ => none

/-- The names of a declared type: its own and those of its supertypes. -/
def DeclaredType.names (d : DeclaredType) : List TypeName := d.name :: d.supertypes

namespace Model

/-- The type names of a model. -/
def typeNames (m : Model) : List TypeName :=
  m.types.flatMap DeclaredType.names ++ m.fields.map Field.owner

/-! ### Written names -/

/-- The text that a record has for a key, if it has one. -/
def textsAt (keys : List Text) (key : Text) (v : Json.Value) : List Text :=
  ((v.entry? keys key).bind text?).toList

/-- The items of the array that a record has for a key, if it has one. -/
def itemsAt (keys : List Text) (key : Text) (v : Json.Value) : List Json.Value :=
  match v.entry? keys key with
  | some (.array items) => items
  | _ => []

/-- The texts that the value of a declared type has for names. -/
def writtenTypeNames (v : Json.Value) : List Text :=
  textsAt typeKeys "name" v ++ textsAt typeKeys "superclass" v
    ++ (itemsAt typeKeys "interfaces" v).filterMap text?

/-- The texts that the value of a model has for type names. -/
def writtenNames (v : Json.Value) : List Text :=
  (itemsAt modelKeys "types" v).flatMap writtenTypeNames
    ++ (itemsAt modelKeys "fields" v).flatMap (textsAt fieldKeys "enclosing_type")

/-! ### Records -/

section Records

variable {keys : List Text} {key : Text} {closed : Bool} {given : Given} {v : Json.Value}

/-- One more entry gives its key a value, unless the key has one. -/
theorem lookup_giveEntry {given' : Given} {e : Option Text × Json.Value} (hkey : key ∈ keys)
    (h : giveEntry keys closed given e = some given') :
  given'.lookup key = (given.lookup key).or (if e.1 = some key then some e.2 else none)
  := by
  obtain ⟨_ | k, v⟩ := e
  · contradiction
  · rw [giveEntry] at h
    by_cases hk : k ∈ keys
    · rw [if_pos (List.contains_iff_mem.2 hk)] at h
      split at h
      · contradiction
      · cases h
        rw [List.lookup_append, List.lookup_cons, List.lookup_nil]
        by_cases heq : k = key
        · rw [beq_iff_eq.2 heq.symm, if_pos (congrArg some heq)]
        · rw [beq_eq_false_iff_ne.2 (Ne.symm heq), if_neg (mt Option.some.inj heq)]
    · rw [if_neg (mt List.contains_iff_mem.1 hk)] at h
      have hne : k ≠ key := by
        rintro rfl
        contradiction
      split at h
      · contradiction
      · cases h
        rw [if_neg (mt Option.some.inj hne), Option.or_none]

/-- After the entries a key has the value that the first entry of the key gives. -/
theorem lookup_foldlM_giveEntry {entries : List (Option Text × Json.Value)} {given' : Given}
    (hkey : key ∈ keys) (h : entries.foldlM (giveEntry keys closed) given = some given') :
  given'.lookup key = (given.lookup key).or (entries.lookup (some key))
  := by
  induction entries generalizing given with
  | nil =>
    cases h
    rw [List.lookup_nil, Option.or_none]
  | cons e entries ih =>
    rw [List.foldlM_cons] at h
    obtain ⟨next, hnext, hrest⟩ := Option.bind_eq_some_iff.1 h
    obtain ⟨k, v⟩ := e
    rw [ih hrest, lookup_giveEntry hkey hnext, Option.or_assoc, List.lookup_cons]
    by_cases hk : k = some key
    · rw [if_pos hk, beq_iff_eq.2 hk.symm, Option.some_or]
    · rw [if_neg hk, beq_eq_false_iff_ne.2 (Ne.symm hk), Option.none_or]

theorem lookup_record? (hkey : key ∈ keys) (h : record? keys closed v = some given) :
  given.lookup key = v.entry? keys key
  := by
  cases v with
  | object entries =>
    rw [record?] at h
    rw [lookup_foldlM_giveEntry hkey h, List.lookup_nil, Option.none_or]
    rfl
  | array items =>
    rw [record?] at h
    split at h
    · cases h
      rfl
    · contradiction
  | null => contradiction
  | boolean b => contradiction
  | number lexeme => contradiction
  | string t => contradiction

/-- A name that must be given is the text that is written for it. -/
theorem textsAt_of_required? {n : TypeName} (hkey : key ∈ keys)
    (h : record? keys closed v = some given) (hn : required? given key typeName? = some n) :
  textsAt keys key v = [n.text]
  := by
  rw [required?, lookup_record? hkey h] at hn
  obtain ⟨w, hw, hname⟩ := Option.bind_eq_some_iff.1 hn
  obtain ⟨t, ht, rfl⟩ := Option.map_eq_some_iff.1 hname
  rw [textsAt, hw, Option.bind_some, ht, Option.toList_some]

theorem text?_of_nullableText? {w : Json.Value} {t? : Option Text} (h : nullableText? w = some t?) :
  text? w = t?
  := by
  cases w with
  | null =>
    cases h
    rfl
  | string t =>
    obtain ⟨t, ht, rfl⟩ := Option.map_eq_some_iff.1 h
    exact ht
  | _ => contradiction

/-- A text that may be left out or null is the one that is written. -/
theorem textsAt_of_optional? {t? : Option Text} (hkey : key ∈ keys)
    (h : record? keys closed v = some given)
    (ht : optional? given key none nullableText? = some t?) :
  textsAt keys key v = t?.toList
  := by
  rw [optional?, lookup_record? hkey h] at ht
  rw [textsAt]
  cases hw : v.entry? keys key with
  | none =>
    rw [hw] at ht
    cases ht
    rfl
  | some w =>
    rw [hw] at ht
    rw [Option.bind_some, text?_of_nullableText? ht]

/-- A list that may be left out has the items that are written, each decoded. -/
theorem mapM_itemsAt {α : Type} {decode : Json.Value → Option α} {as : List α} (hkey : key ∈ keys)
    (h : record? keys closed v = some given)
    (has : optional? given key [] (list? decode) = some as) :
  (itemsAt keys key v).mapM decode = some as
  := by
  rw [optional?, lookup_record? hkey h] at has
  rw [itemsAt]
  cases hw : v.entry? keys key with
  | none =>
    rw [hw] at has
    cases has
    rfl
  | some w =>
    rw [hw] at has
    cases w with
    | array items => exact has
    | _ => contradiction

end Records

/-- What each item gives after it is decoded, all the items give. -/
theorem flatMap_of_mapM {α β γ : Type} {decode : α → Option β} {f : α → List γ} {g : β → List γ}
    (h : ∀ {a b}, decode a = some b → f a = g b) {as : List α} {bs : List β}
    (hbs : as.mapM decode = some bs) :
  as.flatMap f = bs.flatMap g
  := by
  induction as generalizing bs with
  | nil =>
    cases hbs
    rfl
  | cons a as ih =>
    rw [List.mapM_cons] at hbs
    obtain ⟨b, hb, hrest⟩ := Option.bind_eq_some_iff.1 hbs
    obtain ⟨bs', hbs', heq⟩ := Option.bind_eq_some_iff.1 hrest
    cases heq
    rw [List.flatMap_cons, List.flatMap_cons, h hb, ih hbs']

/-! ### Names that are read -/

theorem writtenTypeNames_of_declaredType? {v : Json.Value} {d : DeclaredType}
    (h : declaredType? v = some d) :
  writtenTypeNames v = d.names.map TypeName.text
  := by
  obtain ⟨given, hgiven, h⟩ := Option.bind_eq_some_iff.1 h
  obtain ⟨name, hname, h⟩ := Option.bind_eq_some_iff.1 h
  obtain ⟨superclass, hsuperclass, h⟩ := Option.bind_eq_some_iff.1 h
  obtain ⟨interfaces, hinterfaces, h⟩ := Option.bind_eq_some_iff.1 h
  cases h
  have htexts : (itemsAt typeKeys "interfaces" v).filterMap text?
      = interfaces.map TypeName.text := by
    rw [List.filterMap_eq_flatMap_toList, List.map_eq_flatMap]
    apply flatMap_of_mapM _ (mapM_itemsAt (by decide) hgiven hinterfaces)
    intro w n hn
    obtain ⟨t, ht, rfl⟩ := Option.map_eq_some_iff.1 hn
    rw [ht, Option.toList_some]
  rw [writtenTypeNames, textsAt_of_required? (by decide) hgiven hname,
    textsAt_of_optional? (by decide) hgiven hsuperclass, htexts, DeclaredType.names,
    DeclaredType.supertypes]
  cases superclass <;> simp

theorem textsAt_of_field? {v : Json.Value} {f : Field} (h : field? v = some f) :
  textsAt fieldKeys "enclosing_type" v = [f.owner.text]
  := by
  obtain ⟨given, hgiven, h⟩ := Option.bind_eq_some_iff.1 h
  obtain ⟨name, -, h⟩ := Option.bind_eq_some_iff.1 h
  obtain ⟨declaredType, -, h⟩ := Option.bind_eq_some_iff.1 h
  obtain ⟨owner, howner, h⟩ := Option.bind_eq_some_iff.1 h
  obtain ⟨package, -, h⟩ := Option.bind_eq_some_iff.1 h
  obtain ⟨modifiers, -, h⟩ := Option.bind_eq_some_iff.1 h
  cases h
  apply textsAt_of_required? (by decide) hgiven howner

/-- The type names of a model are the texts that its value has for them. -/
theorem writtenNames_of_ofValue? {v : Json.Value} {m : Model} (h : ofValue? v = some m) :
  writtenNames v = m.typeNames.map TypeName.text
  := by
  obtain ⟨given, hgiven, h⟩ := Option.bind_eq_some_iff.1 h
  obtain ⟨types, htypes, h⟩ := Option.bind_eq_some_iff.1 h
  obtain ⟨fields, hfields, h⟩ := Option.bind_eq_some_iff.1 h
  cases h
  have htypeNames := flatMap_of_mapM writtenTypeNames_of_declaredType?
    (mapM_itemsAt (by decide) hgiven htypes)
  have howners := flatMap_of_mapM textsAt_of_field? (mapM_itemsAt (by decide) hgiven hfields)
  rw [writtenNames, htypeNames, howners, typeNames, List.map_append, List.map_flatMap, List.map_map]
  simp [List.map_eq_flatMap]

end Model

end InstanceState
