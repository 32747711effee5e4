import InstanceState.Model.Encoding
import InstanceState.Proofs.Json.Spelling
import Mathlib.Data.List.Nodup

/-!
# Models and their documents

A model is read back from every document of the value that describes it, whatever spellings the
document has for the texts of the model.  What is empty or absent is left out of the value, and has
the default that it is left out for; an empty text is not left out.
-/

namespace InstanceState

theorem Modifiers.ofList_toList (ms : Modifiers) :
  ofList ms.toList = ms
  := by
  obtain ⟨isFinal, isPrivate, isStatic⟩ := ms
  cases isFinal <;> cases isPrivate <;> cases isStatic <;> rfl

/-! ### Records -/

namespace Model

open Json

section Records

variable {keys : List Text} {key : Text} {closed : Bool} {given : Given}

/-- The entries of different keys of a record are all given, in their order. -/
theorem foldlM_giveEntry {fields : List (Text × Value)} (hkeys : ∀ f ∈ fields, f.1 ∈ keys)
    (hnodup : ((given ++ fields).map Prod.fst).Nodup) :
  (fields.map fun f => (some f.1, f.2)).foldlM (giveEntry keys closed) given
    = some (given ++ fields)
  := by
  induction fields generalizing given with
  | nil =>
    rw [List.append_nil]
    rfl
  | cons f fields ih =>
    have hfresh : given.lookup f.1 = none := by
      rw [List.map_append, List.map_cons] at hnodup
      rw [List.lookup_eq_none_iff]
      intro f' hf'
      rw [bne_iff_ne]
      intro heq
      apply (List.nodup_append.1 hnodup).2.2 _ (List.mem_map_of_mem hf') _ List.mem_cons_self
      exact heq.symm
    have hgiven : giveEntry keys closed given (some f.1, f.2) = some (given ++ [f]) := by
      rw [giveEntry, if_pos (List.contains_iff_mem.2 (hkeys f List.mem_cons_self)), hfresh]
      rfl
    rw [List.append_cons] at hnodup
    have hrest := ih (fun f' hf' => hkeys f' (List.mem_cons_of_mem f hf')) hnodup
    rw [← List.append_cons] at hrest
    rw [List.map_cons, List.foldlM_cons, hgiven]
    exact hrest

theorem lookup_entryOf (key key' : Text) (v : Option Value) :
  (entryOf key' v).lookup key = if key = key' then v else none
  := by
  cases v with
  | none => exact (ite_self none).symm
  | some v =>
    rw [entryOf, Option.toList_some, List.map_singleton, List.lookup_cons, List.lookup_nil]
    by_cases h : key = key'
    · rw [if_pos h, beq_iff_eq.2 h]
    · rw [if_neg h, beq_eq_false_iff_ne.2 h]

/-- A record that has a value for some of its keys. -/
def recordOf (entries : List (Text × Option Value)) : List (Text × Value) :=
  entries.flatMap fun e => entryOf e.1 e.2

theorem map_fst_recordOf_sublist (entries : List (Text × Option Value)) :
  ((recordOf entries).map Prod.fst).Sublist (entries.map Prod.fst)
  := by
  induction entries with
  | nil => exact .slnil
  | cons e entries ih =>
    obtain ⟨key, v⟩ := e
    cases v with
    | none => exact ih.cons key
    | some v => exact ih.cons_cons key

/-- The values of a record are given as they are, and the keys without a value are left out. -/
theorem record?_recordOf {entries : List (Text × Option Value)}
    (hkeys : entries.map Prod.fst = keys) (hnodup : keys.Nodup) :
  record? keys closed (.ofFields (recordOf entries)) = some (recordOf entries)
  := by
  have hsublist := map_fst_recordOf_sublist entries
  rw [hkeys] at hsublist
  apply foldlM_giveEntry
  · intro f hf
    exact hsublist.subset (List.mem_map_of_mem hf)
  · exact hnodup.sublist hsublist

theorem lookup_recordOf {entries : List (Text × Option Value)} {v : Option Value}
    (hnodup : (entries.map Prod.fst).Nodup) (h : (key, v) ∈ entries) :
  (recordOf entries).lookup key = v
  := by
  induction entries with
  | nil => contradiction
  | cons e entries ih =>
    rw [List.map_cons, List.nodup_cons] at hnodup
    obtain ⟨hfresh, hnodup⟩ := hnodup
    rw [recordOf, List.flatMap_cons, List.lookup_append]
    rcases List.mem_cons.1 h with rfl | h
    · have hrest : (recordOf entries).lookup key = none := by
        rw [List.lookup_eq_none_iff]
        intro f hf
        rw [bne_iff_ne]
        rintro rfl
        exact hfresh ((map_fst_recordOf_sublist entries).subset (List.mem_map_of_mem hf))
      rw [← recordOf, hrest, Option.or_none, lookup_entryOf, if_pos rfl]
    · have hne : key ≠ e.1 := by
        rintro rfl
        exact hfresh (List.mem_map.2 ⟨_, h, rfl⟩)
      rw [lookup_entryOf, if_neg hne, Option.none_or]
      exact ih hnodup h

theorem required?_of_lookup {α : Type} {decode : Value → Option α} {v : Value} {a : α}
    (hlookup : given.lookup key = some v) (hdecode : decode v = some a) :
  required? given key decode = some a
  := by
  rw [required?, hlookup, Option.bind_some, hdecode]

/-- A text that may be left out is the one that is given, and none if it is left out. -/
theorem optional?_nullableText? {t : Option Text} (hlookup : given.lookup key = t.map .ofText) :
  optional? given key none nullableText? = some t
  := by
  rw [optional?, hlookup]
  cases t <;> rfl

theorem mapM_map {α β : Type} {encode : α → β} {decode : β → Option α}
    (h : ∀ a, decode (encode a) = some a) (as : List α) :
  (as.map encode).mapM decode = some as
  := by
  induction as with
  | nil => rfl
  | cons a as ih =>
    rw [List.map_cons, List.mapM_cons, h, ih]
    rfl

/-- A list that is left out if it is empty. -/
theorem optional?_list? {α : Type} {encode : α → Value} {decode : Value → Option α} {as : List α}
    (hlookup : given.lookup key = nonemptyArray? (as.map encode))
    (hdecode : ∀ a, decode (encode a) = some a) :
  optional? given key [] (list? decode) = some as
  := by
  rw [optional?, hlookup]
  cases as with
  | nil => rfl
  | cons a as => exact mapM_map hdecode (a :: as)

end Records

/-! ### Decoding what is encoded -/

/-- What a declared type has under its keys. -/
def typeEntries (d : DeclaredType) : List (Text × Option Value) :=
  [("name", some (.ofText d.name.text)),
   ("superclass", (d.superclass.map TypeName.text).map .ofText),
   ("interfaces", nonemptyArray? (d.interfaces.map fun s => .ofText s.text))]

/-- What a field has under its keys. -/
def fieldEntries (f : Field) : List (Text × Option Value) :=
  [("name", some (.ofText f.name)),
   ("declared_type", some (.ofText f.declaredType)),
   ("enclosing_type", some (.ofText f.owner.text)),
   ("package", f.package.map .ofText),
   ("modifiers", nonemptyArray? (f.modifiers.toList.map fun m => .ofText m.keyword))]

/-- What a model has under its keys. -/
def modelEntries (m : Model) : List (Text × Option Value) :=
  [("types", some (.array (m.types.map typeValue))),
   ("fields", some (.array (m.fields.map fieldValue)))]

theorem typeValue_eq (d : DeclaredType) :
  typeValue d = .ofFields (recordOf (typeEntries d))
  := by
  simp [typeValue, recordOf, typeEntries, Function.comp_def]

theorem fieldValue_eq (f : Field) :
  fieldValue f = .ofFields (recordOf (fieldEntries f))
  := by
  simp [fieldValue, recordOf, fieldEntries]

theorem toValue_eq (m : Model) :
  m.toValue = .ofFields (recordOf (modelEntries m))
  := by
  simp [toValue, recordOf, modelEntries]

theorem declaredType?_typeValue (d : DeclaredType) :
  declaredType? (typeValue d) = some d
  := by
  have hnodup : ((typeEntries d).map Prod.fst).Nodup := show typeKeys.Nodup by decide
  have hgiven : record? typeKeys false (typeValue d) = some (recordOf (typeEntries d)) := by
    rw [typeValue_eq]
    exact record?_recordOf rfl hnodup
  have hname : required? (recordOf (typeEntries d)) "name" typeName? = some d.name :=
    required?_of_lookup (lookup_recordOf hnodup (.head _)) rfl
  have hsuperclass : optional? (recordOf (typeEntries d)) "superclass" none nullableText?
      = some (d.superclass.map TypeName.text) :=
    optional?_nullableText? (lookup_recordOf hnodup (.tail _ (.head _)))
  have hinterfaces : optional? (recordOf (typeEntries d)) "interfaces" [] (list? typeName?)
      = some d.interfaces :=
    optional?_list? (lookup_recordOf hnodup (.tail _ (.tail _ (.head _)))) fun _ => rfl
  simp only [declaredType?, hgiven, hname, hsuperclass, hinterfaces, Option.bind_eq_bind,
    Option.bind_some, Option.pure_def, Option.map_map]
  have hid : TypeName.mk ∘ TypeName.text = id := rfl
  rw [hid, Option.map_id]
  rfl

theorem modifier?_ofText_keyword (m : Modifier) :
  modifier? (.ofText m.keyword) = some m
  := by
  cases m <;> decide

theorem field?_fieldValue (f : Field) :
  field? (fieldValue f) = some f
  := by
  have hnodup : ((fieldEntries f).map Prod.fst).Nodup := show fieldKeys.Nodup by decide
  have hgiven : record? fieldKeys false (fieldValue f) = some (recordOf (fieldEntries f)) := by
    rw [fieldValue_eq]
    exact record?_recordOf rfl hnodup
  have hname : required? (recordOf (fieldEntries f)) "name" text? = some f.name :=
    required?_of_lookup (lookup_recordOf hnodup (.head _)) rfl
  have htype : required? (recordOf (fieldEntries f)) "declared_type" text?
      = some f.declaredType :=
    required?_of_lookup (lookup_recordOf hnodup (.tail _ (.head _))) rfl
  have howner : required? (recordOf (fieldEntries f)) "enclosing_type" typeName?
      = some f.owner :=
    required?_of_lookup (lookup_recordOf hnodup (.tail _ (.tail _ (.head _)))) rfl
  have hpackage : optional? (recordOf (fieldEntries f)) "package" none nullableText?
      = some f.package :=
    optional?_nullableText? (lookup_recordOf hnodup (.tail _ (.tail _ (.tail _ (.head _)))))
  have hmodifiers : optional? (recordOf (fieldEntries f)) "modifiers" [] (list? modifier?)
      = some f.modifiers.toList :=
    optional?_list?
      (lookup_recordOf hnodup (.tail _ (.tail _ (.tail _ (.tail _ (.head _))))))
      modifier?_ofText_keyword
  simp only [field?, hgiven, hname, htype, howner, hpackage, hmodifiers, Option.bind_eq_bind,
    Option.bind_some, Option.pure_def, Modifiers.ofList_toList]

/-- A model is what the value that describes it describes. -/
theorem ofValue?_toValue (m : Model) :
  ofValue? m.toValue = some m
  := by
  have hnodup : ((modelEntries m).map Prod.fst).Nodup := show modelKeys.Nodup by decide
  have hgiven : record? modelKeys true m.toValue = some (recordOf (modelEntries m)) := by
    rw [toValue_eq]
    exact record?_recordOf rfl hnodup
  have htypes : optional? (recordOf (modelEntries m)) "types" [] (list? declaredType?)
      = some m.types := by
    rw [optional?, lookup_recordOf hnodup (.head _)]
    exact mapM_map declaredType?_typeValue m.types
  have hfields : optional? (recordOf (modelEntries m)) "fields" [] (list? field?)
      = some m.fields := by
    rw [optional?, lookup_recordOf hnodup (.tail _ (.head _))]
    exact mapM_map field?_fieldValue m.fields
  simp only [ofValue?, hgiven, htypes, hfields, Option.bind_eq_bind, Option.bind_some,
    Option.pure_def]

/-! ### Documents -/

theorem spells_write_recordOf {entries : List (Text × Option Value)}
    (h : ∀ e ∈ entries, ∀ v, e.2 = some v → Spells (.value v) v.write) :
  Spells (.value (.ofFields (recordOf entries))) (Value.ofFields (recordOf entries)).write
  := by
  apply spells_write_ofFields
  intro f hf
  obtain ⟨e, he, hmem⟩ := List.mem_flatMap.1 hf
  obtain ⟨v, hv, rfl⟩ := List.mem_map.1 hmem
  exact h e he v (Option.mem_toList.1 hv)

/-- An array of texts that is left out if it is empty. -/
theorem spells_write_texts {α : Type} (text : α → Text) (as : List α) {v : Value}
    (h : nonemptyArray? (as.map fun a => .ofText (text a)) = some v) :
  Spells (.value v) v.write
  := by
  rw [nonemptyArray?] at h
  split at h
  · contradiction
  · cases h
    apply spells_write_array
    intro v hv
    obtain ⟨a, -, rfl⟩ := List.mem_map.1 hv
    exact spells_write_ofText (text a)

theorem spells_write_typeValue (d : DeclaredType) :
  Spells (.value (typeValue d)) (typeValue d).write
  := by
  rw [typeValue_eq]
  apply spells_write_recordOf
  intro e he v hv
  simp only [typeEntries, List.mem_cons, List.not_mem_nil, or_false] at he
  rcases he with rfl | rfl | rfl
  · cases hv
    exact spells_write_ofText d.name.text
  · obtain ⟨t, -, rfl⟩ := Option.map_eq_some_iff.1 hv
    exact spells_write_ofText t
  · exact spells_write_texts TypeName.text d.interfaces hv

theorem spells_write_fieldValue (f : Field) :
  Spells (.value (fieldValue f)) (fieldValue f).write
  := by
  rw [fieldValue_eq]
  apply spells_write_recordOf
  intro e he v hv
  simp only [fieldEntries, List.mem_cons, List.not_mem_nil, or_false] at he
  rcases he with rfl | rfl | rfl | rfl | rfl
  · cases hv
    exact spells_write_ofText f.name
  · cases hv
    exact spells_write_ofText f.declaredType
  · cases hv
    exact spells_write_ofText f.owner.text
  · obtain ⟨t, -, rfl⟩ := Option.map_eq_some_iff.1 hv
    exact spells_write_ofText t
  · exact spells_write_texts Modifier.keyword f.modifiers.toList hv

/-- What is written for a model is a document of it. -/
theorem isDocument_write (m : Model) :
  Json.IsDocument m.toValue m.write
  := by
  have hspells : Spells (.value m.toValue) m.toValue.write := by
    rw [toValue_eq]
    apply spells_write_recordOf
    intro e he v hv
    simp only [modelEntries, List.mem_cons, List.not_mem_nil, or_false] at he
    rcases he with rfl | rfl
    · cases hv
      apply spells_write_array
      intro v hv
      obtain ⟨d, -, rfl⟩ := List.mem_map.1 hv
      exact spells_write_typeValue d
    · cases hv
      apply spells_write_array
      intro v hv
      obtain ⟨f, -, rfl⟩ := List.mem_map.1 hv
      exact spells_write_fieldValue f
  exact ⟨[], m.write, [], by rw [List.append_nil]; rfl, areBlanks_nil, hspells, areBlanks_nil⟩

/-- A model is read back from each of its documents, of which the written one is one.  So no text
is a document of two models: what one of them leaves out the other does, and where one has an empty
text the other has too. -/
theorem documents_read_back (m : Model) :
  (∀ t, Json.IsDocument m.toValue t → parse t = some m)
    ∧ Json.IsDocument m.toValue m.write
    ∧ ∀ (m' : Model) (t : Text), Json.IsDocument m.toValue t → Json.IsDocument m'.toValue t →
      m' = m
  := by
  have hparse : ∀ (m : Model) (t : Text), Json.IsDocument m.toValue t → parse t = some m := by
    intro m t ht
    rw [parse, parse_of_isDocument ht, Option.bind_some, ofValue?_toValue]
  refine ⟨hparse m, m.isDocument_write, ?_⟩
  intro m' t ht ht'
  have heq := hparse m t ht
  rw [hparse m' t ht'] at heq
  exact Option.some.inj heq

/-- A model of one type, whose superclass is an empty text. -/
def grinning : Model where
  types := [⟨⟨"😀/"⟩, some ⟨[]⟩, []⟩]

/-- A document in which the name of the type is spelled by three escapes. -/
def grinningDocument : Text :=
  "\x7b\"types\": [\x7b\"name\": \"\\ud83D\\uDE00\\/\",\n\"superclass\": \"\"\x7d],\"fields\":[ ]\x7d\n"

theorem isDocument_grinning :
  Json.IsDocument grinning.toValue grinningDocument
  := by
  have hhigh : SpellsUnit 0xD83D "\\ud83D" :=
    @SpellsUnit.digits 13 8 3 13 'd' '8' '3' 'D' ⟨_, .head _, rfl⟩ ⟨_, .head _, rfl⟩
      ⟨_, .head _, rfl⟩ ⟨_, .tail _ (.head _), rfl⟩
  have hlow : SpellsUnit 0xDE00 "\\uDE00" :=
    @SpellsUnit.digits 13 14 0 0 'D' 'E' '0' '0' ⟨_, .tail _ (.head _), rfl⟩
      ⟨_, .tail _ (.head _), rfl⟩ ⟨_, .head _, rfl⟩ ⟨_, .head _, rfl⟩
  have hunits : Utf16.encodeChar '😀' = [0xD83D, 0xDE00] := by
    decide
  have hslash : SpellsChar '/' "\\/" := .letter (by decide)
  have hname : SpellsText "😀/" "\\ud83D\\uDE00\\/" :=
    .cons (.pair hunits hhigh hlow) (.cons hslash .nil)
  have hspace : AreBlanks [' '] := by
    simp [AreBlanks]
  have hnewline : AreBlanks ['\n'] := by
    simp [AreBlanks]
  have htype : Spells (.value (typeValue ⟨⟨"😀/"⟩, some ⟨[]⟩, []⟩)) _ :=
    .object areBlanks_nil
      (.entry (spellsText_flatMap_escape "name") areBlanks_nil hspace (.string hname) areBlanks_nil
        hnewline
        (.lastEntry (spellsText_flatMap_escape "superclass") areBlanks_nil hspace (.string .nil)
          areBlanks_nil))
  have hmodel : Spells (.value grinning.toValue) _ :=
    .object areBlanks_nil
      (.entry (spellsText_flatMap_escape "types") areBlanks_nil hspace
        (.array areBlanks_nil (.lastItem htype areBlanks_nil)) areBlanks_nil areBlanks_nil
        (.lastEntry (spellsText_flatMap_escape "fields") areBlanks_nil areBlanks_nil
          (.emptyArray hspace) areBlanks_nil))
  exact ⟨[], _, ['\n'], rfl, areBlanks_nil, hmodel, hnewline⟩

/-- The escapes are read back, and so is the empty superclass: the document is none of the model
that has no superclass. -/
theorem grinning_read_back :
  Json.IsDocument grinning.toValue grinningDocument
    ∧ parse grinningDocument = some grinning
    ∧ ¬ Json.IsDocument ({ types := [⟨⟨"😀/"⟩, none, []⟩] } : Model).toValue grinningDocument
  := by
  obtain ⟨hparse, -, hunique⟩ := documents_read_back grinning
  use isDocument_grinning, hparse grinningDocument isDocument_grinning
  intro hnone
  have hsame := hunique _ grinningDocument isDocument_grinning hnone
  revert hsame
  decide

end Model

end InstanceState
