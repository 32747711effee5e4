import InstanceState.Proofs.Source.Keys
import InstanceState.Proofs.Source.Statements
import Mathlib.Logic.Function.Basic

/-!
# Running the methods of a companion

What the statements of a companion do to a target, to the bundles in its local variables and to the
state of the parent class.  A bundle is anything whose accessors give back what was stored last.
The fields that the saving method stores, the restoring method reads back.
-/

namespace InstanceState

/-- Bundles of values.  An accessor is the common ending of the names of two methods, and values
are stored under strings. -/
structure Bundles (β ν : Type) where
  empty : β
  put : Text → Units → ν → β → β
  get : Text → Units → β → ν
  /-- The value that a bundle is. -/
  ofBundle : β → ν
  /-- The bundle that a value is, if it is one. -/
  bundle? : ν → Option β
  bundle?_ofBundle : ∀ b, bundle? (ofBundle b) = some b
  /-- What is stored can be read back by the same accessor. -/
  get_put_self : ∀ accessor key v b, get accessor key (put accessor key v b) = v
  /-- What is stored under one key changes nothing under another. -/
  get_put_of_ne : ∀ accessor accessor' key key' v b,
    key' ≠ key → get accessor' key' (put accessor key v b) = get accessor' key' b

/-- The target and the variables of a method while it runs. -/
structure Frame (β ν : Type) where
  /-- The fields of the target. -/
  target : Text → ν
  /-- The state that the method is given, if it is given one. -/
  state : Option ν
  outState : Option β
  savedInstanceState : Option β

/-- What a statement leaves. -/
inductive Progress (β ν : Type) where
  | ongoing (frame : Frame β ν)
  /-- The method has returned, perhaps with a value. -/
  | returned (frame : Frame β ν) (value : Option ν)

section

variable {β ν : Type} (bundles : Bundles β ν) (constants : List Text)

/-- The run of a statement, where the lines declare the constants.  There is no outcome if a
variable does not hold what the statement needs, or if its key denotes no string.  A cast and a
witness leave the value as it is. -/
def Statement.run (frame : Frame β ν) : Statement → Option (Progress β ν)
  | newBundle => some (.ongoing { frame with outState := some bundles.empty })
  | storeState accessor key => do
    let key ← expressionValue? constants key
    let state ← frame.state
    let out ← frame.outState
    return .ongoing { frame with outState := some (bundles.put accessor key state out) }
  | storeField accessor key name => do
    let key ← expressionValue? constants key
    let out ← frame.outState
    return .ongoing
      { frame with outState := some (bundles.put accessor key (frame.target name) out) }
  | returnBundle => do
    let out ← frame.outState
    return .returned frame (some (bundles.ofBundle out))
  | guardNull =>
    match frame.savedInstanceState with
    | none => some (.returned frame none)
    | some _ => some (.ongoing frame)
  | guardBundle => do
    let state ← frame.state
    match bundles.bundle? state with
    | none => return .returned frame (some state)
    | some _ => return .ongoing frame
  | castBundle => do
    let state ← frame.state
    let saved ← bundles.bundle? state
    return .ongoing { frame with savedInstanceState := some saved }
  | fetchField name _ _ accessor key => do
    let key ← expressionValue? constants key
    let saved ← frame.savedInstanceState
    return .ongoing
      { frame with target := Function.update frame.target name (bundles.get accessor key saved) }
  | returnState accessor key => do
    let key ← expressionValue? constants key
    let saved ← frame.savedInstanceState
    return .returned frame (some (bundles.get accessor key saved))

/-- The run of the statements of a method, up to the first that returns. -/
def runBody : List Statement → Frame β ν → Option (Progress β ν)
  | [], frame => some (.ongoing frame)
  | s :: rest, frame =>
    (s.run bundles constants frame).bind fun
      | .ongoing frame => runBody rest frame
      | .returned frame value => some (.returned frame value)

end

variable {β ν : Type} {bundles : Bundles β ν}

section

variable {constants : List Text} {s : Statement} {frame frame' : Frame β ν}

theorem runBody_of_ongoing (h : s.run bundles constants frame = some (.ongoing frame'))
    (rest : List Statement) :
  runBody bundles constants (s :: rest) frame = runBody bundles constants rest frame'
  := by
  rw [runBody, h, Option.bind_some]

theorem runBody_of_returned {value : Option ν}
    (h : s.run bundles constants frame = some (.returned frame' value)) (rest : List Statement) :
  runBody bundles constants (s :: rest) frame = some (.returned frame' value)
  := by
  rw [runBody, h, Option.bind_some]

end

namespace Companion

variable {c : Companion} {target fresh : Text → ν}

/-! ### Storing and reading back -/

/-- The string that the key of a field denotes. -/
def keyUnits (c : Companion) (f : SavedField) : Units := Utf16.encode (c.key f.name)

theorem keyUnits_inj {f f' : SavedField} (h : c.keyUnits f = c.keyUnits f') :
  f.name = f'.name
  := c.key_injective (Utf16.encode_injective h)

/-- The bundle after the fields are stored. -/
def stored (bundles : Bundles β ν) (c : Companion) (target : Text → ν) (fields : List SavedField)
    (b : β) : β :=
  fields.foldl (fun b f => bundles.put f.command.kind.accessor (c.keyUnits f) (target f.name) b) b

/-- The target after the fields are read back. -/
def fetched (bundles : Bundles β ν) (c : Companion) (b : β) (fields : List SavedField)
    (target : Text → ν) : Text → ν :=
  fields.foldl
    (fun target f =>
      Function.update target f.name (bundles.get f.command.kind.accessor (c.keyUnits f) b))
    target

theorem get_stored_of_ne {fields : List SavedField} {key : Units}
    (h : ∀ f ∈ fields, key ≠ c.keyUnits f) (accessor : Text) (b : β) :
  bundles.get accessor key (c.stored bundles target fields b) = bundles.get accessor key b
  := by
  induction fields generalizing b with
  | nil => rfl
  | cons f fields ih =>
    have hrest := ih fun f' hf' => h f' (List.mem_cons_of_mem _ hf')
    rw [stored, List.foldl_cons, ← stored, hrest,
      bundles.get_put_of_ne _ _ _ _ _ _ (h f List.mem_cons_self)]

/-- What was stored for a field is in the bundle, if no two fields have one name. -/
theorem get_stored_self {fields : List SavedField} (hnames : (fields.map SavedField.name).Nodup)
    {f : SavedField} (hf : f ∈ fields) (b : β) :
  bundles.get f.command.kind.accessor (c.keyUnits f) (c.stored bundles target fields b)
    = target f.name
  := by
  induction fields generalizing b with
  | nil => contradiction
  | cons f' fields ih =>
    rw [List.map_cons, List.nodup_cons] at hnames
    obtain ⟨hname, hnames⟩ := hnames
    rw [stored, List.foldl_cons, ← stored]
    rcases List.mem_cons.1 hf with rfl | hf
    -- The fields after it have other names, so their keys are others.
    · have hne : ∀ f' ∈ fields, c.keyUnits f ≠ c.keyUnits f' := by
        intro f' hf' h
        apply hname
        rw [keyUnits_inj h]
        apply List.mem_map_of_mem hf'
      rw [get_stored_of_ne hne, bundles.get_put_self]
    · apply ih hnames hf

theorem fetched_of_not_mem {fields : List SavedField} {name : Text}
    (h : name ∉ fields.map SavedField.name) (b : β) (target : Text → ν) :
  c.fetched bundles b fields target name = target name
  := by
  induction fields generalizing target with
  | nil => rfl
  | cons f fields ih =>
    rw [List.map_cons, List.mem_cons, not_or] at h
    rw [fetched, List.foldl_cons, ← fetched, ih h.2, Function.update_of_ne h.1]

theorem fetched_of_mem {fields : List SavedField} (hnames : (fields.map SavedField.name).Nodup)
    {f : SavedField} (hf : f ∈ fields) (b : β) (target : Text → ν) :
  c.fetched bundles b fields target f.name
    = bundles.get f.command.kind.accessor (c.keyUnits f) b
  := by
  induction fields generalizing target with
  | nil => contradiction
  | cons f' fields ih =>
    rw [List.map_cons, List.nodup_cons] at hnames
    obtain ⟨hname, hnames⟩ := hnames
    rw [fetched, List.foldl_cons, ← fetched]
    rcases List.mem_cons.1 hf with rfl | hf
    · rw [fetched_of_not_mem hname, Function.update_self]
    · apply ih hnames hf

/-- The fields that were stored are read back, and no other field of the target changes. -/
theorem fetched_stored {fields : List SavedField} (hnames : (fields.map SavedField.name).Nodup)
    (b : β) :
  c.fetched bundles (c.stored bundles target fields b) fields fresh
    = fun name => if name ∈ fields.map SavedField.name then target name else fresh name
  := by
  funext name
  split
  · rename_i h
    obtain ⟨f, hf, rfl⟩ := List.mem_map.1 h
    rw [fetched_of_mem hnames hf, get_stored_self hnames hf]
  · rename_i h
    rw [fetched_of_not_mem h]

/-! ### Runs of the methods -/

theorem run_storeOf (f : SavedField) {frame : Frame β ν} {b : β} (h : frame.outState = some b) :
  (c.storeOf f).run bundles c.constants frame
    = some (.ongoing { frame with
        outState :=
          some (bundles.put f.command.kind.accessor (c.keyUnits f) (frame.target f.name) b) })
  := by
  rw [storeOf, Statement.run, expressionValue?_keyExpression, h]
  rfl

theorem run_fetchOf (f : SavedField) {frame : Frame β ν} {b : β}
    (h : frame.savedInstanceState = some b) :
  (c.fetchOf f).run bundles c.constants frame
    = some (.ongoing { frame with
        target := Function.update frame.target f.name
          (bundles.get f.command.kind.accessor (c.keyUnits f) b) })
  := by
  rw [fetchOf, Statement.run, expressionValue?_keyExpression, h]
  rfl

theorem runBody_stores (fields : List SavedField) (rest : List Statement) {frame : Frame β ν}
    {b : β} (h : frame.outState = some b) :
  runBody bundles c.constants (fields.map c.storeOf ++ rest) frame
    = runBody bundles c.constants rest
      { frame with outState := some (c.stored bundles frame.target fields b) }
  := by
  induction fields generalizing frame b with
  | nil =>
    rw [stored, List.foldl_nil, ← h]
    rfl
  | cons f fields ih =>
    rw [List.map_cons, List.cons_append, runBody_of_ongoing (run_storeOf f h), ih rfl]
    rfl

theorem runBody_fetches (fields : List SavedField) (rest : List Statement) {frame : Frame β ν}
    {b : β} (h : frame.savedInstanceState = some b) :
  runBody bundles c.constants (fields.map c.fetchOf ++ rest) frame
    = runBody bundles c.constants rest
      { frame with target := c.fetched bundles b fields frame.target }
  := by
  induction fields generalizing frame with
  | nil => rfl
  | cons f fields ih =>
    rw [List.map_cons, List.cons_append, runBody_of_ongoing (run_fetchOf f h), ih]
    · rfl
    · exact h

/-- The string that the key of the parent's state denotes. -/
def superUnits (c : Companion) : Units := Utf16.encode c.superKey

/-- The frame in which the saving method begins.  A host is given a bundle, and a view the state of
its parent class. -/
def saveFrame (bundles : Bundles β ν) (c : Companion) (target : Text → ν) (given : ν) : Frame β ν :=
  match c.family with
  | .host => ⟨target, none, bundles.bundle? given, none⟩
  | .view => ⟨target, some given, none, none⟩

/-- What the saving method leaves for the restoring method: the bundle that it was given, or the
value that it returns. -/
def save (bundles : Bundles β ν) (c : Companion) (target : Text → ν) (given : ν) : Option ν :=
  match runBody bundles c.constants c.saveBody (c.saveFrame bundles target given) with
  | some (.ongoing frame) => frame.outState.map bundles.ofBundle
  | some (.returned _ value) => value
  | none => none

/-- The frame in which the restoring method begins. -/
def restoreFrame (bundles : Bundles β ν) (c : Companion) (target : Text → ν) (given : ν) :
    Frame β ν :=
  match c.family with
  | .host => ⟨target, none, none, bundles.bundle? given⟩
  | .view => ⟨target, some given, none, none⟩

/-- The target after the restoring method, and the value that the method returns, if it returns
one. -/
def restore (bundles : Bundles β ν) (c : Companion) (target : Text → ν) (given : ν) :
    Option ((Text → ν) × Option ν) :=
  match runBody bundles c.constants c.restoreBody (c.restoreFrame bundles target given) with
  | some (.ongoing frame) => some (frame.target, none)
  | some (.returned frame value) => some (frame.target, value)
  | none => none

/-- The bundle before the fields are stored: the one that is given, or a new one with the state of
the parent class. -/
def opened? (bundles : Bundles β ν) (c : Companion) (given : ν) : Option β :=
  match c.family with
  | .host => bundles.bundle? given
  | .view =>
    some (bundles.put (CommandKind.accessor .parcelable) c.superUnits given bundles.empty)

/-- The value that the restoring method returns when it has read a bundle. -/
def returned? (bundles : Bundles β ν) (c : Companion) (b : β) : Option ν :=
  match c.family with
  | .host => none
  | .view => some (bundles.get (CommandKind.accessor .parcelable) c.superUnits b)

theorem save_eq (c : Companion) (target : Text → ν) {given : ν} {b : β}
    (h : c.opened? bundles given = some b) :
  c.save bundles target given = some (bundles.ofBundle (c.stored bundles target c.fields b))
  := by
  rw [opened?] at h
  cases hfamily : c.family with
  | host =>
    rw [hfamily] at h
    have hbody : c.saveBody = c.fields.map c.storeOf ++ [] := by
      rw [saveBody, hfamily]
      rfl
    have hframe : (c.saveFrame bundles target given).outState = some b := by
      rw [saveFrame, hfamily]
      exact h
    have htarget : (c.saveFrame bundles target given).target = target := by
      rw [saveFrame, hfamily]
    rw [save, hbody, runBody_stores _ _ hframe, htarget]
    rfl
  | view =>
    rw [hfamily, Option.some.injEq] at h
    have hbody : c.saveBody = .newBundle :: .storeState (CommandKind.accessor .parcelable)
        Lifecycle.superKeyName :: (c.fields.map c.storeOf ++ [.returnBundle]) := by
      rw [saveBody, hfamily]
      rfl
    have hframe : c.saveFrame bundles target given = ⟨target, some given, none, none⟩ := by
      rw [saveFrame, hfamily]
    have hnew : Statement.newBundle.run bundles c.constants (c.saveFrame bundles target given)
        = some (.ongoing ⟨target, some given, some bundles.empty, none⟩) := by
      rw [hframe]
      rfl
    have hstate : (Statement.storeState (CommandKind.accessor .parcelable)
        Lifecycle.superKeyName).run bundles c.constants
          ⟨target, some given, some bundles.empty, none⟩
        = some (.ongoing ⟨target, some given, some b, none⟩) := by
      rw [Statement.run, expressionValue?_superKeyName hfamily, ← h]
      rfl
    rw [save, hbody, runBody_of_ongoing hnew, runBody_of_ongoing hstate, runBody_stores _ _ rfl]
    rfl

theorem restore_eq (c : Companion) (fresh : Text → ν) (b : β) :
  c.restore bundles fresh (bundles.ofBundle b)
    = some (c.fetched bundles b c.fields fresh, c.returned? bundles b)
  := by
  rw [returned?]
  have hbundle := bundles.bundle?_ofBundle b
  cases hfamily : c.family with
  | host =>
    have hbody : c.restoreBody = .guardNull :: (c.fields.map c.fetchOf ++ []) := by
      rw [restoreBody, hfamily]
      rfl
    have hframe : c.restoreFrame bundles fresh (bundles.ofBundle b)
        = ⟨fresh, none, none, some b⟩ := by
      rw [restoreFrame, hfamily, ← hbundle]
    have hguard : Statement.guardNull.run bundles c.constants ⟨fresh, none, none, some b⟩
        = some (.ongoing ⟨fresh, none, none, some b⟩) := rfl
    rw [restore, hbody, hframe, runBody_of_ongoing hguard, runBody_fetches _ _ rfl]
    rfl
  | view =>
    have hbody : c.restoreBody = .guardBundle :: .castBundle :: (c.fields.map c.fetchOf
        ++ [.returnState (CommandKind.accessor .parcelable) Lifecycle.superKeyName]) := by
      rw [restoreBody, hfamily]
      rfl
    have hframe : c.restoreFrame bundles fresh (bundles.ofBundle b)
        = ⟨fresh, some (bundles.ofBundle b), none, none⟩ := by
      rw [restoreFrame, hfamily]
    have hguard : Statement.guardBundle.run bundles c.constants
        ⟨fresh, some (bundles.ofBundle b), none, none⟩
        = some (.ongoing ⟨fresh, some (bundles.ofBundle b), none, none⟩) := by
      simp [Statement.run, hbundle]
    have hcast : Statement.castBundle.run bundles c.constants
        ⟨fresh, some (bundles.ofBundle b), none, none⟩
        = some (.ongoing ⟨fresh, some (bundles.ofBundle b), none, some b⟩) := by
      simp [Statement.run, hbundle]
    have hreturn : (Statement.returnState (CommandKind.accessor .parcelable)
        Lifecycle.superKeyName).run bundles c.constants
          ⟨c.fetched bundles b c.fields fresh, some (bundles.ofBundle b), none, some b⟩
        = some (.returned
          ⟨c.fetched bundles b c.fields fresh, some (bundles.ofBundle b), none, some b⟩
          (some (bundles.get (CommandKind.accessor .parcelable) c.superUnits b))) := by
      rw [Statement.run, expressionValue?_superKeyName hfamily]
      rfl
    rw [restore, hbody, hframe, runBody_of_ongoing hguard, runBody_of_ongoing hcast,
      runBody_fetches _ _ rfl, runBody_of_returned hreturn]

/-! ### Restoring what was saved -/

/-- The fields that were saved are read back into another target, and nothing else of it changes. -/
theorem restore_save (hnames : (c.fields.map SavedField.name).Nodup) {given : ν} {b : β}
    (h : c.opened? bundles given = some b) (target fresh : Text → ν) :
  (c.save bundles target given).bind (c.restore bundles fresh)
    = some (fun name => if name ∈ c.fields.map SavedField.name then target name else fresh name,
      c.returned? bundles (c.stored bundles target c.fields b))
  := by
  rw [c.save_eq target h, Option.bind_some, restore_eq, fetched_stored hnames]

/-- A view returns the state of its parent class, if no field is stored under the key of that
state. -/
theorem returned?_stored_of_ne (hfamily : c.family = .view)
    (hkeys : ∀ f ∈ c.fields, c.key f.name ≠ c.superKey) {state : ν} {b : β}
    (h : c.opened? bundles state = some b) (target : Text → ν) :
  c.returned? bundles (c.stored bundles target c.fields b) = some state
  := by
  have hne : ∀ f ∈ c.fields, c.superUnits ≠ c.keyUnits f := by
    intro f hf h
    apply hkeys f hf
    apply Utf16.encode_injective h.symm
  rw [opened?, hfamily, Option.some.injEq] at h
  rw [returned?, hfamily, ← h, get_stored_of_ne hne, bundles.get_put_self]

/-- A view returns the value of a field instead, if the field is stored as a parcelable under the
key of that state. -/
theorem returned?_stored_of_eq (hfamily : c.family = .view)
    (hnames : (c.fields.map SavedField.name).Nodup) {f : SavedField} (hf : f ∈ c.fields)
    (haccessor : f.command.kind.accessor = CommandKind.accessor .parcelable)
    (hkey : c.key f.name = c.superKey) (target : Text → ν) (b : β) :
  c.returned? bundles (c.stored bundles target c.fields b) = some (target f.name)
  := by
  have hunits : c.superUnits = c.keyUnits f := by
    rw [superUnits, ← hkey, keyUnits]
  rw [returned?, hfamily, hunits, ← haccessor, get_stored_self hnames hf]

end Companion

end InstanceState
