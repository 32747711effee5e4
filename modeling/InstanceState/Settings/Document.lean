import InstanceState.Files.System
import InstanceState.Settings.Basic
import InstanceState.Toml.Reader

/-!
# Settings documents

Settings are read from a TOML document with the tables `generator` and `output`.  What a document
leaves out keeps its default, and what it should not hold makes it malformed.  The settings of a
table may also be given as an array, in their usual order.
-/

namespace InstanceState

/-- Why a settings document gives no settings. -/
inductive SettingsError where
  | unreadable (cause : FileError)
  | malformed
  | invalid (fault : SettingsFault)
deriving DecidableEq, Repr

/-- The error as it is reported for the document of a path. -/
def SettingsError.message (path : Path) : SettingsError → Text
  | .unreadable cause => "failed to read config '" ++ path ++ "': " ++ cause.message
  | .malformed => "failed to parse config '" ++ path ++ "': malformed document"
  | .invalid fault => fault.message

namespace Settings

/-! ### Entries -/

/-- The text that a value is. -/
def textOf? : Toml.Value → Option Text
  | .text t => some t
  | _ => none

/-- The generator settings with one more entry of their table. -/
def withGeneratorEntry (s : GeneratorSettings) (key : Text) (v : Toml.Value) :
    Option GeneratorSettings :=
  if key = ↑"suffix" then (textOf? v).map fun suffix => { s with suffix }
  else if key = ↑"namespace_keys" then
    match v with
    | .boolean namespaceKeys => some { s with namespaceKeys }
    | _ => none
  else if key = ↑"view_bases" then
    match v with
    | .array items => (items.mapM textOf?).map fun viewBases => { s with viewBases }
    | _ => none
  else if key = ↑"parcelable_base" then
    (textOf? v).map fun parcelableBase => { s with parcelableBase }
  else none

/-- The keys of the generator settings, in their usual order. -/
def generatorKeys : List Text := ["suffix", "namespace_keys", "view_bases", "parcelable_base"]

/-- The generator settings of a value. -/
def generatorOf? : Toml.Value → Option GeneratorSettings
  | .table _ entries => entries.foldlM (fun s e => withGeneratorEntry s e.1 e.2) {}
  | .array items =>
    (generatorKeys.zip items).foldlM (fun s e => withGeneratorEntry s e.1 e.2) {}
  | _ => none

/-- The output directory of a value, or the given one if the value leaves it out. -/
def outDirOf? (default : Path) : Toml.Value → Option Path
  | .table _ entries =>
    entries.foldlM (fun _ e => if e.1 = ↑"out_dir" then textOf? e.2 else none) default
  | .array [] => some default
  | .array (v :: _) => textOf? v
  | _ => none

/-- The settings with one more entry of the document. -/
def withEntry (s : Settings) (key : Text) (v : Toml.Value) : Option Settings :=
  if key = ↑"generator" then (generatorOf? v).map fun generator => { s with generator }
  else if key = ↑"output" then (outDirOf? s.outDir v).map fun outDir => { s with outDir }
  else none

/-! ### Documents -/

/-- The settings that a document gives, whether they are valid or not. -/
def ofDocument? (document : Text) : Option Settings := do
  (← Toml.parse document).foldlM (fun s e => withEntry s e.1 e.2) {}

/-- The settings that a document gives. -/
def parse (document : Text) : Except SettingsError Settings :=
  match ofDocument? document with
  | none => .error .malformed
  | some s =>
    match s.generator.fault? with
    | some fault => .error (.invalid fault)
    | none => .ok s

/-- Whether two settings are the same, output directories being compared as paths. -/
def same (s t : Settings) : Bool :=
  s.generator = t.generator && Path.equivalent s.outDir t.outDir

/-- The settings of the document of a path, or the default settings if there is none. -/
def load {m : Type → Type} [Monad m] {F : Type} (fs : FileSystem m F) (path : Path) :
    m (Except SettingsError Settings) := do
  match ← fs.readText path with
  | .error .notFound => pure (.ok {})
  | .error cause => pure (.error (.unreadable cause))
  | .ok document => pure (parse document)

end Settings

end InstanceState
