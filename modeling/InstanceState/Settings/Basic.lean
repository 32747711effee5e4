import InstanceState.Text.Blank

/-!
# Settings

What generation can be configured with, and the conditions that settings must meet.
-/

namespace InstanceState

/-- The settings of generation. -/
structure GeneratorSettings where
  /-- What the name of a companion adds to the owner's. -/
  suffix : Text := "$$Icicle"
  /-- Whether the keys of a bundle begin with the name of the companion. -/
  namespaceKeys : Bool := false
  /-- Owners that can be used as one of these have the lifecycle of views. -/
  viewBases : List Text := ["android.view.View"]
  /-- Types that can be used as this are stored as parcelables. -/
  parcelableBase : Text := "android.os.Parcelable"
deriving DecidableEq, Repr

/-- All settings. -/
structure Settings where
  generator : GeneratorSettings := {}
  /-- The directory for the companions. -/
  outDir : Text := "generated"
deriving DecidableEq, Repr

/-- A condition that settings do not meet. -/
inductive SettingsFault where
  | emptySuffix
  | badSuffix (suffix : Text)
  | noViewBase
  | blankViewBase (base : Text)
  | blankParcelableBase
deriving DecidableEq, Repr

/-- The fault as it is reported. -/
def SettingsFault.message : SettingsFault → Text
  | .emptySuffix => "invalid config: generator.suffix is empty"
  | .badSuffix suffix =>
    "invalid config: generator.suffix '" ++ suffix ++ "' is not a valid identifier fragment"
  | .noViewBase => "invalid config: generator.view_bases must name at least one type"
  | .blankViewBase base =>
    "invalid config: generator.view_bases contains an empty entry: '" ++ base ++ "'"
  | .blankParcelableBase => "invalid config: generator.parcelable_base is empty"

/-- Whether a character may stand in a suffix: an ASCII letter or digit, a dollar sign or an
underscore. -/
def isSuffixChar (c : Char) : Bool := c.isAlphanum || c = '$' || c = '_'

/-- The first condition that the settings do not meet, if there is one. -/
def GeneratorSettings.fault? (s : GeneratorSettings) : Option SettingsFault :=
  if s.suffix.isEmpty then some .emptySuffix
  else if !s.suffix.all isSuffixChar then some (.badSuffix s.suffix)
  else if s.viewBases.isEmpty then some .noViewBase
  else
    match s.viewBases.find? fun base => (Text.trim base).isEmpty with
    | some base => some (.blankViewBase base)
    | none => if (Text.trim s.parcelableBase).isEmpty then some .blankParcelableBase else none

end InstanceState
