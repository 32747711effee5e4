import InstanceState.Hierarchy.Family

/-!
# Lifecycles

The fixed text around the statements of the fields: the signatures of the two methods of a
companion and the lines before and after the statements, for each family.
-/

namespace InstanceState

/-- The signature of a method, with a place for the name of the owner. -/
structure Signature where
  before : Text
  after : Text

/-- The signature with the name of the owner in its place. -/
def Signature.fill (s : Signature) (owner : Text) : Text := s.before ++ owner ++ s.after

/-- The fixed text of a family. -/
structure Lifecycle where
  imports : List Text
  saveSignature : Signature
  savePrologue : List Text
  saveEpilogue : List Text
  restoreSignature : Signature
  /-- The condition on which the restoring method ends at once, and how it ends. -/
  guardCondition : Text
  guardExit : Text
  restorePrologue : List Text
  restoreEpilogue : List Text
  /-- Whether the companion keeps the state of the parent class under a key of its own. -/
  needsSuperKey : Bool

namespace Lifecycle

/-- The bundle that the saving method writes to. -/
def outBundle : Text := "outState"

/-- The bundle that the restoring method reads from. -/
def inBundle : Text := "savedInstanceState"

/-- The constant that holds the key of the parent's state. -/
def superKeyName : Text := "SUPER_STATE_KEY"

/-- The constant that holds the common beginning of the keys. -/
def baseKeyName : Text := "BASE_KEY"

/-- The lifecycle of the owners that are given the bundle. -/
def host : Lifecycle where
  imports := ["android.os.Bundle"]
  saveSignature := ⟨"public static void saveInstanceState(", " target, Bundle outState)"⟩
  savePrologue := []
  saveEpilogue := []
  restoreSignature :=
    ⟨"public static void restoreInstanceState(", " target, Bundle savedInstanceState)"⟩
  guardCondition := "savedInstanceState == null"
  guardExit := "return;"
  restorePrologue := []
  restoreEpilogue := []
  needsSuperKey := false

/-- The lifecycle of the views. -/
def view : Lifecycle where
  imports := ["android.os.Bundle", "android.os.Parcelable"]
  saveSignature := ⟨"public static Parcelable saveInstanceState(", " target, Parcelable state)"⟩
  savePrologue :=
    ["Bundle outState = new Bundle();", "outState.putParcelable(SUPER_STATE_KEY, state);"]
  saveEpilogue := ["return outState;"]
  restoreSignature :=
    ⟨"public static Parcelable restoreInstanceState(", " target, Parcelable state)"⟩
  guardCondition := "!(state instanceof Bundle)"
  guardExit := "return state;"
  restorePrologue := ["Bundle savedInstanceState = (Bundle) state;"]
  restoreEpilogue := ["return savedInstanceState.getParcelable(SUPER_STATE_KEY);"]
  needsSuperKey := true

/-- The lifecycle of a family. -/
def ofFamily : Family → Lifecycle
  | .host => host
  | .view => view

end Lifecycle

end InstanceState
