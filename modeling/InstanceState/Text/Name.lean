import InstanceState.Text.Basic

/-!
# Names in any case

Names of kinds and families are read in any mixture of upper and lower case.
-/

namespace InstanceState.Text

/-- Whether two texts differ at most in the case of ASCII letters. -/
def sameLetters (s t : Text) : Bool := s.map Char.toLower == t.map Char.toLower

/-- What is wrong with a text that names nothing of a sort. -/
def unknownNameMessage (sort : Text) : Text :=
  "Invalid \x60" ++ sort ++ "\x60 string representation"

end InstanceState.Text
