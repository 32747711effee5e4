import InstanceState.Text.Name

/-!
# Command kinds

The catalog of the ways in which a bundle stores a value.  A kind has the name under which it
is shown and the suffix of the two bundle methods that store and give back the value; the two
differ only for the geometric types, which are stored as parcelables.
-/

namespace InstanceState

/-- A way in which a bundle stores a value. -/
inductive CommandKind where
  | boolean | booleanArray | bundle | byte | byteArray | char | charArray | charSequence
  | charSequenceArray | charSequenceArrayList | double | doubleArray | float | floatArray | int
  | intArray | integerArrayList | long | longArray | parcelable | parcelableArray
  | parcelableArrayList | point | pointF | rect | rectF | serializable | short | shortArray
  | sparseParcelableArray | string | stringArray | stringArrayList
deriving DecidableEq, Repr

/-- How a retrieval is given the type of the field that it is assigned to. -/
inductive RetrievalStyle where
  /-- The accessor returns that type. -/
  | direct
  /-- The accessor takes that type, or its element type, as a type argument. -/
  | witness
  /-- The result is cast to that type. -/
  | cast
  /-- The result is cast to an array of the element type. -/
  | arrayCast
deriving DecidableEq, Repr

/-- The name of a retrieval style. -/
def RetrievalStyle.name : RetrievalStyle → Text
  | .direct => "Direct"
  | .witness => "Witness"
  | .cast => "Cast"
  | .arrayCast => "ArrayCast"

namespace CommandKind

/-- Every kind. -/
def all : List CommandKind :=
  [.boolean, .booleanArray, .bundle, .byte, .byteArray, .char, .charArray, .charSequence,
   .charSequenceArray, .charSequenceArrayList, .double, .doubleArray, .float, .floatArray, .int,
   .intArray, .integerArrayList, .long, .longArray, .parcelable, .parcelableArray,
   .parcelableArrayList, .point, .pointF, .rect, .rectF, .serializable, .short, .shortArray,
   .sparseParcelableArray, .string, .stringArray, .stringArrayList]

/-- The name of a kind. -/
def name : CommandKind → Text
  | .boolean => "Boolean"
  | .booleanArray => "BooleanArray"
  | .bundle => "Bundle"
  | .byte => "Byte"
  | .byteArray => "ByteArray"
  | .char => "Char"
  | .charArray => "CharArray"
  | .charSequence => "CharSequence"
  | .charSequenceArray => "CharSequenceArray"
  | .charSequenceArrayList => "CharSequenceArrayList"
  | .double => "Double"
  | .doubleArray => "DoubleArray"
  | .float => "Float"
  | .floatArray => "FloatArray"
  | .int => "Int"
  | .intArray => "IntArray"
  | .integerArrayList => "IntegerArrayList"
  | .long => "Long"
  | .longArray => "LongArray"
  | .parcelable => "Parcelable"
  | .parcelableArray => "ParcelableArray"
  | .parcelableArrayList => "ParcelableArrayList"
  | .point => "Point"
  | .pointF => "PointF"
  | .rect => "Rect"
  | .rectF => "RectF"
  | .serializable => "Serializable"
  | .short => "Short"
  | .shortArray => "ShortArray"
  | .sparseParcelableArray => "SparseParcelableArray"
  | .string => "String"
  | .stringArray => "StringArray"
  | .stringArrayList => "StringArrayList"

/-- The kind of a name, in any mixture of upper and lower case. -/
def ofName? (t : Text) : Option CommandKind := all.find? fun kind => t.sameLetters kind.name

/-- The suffix of the bundle methods of a kind. -/
def accessor : CommandKind → Text
  | .point | .pointF | .rect | .rectF => name .parcelable
  | kind => name kind

/-- The kind of the arrays whose elements are of the given kind. -/
def arrayOf? : CommandKind → Option CommandKind
  | .boolean => some .booleanArray
  | .byte => some .byteArray
  | .char => some .charArray
  | .charSequence => some .charSequenceArray
  | .double => some .doubleArray
  | .float => some .floatArray
  | .int => some .intArray
  | .long => some .longArray
  | .short => some .shortArray
  | .string => some .stringArray
  | _ => none

/-- Whether values of a kind can be stored as parcelables. -/
def isParcelable : CommandKind → Bool
  | .bundle | .parcelable | .point | .pointF | .rect | .rectF => true
  | _ => false

/-- Whether a kind is the one of the types that no rule covers. -/
def isFallback (kind : CommandKind) : Bool := kind = .serializable

/-- How a retrieval of the kind is given the type of its field. -/
def style : CommandKind → RetrievalStyle
  | .parcelable | .point | .pointF | .rect | .rectF | .parcelableArrayList
  | .sparseParcelableArray => .witness
  | .parcelableArray => .arrayCast
  | .serializable => .cast
  | _ => .direct

end CommandKind

end InstanceState
