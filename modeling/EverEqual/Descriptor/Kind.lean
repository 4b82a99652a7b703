/-!
# Kinds of types

The closed list of categories by which two types are compared, and the two ways in which a
conversion may be declared. Both are read from integer codes; a code outside the list is kept, so
that a descriptor with such a kind is still a value, but no rule knows it.

* `Kind.name`: the word a kind is shown by;
* `Kind.ofCode`, `ConversionKind.ofCode`, `ConversionKind.code`: reading and writing codes.
-/

namespace EverEqual

/-- The category of a type. -/
inductive Kind
  /-- A type that could not be resolved. -/
  | unknown
  | numeric
  | boolean
  | string
  | enumeration
  /-- A type whose values may be absent, wrapping another type. -/
  | nullable
  | array
  | collection
  | tuple
  | userDefined
  | interface
  /-- A code outside the list. -/
  | unlisted (code : Int)
deriving DecidableEq, Repr, Inhabited

namespace Kind

/-- The kind with a given code; the listed kinds are numbered from zero in their order. -/
def ofCode : Int → Kind
  | 0 => unknown
  | 1 => numeric
  | 2 => boolean
  | 3 => string
  | 4 => enumeration
  | 5 => nullable
  | 6 => array
  | 7 => collection
  | 8 => tuple
  | 9 => userDefined
  | 10 => interface
  | n => unlisted n

/-- The word a kind is shown by. -/
def name : Kind → String
  | unknown => "unknown"
  | numeric => "numeric"
  | boolean => "boolean"
  | string => "string"
  | enumeration => "enum"
  | nullable => "nullable"
  | array => "array"
  | collection => "collection"
  | tuple => "tuple"
  | userDefined => "user-defined"
  | interface => "interface"
  | unlisted _ => "kind(?)"

end Kind

/-- Whether a declared conversion has to be written out. -/
inductive ConversionKind
  | explicit
  | implicit
  /-- A code outside the list. -/
  | unlisted (code : Int)
deriving DecidableEq, Repr, Inhabited

namespace ConversionKind

/-- The conversion kind with a given code. -/
def ofCode : Int → ConversionKind
  | 0 => explicit
  | 1 => implicit
  | n => unlisted n

/-- The code of a conversion kind. -/
def code : ConversionKind → Int
  | explicit => 0
  | implicit => 1
  | unlisted n => n

/-- Every code is read as a kind that is written as the same code. -/
theorem code_ofCode (n : Int) : (ofCode n).code = n := by
  unfold ofCode
  split <;> rfl

end ConversionKind

end EverEqual
