import SqlTypes.Parameter

/-!
# What makes a type invalid

The reasons for which a type cannot be made, and their wording.
-/

namespace SqlTypes

/-- What the members of a type are called. -/
inductive MemberRole where
  | field | attribute
  deriving DecidableEq, Repr

def MemberRole.name : MemberRole → String
  | .field => "Field"
  | .attribute => "Attribute"

inductive BadParameter where
  | outOfRange (p : Parameter)
  | scaleAbovePrecision (precision : Nat)
  | emptyClassName
  | blankName (role : MemberRole)
  | repeatedNames (role : MemberRole) (names : List String)
  | segmentCount
  | emptySegment
  | nullNotNull
  deriving DecidableEq, Repr

namespace BadParameter

def message : BadParameter → String
  | .outOfRange p =>
    s!"{p.name} must be between {p.least} and {p.greatest} (both inclusive)."
  | .scaleAbovePrecision precision =>
    s!"Decimal scale must be between {leastScale} and the precision {precision} (both inclusive)."
  | .emptyClassName => "Class name must not be empty."
  | .blankName role =>
    s!"{role.name} names must contain at least one non-whitespace character."
  | .repeatedNames role names =>
    let list := ", ".intercalate names
    s!"{role.name} names must be unique. Found duplicates: [{list}]"
  | .segmentCount => "An unresolved identifier must have between 1 and 3 segments."
  | .emptySegment => "Identifier segments must not be empty."
  | .nullNotNull =>
    "The nullability of a NULL type cannot be disabled because the type must always be able " ++
      "to contain a null value."

end BadParameter

end SqlTypes
