import SqlTypes.DataType
import SqlTypes.Text.CharClass

/-!
# Making data types

`DataType.new` makes a type of a shape. First it resets the precisions that an interval's range does
not use, so that types which are written alike are equal; then it checks parameters and names. A new
type is nullable; `withNullability` decides otherwise, except for the null type.
-/

namespace SqlTypes

def Parameter.check (p : Parameter) (n : Nat) : Except BadParameter Unit :=
  if p.InRange n then .ok () else .error (.outOfRange p)

namespace Atom

/-- Precisions that an interval's range does not use take the values of omitted ones. -/
def normalized : Atom → Atom
  | .yearMonth range years =>
    .yearMonth range (if range.hasYear then years else Parameter.yearPrecision.omitted)
  | .dayTime range days fraction =>
    .dayTime range (if range.hasDay then days else Parameter.dayPrecision.omitted)
      (if range.hasFraction then fraction else Parameter.fractionPrecision.omitted)
  | a => a

/-- Whether every parameter is in range; the first one that is not decides the error. -/
def check : Atom → Except BadParameter Unit
  | .sized s length => (Parameter.length s).check length
  | .decimal precision scale => do
    Parameter.decimalPrecision.check precision
    if scale ≤ precision then .ok () else .error (.scaleAbovePrecision precision)
  | .temporal t precision => (Parameter.precision t).check precision
  | .yearMonth _ years => Parameter.yearPrecision.check years
  | .dayTime _ days fraction => do
    Parameter.dayPrecision.check days
    Parameter.fractionPrecision.check fraction
  | .raw r => if r.className = "" then .error .emptyClassName else .ok ()
  | .plain _ | .legacy .. | .unresolved _ => .ok ()

end Atom

/-- Puts a name in front of the first one that is not smaller. -/
def insertName (name : String) : List String → List String
  | [] => [name]
  | n :: names => if name ≤ n then name :: n :: names else n :: insertName name names

/-- Names in ascending order of their characters, which is that of their UTF-8 bytes. -/
def sortNames (names : List String) : List String :=
  names.foldr insertName []

/-- The names that a sorted list holds more than once, each of them once. -/
def repeatedInSorted : List String → List String
  | a :: b :: names =>
    let later := repeatedInSorted (b :: names)
    if a = b ∧ later.head? ≠ some a then a :: later else later
  | _ => []

/-- The names that a list holds more than once, each of them once, in ascending order. -/
def repeatedNames (names : List String) : List String :=
  repeatedInSorted (sortNames names)

/-- Names must not be blank, and must differ from each other. A blank name is reported rather than
repeated ones. -/
def checkNames (role : MemberRole) (names : List String) : Except BadParameter Unit :=
  if names.any Text.isBlank then
    .error (.blankName role)
  else
    match repeatedNames names with
    | [] => .ok ()
    | repeated => .error (.repeatedNames role repeated)

namespace Shape

variable {τ : Type}

def normalized : Shape τ → Shape τ
  | .atom a => .atom a.normalized
  | s => s

/-- Whether the outermost layer is valid. Nothing is asked of its parts. -/
def check : Shape τ → Except BadParameter Unit
  | .atom a => a.check
  | .collection .. | .map .. => .ok ()
  | .row fields => checkNames .field (fields.map (·.name))
  | .structured className attributes =>
    if className = "" then .error .emptyClassName
    else checkNames .attribute (attributes.map (·.name))

end Shape

namespace DataType

/-- The nullable type of a shape, once its unused precisions are reset. -/
def new (s : Shape DataType) : Except BadParameter DataType := do
  s.normalized.check
  .ok { shape := s.normalized }

/-- The same type with this nullability. The null type is always nullable. -/
def withNullability (t : DataType) (nullable : Bool) : Except BadParameter DataType :=
  if t.shape = .atom (.plain .null) ∧ nullable = false then .error .nullNotNull
  else .ok { t with nullable }

end DataType

end SqlTypes
