import SqlTypes.Reading.Atom

/-!
# Reading types

A type expression is a base, whether it may be null, and collections written behind it, each again
with its nullability. It may hold other type expressions as deep as the limit allows; the recursion
is on the levels that are left, so that the last one can only complain.
-/

namespace SqlTypes

namespace Reading

variable (loader : Loader) (inner : Reading DataType)

/-- `[ NOT NULL | NULL ]`, for the type before it. -/
def nullability (t : DataType) : Reading DataType := do
  let start ← here
  if ← acceptKeyword .not then
    expectKeyword .null
    orFailAt start (t.withNullability false)
  else
    let _ ← acceptKeyword .null
    return t

/-- `< element >` -/
def collection (start : Nat) (c : Collection) : Reading DataType := do
  expectSymbol .openAngle
  let element ← inner
  expectSymbol .closeAngle
  make start (.collection c element)

/-- `< key , value >` -/
def map (start : Nat) : Reading DataType := do
  expectSymbol .openAngle
  let key ← inner
  expectSymbol .comma
  let value ← inner
  expectSymbol .closeAngle
  make start (.map key value)

/-- `name type [ description ]` -/
def member : Reading (Member DataType) := do
  let name ← name
  let type ← inner
  let description ← string?
  return { name, type, description }

/-- Members that each follow a comma, behind those in `before` reversed. There are no more of them
than tokens in `bound`. -/
def moreMembers (before : List (Member DataType)) : (bound : List Token) →
    Reading (List (Member DataType))
  | [] => return before.reverse
  | _ :: bound => do
    if ← accept (.symbol .comma) then
      let m ← member inner
      moreMembers (m :: before) bound
    else
      return before.reverse

/-- All that follows a comma, behind `before`. -/
def membersAfter (before : List (Member DataType)) : Reading (List (Member DataType)) := do
  moreMembers inner before (← get).rest

/-- The other bracket that may open a row. -/
def openRound : Reading Symbol := do
  if ← accept (.symbol .openParen) then
    return .closeParen
  else
    refuse (.tokenExpected (.symbol .openAngle))

/-- `<` or `(`; the bracket that closes the row. -/
def openRow : Reading Symbol := do
  if ← accept (.symbol .openAngle) then
    return .closeAngle
  else
    openRound

/-- Fields with commas between them, none if the row closes at once. -/
def fields (close : Symbol) : Reading (List (Member DataType)) := do
  if (← peek) = some (.symbol close) then
    return []
  else
    let first ← member inner
    membersAfter inner [first]

/-- `< fields >` or `( fields )` -/
def row (start : Nat) : Reading DataType := do
  let close ← openRow
  let fields ← fields inner close
  expectSymbol close
  make start (.row fields)

/-- `< class , attribute , attribute , ... >` -/
def structured (start : Nat) : Reading DataType := do
  expectSymbol .openAngle
  let className ← string
  let attributes ← membersAfter inner []
  expectSymbol .closeAngle
  make start (.structured className attributes)

/-- The type that a keyword begins; `start` is the number of its token. -/
def afterKeyword (start : Nat) : Keyword → Reading DataType
  | .char => sized start .char
  | .varchar => sized start .varchar
  | .binary => sized start .binary
  | .varbinary => sized start .varbinary
  | .string => make start (.atom (.sized .varchar (Parameter.length .varchar).greatest))
  | .bytes => make start (.atom (.sized .varbinary (Parameter.length .varbinary).greatest))
  | .boolean => make start (.atom (.plain .boolean))
  | .decimal | .dec | .numeric => decimal start
  | .tinyint => make start (.atom (.plain .tinyint))
  | .smallint => make start (.atom (.plain .smallint))
  | .int | .integer => make start (.atom (.plain .int))
  | .bigint => make start (.atom (.plain .bigint))
  | .float => make start (.atom (.plain .float))
  | .double => do
    let _ ← acceptKeyword .precision
    make start (.atom (.plain .double))
  | .date => make start (.atom (.plain .date))
  | .time => time start
  | .timestamp => timestamp start
  | .timestampLtz => localZonedTimestamp start
  | .interval => interval start
  | .array => collection inner start .array
  | .multiset => collection inner start .multiset
  | .map => map inner start
  | .row => row inner start
  | .structured => structured inner start
  | .null => make start (.atom (.plain .null))
  | .descriptor => make start (.atom (.plain .descriptor))
  | .raw => raw loader start
  | .legacy => legacy loader start
  | k => failAt (.token start) (.unsupportedType k)

/-- What a type expression starts with. -/
def base : Reading DataType := do
  match ← peek with
  | some (.keyword k) =>
    let start ← here
    advance
    afterKeyword loader inner start k
  | some (.word _) | some (.quoted _) => unresolved
  | _ => refuse (.tokenExpected .keyword)

/-- One level too many. -/
def tooDeep (limit number : Nat) : Reading DataType := do
  enter
  failAt (.token number) (.nestingTooDeep limit)

/-- `ARRAY` or `MULTISET` behind an element, and the number of the keyword's token. -/
def wrapper? : Reading (Option (Collection × Nat)) := do
  let start ← here
  match (← peek).bind Token.collection? with
  | some c =>
    advance
    return some (c, start)
  | none => return none

/-- Collections written behind their element, each with its nullability. -/
def wrapped (limit : Nat) : (levels : Nat) → DataType → Reading DataType
  | 0, t => do
    match ← wrapper? with
    | some (_, start) => tooDeep limit start
    | none => return t
  | levels + 1, t => do
    match ← wrapper? with
    | some (c, _) =>
      enter
      let t ← nullability { shape := .collection c t }
      let t ← wrapped limit levels t
      leave
      return t
    | none => return t

/-- A type expression that may nest as deep as there are levels left. -/
def typeExpression (limit : Nat) : (levels : Nat) → Reading DataType
  | 0 => do
    begin
    tooDeep limit (← here)
  | levels + 1 => do
    begin
    enter
    let t ← base loader (typeExpression limit levels)
    let t ← nullability t
    let t ← wrapped limit levels t
    leave
    return t

/-- A type expression within the limit, and nothing after it. -/
def description (limit : Nat) : Reading DataType := do
  let t ← typeExpression loader limit (limit - (← get).depth)
  match ← peek with
  | none => return t
  | some _ => refuse .unexpectedToken

end Reading

end SqlTypes
