import SqlTypes.DataType.Construction
import SqlTypes.DataType.Keyword
import SqlTypes.Loader
import SqlTypes.Reading.Numeral

/-!
# Reading types that are not made of others

What follows the keyword that begins a type. `start` is the number of the keyword's token, which is
to blame for what no other token is.
-/

namespace SqlTypes

namespace Reading

/-- Makes a type; a bad parameter is blamed on the token with this number. -/
def make (blamed : Nat) (s : Shape DataType) : Reading DataType :=
  orFailAt blamed (DataType.new s)

/-- `[ ( parameter ) ]` and what `behind` reads: an atom made of both, for which the parameter is to
blame. -/
def withParameter {α : Type} (start : Nat) (p : Parameter) (behind : Reading α)
    (atom : Nat → α → Atom) : Reading DataType := do
  let n ← parameterOr ⟨p.omitted, start⟩
  let a ← behind
  make n.origin (.atom (atom n.value a))

/-- `CHAR`, `VARCHAR`, `BINARY`, `VARBINARY`: `[ ( length ) ]` -/
def sized (start : Nat) (s : Sized) : Reading DataType :=
  withParameter start (.length s) (return ()) fun length _ => .sized s length

/-- `[ , scale ]` -/
def scale : Reading Nat := do
  if ← accept (.symbol .comma) then
    return (← integer).value
  else
    return omittedScale

/-- `DECIMAL`: `[ ( precision [ , scale ] ) ]` -/
def decimal (start : Nat) : Reading DataType := do
  if ← accept (.symbol .openParen) then
    let precision ← integer
    let scale ← scale
    expectSymbol .closeParen
    make precision.origin (.atom (.decimal precision.value scale))
  else
    make start (.atom (.decimal Parameter.decimalPrecision.omitted omittedScale))

/-- The words `TIME ZONE`. -/
def timeZone : Reading Unit := do
  expectKeyword .time
  expectKeyword .zone

/-- `[ WITHOUT TIME ZONE ]` -/
def withoutZone : Reading Unit := do
  if ← acceptKeyword .without then
    timeZone

/-- `TIME`: `[ ( precision ) ] [ WITHOUT TIME ZONE ]` -/
def time (start : Nat) : Reading DataType :=
  withParameter start (.precision .time) withoutZone fun precision _ => .temporal .time precision

/-- `[ WITH [ LOCAL ] TIME ZONE ]` -/
def withZone : Reading Temporal := do
  if ← acceptKeyword .withKw then
    let isLocal ← acceptKeyword .localKw
    timeZone
    return if isLocal then .localZonedTimestamp else .zonedTimestamp
  else
    return .timestamp

/-- `[ WITHOUT TIME ZONE | WITH TIME ZONE | WITH LOCAL TIME ZONE ]` -/
def zone : Reading Temporal := do
  if ← acceptKeyword .without then
    timeZone
    return .timestamp
  else
    withZone

/-- `TIMESTAMP`: `[ ( precision ) ] zone` -/
def timestamp (start : Nat) : Reading DataType :=
  withParameter start (.precision .timestamp) zone fun precision t => .temporal t precision

/-- `TIMESTAMP_LTZ`: `[ ( precision ) ]` -/
def localZonedTimestamp (start : Nat) : Reading DataType :=
  withParameter start (.precision .localZonedTimestamp) (return ()) fun precision _ =>
    .temporal .localZonedTimestamp precision

def resolutionInvalid {α : Type} : Reading α :=
  refuse fun _ => .invalidResolution

/-- A unit. -/
def unit : Reading TimeUnit := do
  match (← peek).bind Token.unit? with
  | some u =>
    advance
    return u
  | none => resolutionInvalid

/-- No other unit may follow. -/
def endOfRange : Reading Unit := do
  if (← peek) = some (.keyword .to) then
    resolutionInvalid

/-- The month at the end of a range. -/
def toMonth : Reading YearMonth := do
  if ← acceptKeyword .month then
    return .yearToMonth
  else
    resolutionInvalid

/-- `[ TO MONTH ]` -/
def yearRange : Reading YearMonth := do
  if ← acceptKeyword .to then
    toMonth
  else
    return .year

/-- `YEAR`: `[ ( years ) ] [ TO MONTH ]` -/
def fromYear (start : Nat) : Reading DataType := do
  let years ← parameterOr ⟨Parameter.yearPrecision.omitted, start⟩
  let range ← yearRange
  endOfRange
  make years.origin (.atom (.yearMonth range years.value))

/-- `MONTH` -/
def fromMonth (start : Nat) : Reading DataType := do
  endOfRange
  make start (.atom (.yearMonth .month Parameter.yearPrecision.omitted))

/-- The last unit of a range that starts with `first`. -/
def rangeFrom (first : TimeUnit) : Reading DayTime := do
  match ((← peek).bind Token.unit?).bind (DayTime.between? first) with
  | some range =>
    advance
    return range
  | none => resolutionInvalid

/-- `[ TO unit ]`, after the only unit of a range. -/
def dayTimeRange (single : DayTime) : Reading DayTime := do
  if ← acceptKeyword .to then
    rangeFrom single.first
  else
    return single

/-- `[ ( fraction ) ]`, if the range ends with seconds. -/
def fraction (start : Nat) (range : DayTime) : Reading Numeral :=
  let omitted : Numeral := ⟨Parameter.fractionPrecision.omitted, start⟩
  if range.hasFraction then parameterOr omitted else return omitted

/-- A unit below the month, whose precision is read: `[ TO unit ] [ ( fraction ) ]`. A bad precision
of days is blamed before one of fractions. -/
def fromUnit (start : Nat) (single : DayTime) (days : Numeral) : Reading DataType := do
  let range ← dayTimeRange single
  let fraction ← fraction start range
  endOfRange
  let blamed := if Parameter.dayPrecision.InRange days.value then fraction.origin else days.origin
  make blamed (.atom (.dayTime range days.value fraction.value))

/-- `INTERVAL`: `unit [ ( precision ) ] [ TO unit [ ( precision ) ] ]` -/
def interval (start : Nat) : Reading DataType := do
  let omitted : Numeral := ⟨Parameter.dayPrecision.omitted, start⟩
  match ← unit with
  | .year => fromYear start
  | .month => fromMonth start
  | .day =>
    let days ← parameterOr omitted
    fromUnit start .day days
  | .hour => fromUnit start .hour omitted
  | .minute => fromUnit start .minute omitted
  | .second => fromUnit start .second omitted

/-- Further segments, at most so many: `[ . name [ . name ] ]` -/
def moreSegments : Nat → Reading (List String)
  | 0 => return []
  | n + 1 => do
    if ← accept (.symbol .dot) then
      let segment ← name
      let segments ← moreSegments n
      return segment :: segments
    else
      return []

/-- `name [ . name [ . name ] ]` -/
def unresolved : Reading DataType := do
  let start ← here
  let first ← name
  let others ← moreSegments (maxSegments - 1)
  let name ← orFailAt start (QualifiedName.ofSegments (first :: others))
  make start (.atom (.unresolved name))

/-- Two texts in brackets: `( string , string )` -/
def twoStrings : Reading (String × String) := do
  expectSymbol .openParen
  let first ← string
  expectSymbol .comma
  let second ← string
  expectSymbol .closeParen
  return (first, second)

/-- `RAW`: `( class , snapshot )` -/
def raw (loader : Loader) (start : Nat) : Reading DataType := do
  let (className, snapshot) ← twoStrings
  match loader.restore className snapshot with
  | .ok r => make start (.atom (.raw r))
  | .error e => throw (.rawRestore className snapshot e)

/-- `LEGACY`: `( family , payload )` -/
def legacy (loader : Loader) (start : Nat) : Reading DataType := do
  let (family, payload) ← twoStrings
  match Family.ofName? family with
  | none => failAt (.token start) (.legacyRestore family payload none)
  | some f =>
    match loader.resolve f payload with
    | .ok t => return t
    | .error e => failAt (.token start) (.legacyRestore family payload (some e))

end Reading

end SqlTypes
