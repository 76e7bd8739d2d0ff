/-!
# Families of types

Every type belongs to one family. Families have stable names, case sensitive, under which a legacy
type declares what it stands for.
-/

namespace SqlTypes

inductive Family where
  | char | varchar | boolean | binary | varbinary | decimal | tinyint | smallint | integer | bigint
  | float | double | date | time | timestamp | zonedTimestamp | localZonedTimestamp
  | yearMonthInterval | dayTimeInterval | array | multiset | map | row | structured | null | raw
  | unresolved | descriptor
  deriving DecidableEq, Repr

namespace Family

def name : Family → String
  | .char => "CHAR"
  | .varchar => "VARCHAR"
  | .boolean => "BOOLEAN"
  | .binary => "BINARY"
  | .varbinary => "VARBINARY"
  | .decimal => "DECIMAL"
  | .tinyint => "TINYINT"
  | .smallint => "SMALLINT"
  | .integer => "INTEGER"
  | .bigint => "BIGINT"
  | .float => "FLOAT"
  | .double => "DOUBLE"
  | .date => "DATE"
  | .time => "TIME_WITHOUT_TIME_ZONE"
  | .timestamp => "TIMESTAMP_WITHOUT_TIME_ZONE"
  | .zonedTimestamp => "TIMESTAMP_WITH_TIME_ZONE"
  | .localZonedTimestamp => "TIMESTAMP_WITH_LOCAL_TIME_ZONE"
  | .yearMonthInterval => "INTERVAL_YEAR_MONTH"
  | .dayTimeInterval => "INTERVAL_DAY_TIME"
  | .array => "ARRAY"
  | .multiset => "MULTISET"
  | .map => "MAP"
  | .row => "ROW"
  | .structured => "STRUCTURED_TYPE"
  | .null => "NULL"
  | .raw => "RAW"
  | .unresolved => "UNRESOLVED"
  | .descriptor => "DESCRIPTOR"

/-- Every family, in order of declaration. -/
def all : List Family :=
  [.char, .varchar, .boolean, .binary, .varbinary, .decimal, .tinyint, .smallint, .integer,
   .bigint, .float, .double, .date, .time, .timestamp, .zonedTimestamp, .localZonedTimestamp,
   .yearMonthInterval, .dayTimeInterval, .array, .multiset, .map, .row, .structured, .null, .raw,
   .unresolved, .descriptor]

/-- The family with exactly this name. -/
def ofName? (name : String) : Option Family :=
  all.find? (·.name = name)

theorem name_of_ofName? {name : String} {f : Family} (h : ofName? name = some f) :
    f.name = name := by
  simpa using List.find?_some h

theorem ofName?_name (f : Family) : ofName? f.name = some f := by
  cases f <;> decide

end Family

end SqlTypes
