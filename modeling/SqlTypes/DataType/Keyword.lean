import SqlTypes.DataType
import SqlTypes.Token

/-!
# Keywords of types

Which keyword a type or a unit is written with, and which one a keyword stands for.
-/

namespace SqlTypes

def Plain.keyword : Plain → Keyword
  | .boolean => .boolean
  | .tinyint => .tinyint
  | .smallint => .smallint
  | .int => .int
  | .bigint => .bigint
  | .float => .float
  | .double => .double
  | .date => .date
  | .null => .null
  | .descriptor => .descriptor

def Sized.keyword : Sized → Keyword
  | .char => .char
  | .varchar => .varchar
  | .binary => .binary
  | .varbinary => .varbinary

/-- The keyword for the greatest length, if there is one. -/
def Sized.longest? : Sized → Option Keyword
  | .varchar => some .string
  | .varbinary => some .bytes
  | .char | .binary => none

/-- The keyword before the precision. -/
def Temporal.keyword : Temporal → Keyword
  | .time => .time
  | .timestamp | .zonedTimestamp | .localZonedTimestamp => .timestamp

def Collection.keyword : Collection → Keyword
  | .array => .array
  | .multiset => .multiset

def TimeUnit.keyword : TimeUnit → Keyword
  | .year => .year
  | .month => .month
  | .day => .day
  | .hour => .hour
  | .minute => .minute
  | .second => .second

namespace Token

/-- The unit that a token names. -/
def unit? : Token → Option TimeUnit
  | .keyword .year => some .year
  | .keyword .month => some .month
  | .keyword .day => some .day
  | .keyword .hour => some .hour
  | .keyword .minute => some .minute
  | .keyword .second => some .second
  | _ => none

/-- The collection that a token names. -/
def collection? : Token → Option Collection
  | .keyword .array => some .array
  | .keyword .multiset => some .multiset
  | _ => none

theorem unit?_eq_some_iff {t : Token} {u : TimeUnit} :
    t.unit? = some u ↔ t = .keyword u.keyword := by
  unfold unit?
  split <;> cases u <;> simp_all [TimeUnit.keyword]

theorem collection?_eq_some_iff {t : Token} {c : Collection} :
    t.collection? = some c ↔ t = .keyword c.keyword := by
  unfold collection?
  split <;> cases c <;> simp_all [Collection.keyword]

end Token

end SqlTypes
