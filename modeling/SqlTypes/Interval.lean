/-!
# Ranges of interval types

An interval type counts in one unit, or in the units from a larger one down to a smaller one. Years
and months make one kind of interval, days down to seconds the other.
-/

namespace SqlTypes

inductive TimeUnit where
  | year | month | day | hour | minute | second
  deriving DecidableEq, Repr

/-- The ranges of year-month intervals. -/
inductive YearMonth where
  | year | yearToMonth | month
  deriving DecidableEq, Repr

/-- Whether a range counts years, and so has a year precision. -/
def YearMonth.hasYear : YearMonth → Bool
  | .year | .yearToMonth => true
  | .month => false

/-- The ranges of day-time intervals. -/
inductive DayTime where
  | day | dayToHour | dayToMinute | dayToSecond | hour | hourToMinute | hourToSecond
  | minute | minuteToSecond | second
  deriving DecidableEq, Repr

namespace DayTime

/-- The largest unit of a range. -/
def first : DayTime → TimeUnit
  | .day | .dayToHour | .dayToMinute | .dayToSecond => .day
  | .hour | .hourToMinute | .hourToSecond => .hour
  | .minute | .minuteToSecond => .minute
  | .second => .second

/-- The smallest unit of a range. -/
def last : DayTime → TimeUnit
  | .day => .day
  | .dayToHour | .hour => .hour
  | .dayToMinute | .hourToMinute | .minute => .minute
  | .dayToSecond | .hourToSecond | .minuteToSecond | .second => .second

/-- Whether a range counts days, and so has a day precision. -/
def hasDay (r : DayTime) : Bool :=
  r.first = .day

/-- Whether a range counts seconds, and so has a fractional precision. -/
def hasFraction (r : DayTime) : Bool :=
  r.last = .second

/-- The range from a unit down to a strictly smaller one. -/
def between? : TimeUnit → TimeUnit → Option DayTime
  | .day, .hour => some .dayToHour
  | .day, .minute => some .dayToMinute
  | .day, .second => some .dayToSecond
  | .hour, .minute => some .hourToMinute
  | .hour, .second => some .hourToSecond
  | .minute, .second => some .minuteToSecond
  | _, _ => none

theorem between?_eq_some_iff {u v : TimeUnit} {r : DayTime} :
    between? u v = some r ↔ r.first = u ∧ r.last = v ∧ u ≠ v := by
  cases u <;> cases v <;> cases r <;> decide

end DayTime

end SqlTypes
