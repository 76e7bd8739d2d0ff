/-!
# Numeric parameters

Types take lengths and precisions. Each parameter has a name for messages, a closed range, and a
value that it takes where a description leaves it out.
-/

namespace SqlTypes

/-- Types with a length. -/
inductive Sized where
  | char | varchar | binary | varbinary
  deriving DecidableEq, Repr

/-- Types with a precision of fractional seconds. -/
inductive Temporal where
  | time | timestamp | zonedTimestamp | localZonedTimestamp
  deriving DecidableEq, Repr

inductive Parameter where
  | length (s : Sized)
  | decimalPrecision
  | precision (t : Temporal)
  | yearPrecision
  | dayPrecision
  | fractionPrecision
  deriving DecidableEq, Repr

namespace Parameter

def name : Parameter → String
  | .length .char => "Character string length"
  | .length .varchar => "Variable character string length"
  | .length .binary => "Binary string length"
  | .length .varbinary => "Variable binary string length"
  | .decimalPrecision => "Decimal precision"
  | .precision .time => "Time precision"
  | .precision .timestamp => "Timestamp precision"
  | .precision .zonedTimestamp => "Timestamp with time zone precision"
  | .precision .localZonedTimestamp => "Timestamp with local time zone precision"
  | .yearPrecision => "Year precision of year-month intervals"
  | .dayPrecision => "Day precision of day-time intervals"
  | .fractionPrecision => "Fractional precision of day-time intervals"

/-- The smallest value. -/
def least : Parameter → Nat
  | .length _ | .decimalPrecision | .yearPrecision | .dayPrecision => 1
  | .precision _ | .fractionPrecision => 0

/-- The largest value. -/
def greatest : Parameter → Nat
  | .length _ => 2147483647
  | .decimalPrecision => 38
  | .precision _ | .fractionPrecision => 9
  | .yearPrecision => 4
  | .dayPrecision => 6

/-- The value where a description leaves the parameter out. -/
def omitted : Parameter → Nat
  | .length _ => 1
  | .decimalPrecision => 10
  | .precision .time => 0
  | .precision _ => 6
  | .yearPrecision | .dayPrecision => 2
  | .fractionPrecision => 6

def InRange (p : Parameter) (n : Nat) : Prop :=
  p.least ≤ n ∧ n ≤ p.greatest

instance (p : Parameter) (n : Nat) : Decidable (p.InRange n) :=
  inferInstanceAs (Decidable (_ ∧ _))

theorem inRange_omitted : ∀ p : Parameter, p.InRange p.omitted
  | .length _ => by simp [InRange, least, omitted, greatest]
  | .precision t => by cases t <;> decide
  | .decimalPrecision | .yearPrecision | .dayPrecision | .fractionPrecision => by decide

end Parameter

/-- The largest number that a description may hold, whatever it is for. -/
def largestInteger : Nat := 2147483647

/-- The smallest scale of a decimal type; the largest is its precision. -/
def leastScale : Nat := 0

/-- The scale of a decimal type whose description leaves it out. -/
def omittedScale : Nat := 0

end SqlTypes
