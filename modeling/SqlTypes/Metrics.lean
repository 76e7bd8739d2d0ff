import SqlTypes.Parser

/-!
# Metrics

Counters of what parsing has done. They are 64-bit words and start again at 0 after the greatest.
-/

namespace SqlTypes

structure Metrics where
  /-- Descriptions read, whatever came of them. -/
  parses : UInt64 := 0
  /-- Descriptions refused. -/
  errors : UInt64 := 0
  /-- Tokens looked at. -/
  tokens : UInt64 := 0
  deriving DecidableEq, Repr

namespace Metrics

/-- Counts one description. -/
def record (m : Metrics) (r : Report) : Metrics where
  parses := m.parses + 1
  errors := if r.result.isOk then m.errors else m.errors + 1
  tokens := m.tokens + UInt64.ofNat r.tokens

end Metrics

/-- Parses a text and counts it. -/
def parseCounting (context : Context) (input : String) : EStateM Failure Metrics DataType := do
  let r := report context input
  modify (·.record r)
  match r.result with
  | .ok t => return t
  | .error e => throw e

end SqlTypes
