import SqlTypes.Reading.Cursor
import SqlTypes.Text.Digits

/-!
# Reading numeric parameters

A number is kept with the token to blame if it does not suit the type: its own one, or, where it is
left out, the one at which the type starts.
-/

namespace SqlTypes

structure Numeral where
  value : Nat
  /-- The number of the token to blame. -/
  origin : Nat

namespace Reading

def integer : Reading Numeral := do
  match ← peek with
  | some (.integer digits) =>
    let origin ← here
    match Text.numberUpTo? largestInteger digits.toList with
    | some value =>
      advance
      return ⟨value, origin⟩
    | none => failAt (.token origin) .invalidInteger
  | _ => refuse (.tokenExpected .integer)

/-- A number in brackets, or `omitted` if no bracket opens. -/
def parameterOr (omitted : Numeral) : Reading Numeral := do
  if ← accept (.symbol .openParen) then
    let n ← integer
    expectSymbol .closeParen
    return n
  else
    return omitted

end Reading

end SqlTypes
