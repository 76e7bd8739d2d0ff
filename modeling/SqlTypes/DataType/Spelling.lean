import SqlTypes.DataType.Keyword
import SqlTypes.Token.Layout

/-!
# Writing data types

A type is spelled as a sequence of tokens, which the standard layout turns into text. The canonical
spelling names every parameter and quotes every name. The summary shortens the longest strings and
leaves out what a serializer stores.
-/

namespace SqlTypes

open Token

/-- A number in brackets. -/
def numberTokens (n : Nat) : List Token :=
  [.symbol .openParen, .integer (toString n), .symbol .closeParen]

/-- What follows `TIMESTAMP` and its precision; times have no such words. -/
def Temporal.zoneTokens : Temporal → List Token
  | .time | .timestamp => []
  | .zonedTimestamp => [.keyword .withKw, .keyword .time, .keyword .zone]
  | .localZonedTimestamp =>
    [.keyword .withKw, .keyword .localKw, .keyword .time, .keyword .zone]

def YearMonth.tokens (years : Nat) : YearMonth → List Token
  | .year => .keyword .year :: numberTokens years
  | .yearToMonth =>
    .keyword .year :: (numberTokens years ++ [.keyword .to, .keyword .month])
  | .month => [.keyword .month]

/-- The first unit with the day precision, if it is used, and the last one, where it is another,
with the fractional precision, if it is used. -/
def DayTime.tokens (days fraction : Nat) (range : DayTime) : List Token :=
  let day := if range.hasDay then numberTokens days else []
  let second := if range.hasFraction then numberTokens fraction else []
  let last := if range.first = range.last then [] else [.keyword .to, .keyword range.last.keyword]
  .keyword range.first.keyword :: (day ++ last ++ second)

/-- The segments, quoted and with dots between them. -/
def QualifiedName.tokens (n : QualifiedName) : List Token :=
  (n.segments.map Token.quoted).intersperse (.symbol .dot)

namespace Atom

/-- The canonical spelling. -/
def tokens : Atom → List Token
  | .plain p => [.keyword p.keyword]
  | .sized s length => .keyword s.keyword :: numberTokens length
  | .decimal precision scale =>
    [.keyword .decimal, .symbol .openParen, .integer (toString precision), .symbol .comma,
      .integer (toString scale), .symbol .closeParen]
  | .temporal t precision => .keyword t.keyword :: (numberTokens precision ++ t.zoneTokens)
  | .yearMonth range years => .keyword .interval :: range.tokens years
  | .dayTime range days fraction => .keyword .interval :: range.tokens days fraction
  | .raw r =>
    [.keyword .raw, .symbol .openParen, .string r.className, .symbol .comma, .string r.snapshot,
      .symbol .closeParen]
  | .legacy family payload =>
    [.keyword .legacy, .symbol .openParen, .string family.name, .symbol .comma, .string payload,
      .symbol .closeParen]
  | .unresolved name => name.tokens

/-- What stands for the stored text of a raw type in a summary. -/
def ellipsis : String := "..."

/-- The spelling in a summary. -/
def summaryTokens : Atom → List Token
  | .sized s length =>
    match s.longest? with
    | some k => if length = (Parameter.length s).greatest then [.keyword k]
      else tokens (.sized s length)
    | none => tokens (.sized s length)
  | .raw r => tokens (.raw ⟨r.className, ellipsis⟩)
  | a => tokens a

end Atom

/-- Name, type and description, in this order. -/
def Member.tokens (m : Member (List Token)) : List Token :=
  .quoted m.name :: (m.type ++ (m.description.map Token.string).toList)

/-- Members, each after a comma. -/
def memberTokens (members : List (Member (List Token))) : List Token :=
  members.flatMap fun m => .symbol .comma :: m.tokens

/-- Puts a shape together from the spellings of its parts; `atom` spells the atoms. -/
def Shape.tokens (atom : Atom → List Token) : Shape (List Token) → List Token
  | .atom a => atom a
  | .collection c element =>
    .keyword c.keyword :: .symbol .openAngle :: (element ++ [.symbol .closeAngle])
  | .map key value =>
    .keyword .map :: .symbol .openAngle ::
      (key ++ .symbol .comma :: (value ++ [.symbol .closeAngle]))
  | .row fields =>
    .keyword .row :: .symbol .openAngle ::
      ((memberTokens fields).drop 1 ++ [.symbol .closeAngle])
  | .structured className attributes =>
    .keyword .structured :: .symbol .openAngle :: .string className ::
      (memberTokens attributes ++ [.symbol .closeAngle])

namespace DataType

/-- The spelling of a type over that of the atoms. Only what is not nullable is marked. -/
def tokensWith (atom : Atom → List Token) (t : DataType) : List Token :=
  t.fold fun s nullable =>
    s.tokens atom ++ if nullable then [] else [.keyword .not, .keyword .null]

/-- The canonical spelling. -/
def tokens (t : DataType) : List Token :=
  t.tokensWith Atom.tokens

/-- The canonical text. -/
def canonical (t : DataType) : String :=
  layout t.tokens

/-- A shorter text for messages. -/
def summary (t : DataType) : String :=
  layout (t.tokensWith Atom.summaryTokens)

end DataType

end SqlTypes
