import SqlTypes.Limits
import SqlTypes.Reading.TypeExpression
import SqlTypes.Token.Scanner

/-!
# Parsing descriptions

`parse` reads a text as one type. A `Parser` does it step by step: it may be asked again after a
failure and then goes on at the token where it stopped.
-/

namespace SqlTypes

/-- What a description is read with. -/
structure Context where
  limits : Limits := {}
  loader : Loader := .refusing

structure Parser where
  context : Context
  input : String
  /-- All lexemes of the input. -/
  lexemes : List Lexeme
  cursor : Cursor

namespace Parser

/-- At the start of a text. -/
def start (context : Context) (input : String) : Parser :=
  let lexemes := tokenize input
  { context, input, lexemes, cursor := { rest := lexemes.filterMap (·.token) } }

/-- Tokens looked at so far; the end of the input counts as one. -/
def tokensConsumed (p : Parser) : Nat :=
  p.cursor.passed + 1

/-- The deepest nesting so far. -/
def maxDepth (p : Parser) : Nat :=
  p.cursor.deepest

/-- The byte offset of a place. -/
def offset (p : Parser) : Place → Nat
  | .token number =>
    match p.lexemes[number]? with
    | some l => l.start
    | none => p.input.utf8ByteSize
  | .endOfInput => p.input.utf8ByteSize

def failure (p : Parser) : Fault → Failure
  | .problem place b => .parse (p.offset place) b.kind b.detail p.input b.cause?
  | .rawRestore className snapshot cause => .rawRestore className snapshot cause

/-- Reads one type from where the parser stands, which must be all that is left. -/
def parse (p : Parser) : Except Failure DataType × Parser :=
  let limit := p.context.limits.maxNestingDepth
  match (Reading.description p.context.loader limit).run p.cursor with
  | .ok t cursor => (.ok t, { p with cursor })
  | .error e cursor => (.error (p.failure e), { p with cursor })

/-- The answers to so many calls of `parse`, each with the parser after it. -/
def parseTimes : Nat → Parser → List (Except Failure DataType × Parser)
  | 0, _ => []
  | n + 1, p =>
    let answer := p.parse
    answer :: parseTimes n answer.2

end Parser

/-- What came of a description, and how many tokens were looked at. -/
structure Report where
  result : Except Failure DataType
  tokens : Nat

/-- Reads a text as one type. A text that is too long is not looked at. -/
def report (context : Context) (input : String) : Report :=
  let length := input.utf8ByteSize
  let limit := context.limits.maxInputLength
  if limit < length then
    { result := .error (.inputTooLong length limit), tokens := 0 }
  else
    let (result, p) := (Parser.start context input).parse
    { result, tokens := p.tokensConsumed }

/-- The type that a text describes. -/
def parse (context : Context) (input : String) : Except Failure DataType :=
  (report context input).result

end SqlTypes
