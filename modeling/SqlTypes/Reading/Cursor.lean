import SqlTypes.Reading.Problem

/-!
# Reading tokens

A cursor stands before the tokens that are still to be read and counts what has happened so far. A
`Reading` moves it on and gives a value, or stops with a fault where it is. The first token after
the cursor is all that a reading ever looks at.
-/

namespace SqlTypes

structure Cursor where
  rest : List Token
  /-- How many tokens have been read. -/
  passed : Nat := 0
  /-- How many types are open. -/
  depth : Nat := 0
  /-- The most types that were ever open. -/
  deepest : Nat := 0
  /-- How many type expressions have been begun. -/
  begun : Nat := 0
  deriving DecidableEq, Repr

abbrev Reading := EStateM Fault Cursor

namespace Reading

/-- The next token, `none` at the end of the input. -/
def peek : Reading (Option Token) := do
  return (← get).rest.head?

/-- The number of the next token. -/
def here : Reading Nat := do
  return (← get).passed

/-- Passes the next token; at the end of the input there is nothing to pass. -/
def advance : Reading Unit :=
  modify fun c =>
    match c.rest with
    | [] => c
    | _ :: rest => { c with rest, passed := c.passed + 1 }

/-- One more type is open. -/
def enter : Reading Unit :=
  modify fun c => { c with depth := c.depth + 1, deepest := max c.deepest (c.depth + 1) }

/-- One type is complete. -/
def leave : Reading Unit :=
  modify fun c => { c with depth := c.depth - 1 }

/-- A type expression begins. -/
def begin : Reading Unit :=
  modify fun c => { c with begun := c.begun + 1 }

def failAt {α : Type} (place : Place) (p : Problem) : Reading α :=
  throw (.problem place p)

/-- Stops at the next token because it cannot stand here. The end of the input and what is no proper
token are problems of their own, whatever `p` says of a token. -/
def refuse {α : Type} (p : Token → Problem) : Reading α := do
  match ← peek with
  | none | some .unterminated => failAt .endOfInput .unexpectedEnd
  | some (.stray c) => failAt (.token (← here)) (.unexpectedCharacter c)
  | some t => failAt (.token (← here)) (p t)

/-- Stops at a token if a parameter is bad. -/
def orFailAt {α : Type} (number : Nat) : Except BadParameter α → Reading α
  | .ok a => pure a
  | .error b => failAt (.token number) (.invalidParameter b)

/-- Passes the next token if it is `t`; whether it was. -/
def accept (t : Token) : Reading Bool := do
  if (← peek) = some t then
    advance
    return true
  else
    return false

def acceptKeyword (k : Keyword) : Reading Bool :=
  accept (.keyword k)

def expectSymbol (s : Symbol) : Reading Unit := do
  unless ← accept (.symbol s) do
    refuse (.tokenExpected (.symbol s))

def expectKeyword (k : Keyword) : Reading Unit := do
  unless ← acceptKeyword k do
    refuse (.keywordExpected k)

/-- A text between apostrophes, if one comes next. -/
def string? : Reading (Option String) := do
  match ← peek with
  | some (.string content) =>
    advance
    return some content
  | _ => return none

def string : Reading String := do
  match ← string? with
  | some content => return content
  | none => refuse (.tokenExpected .string)

/-- A word that is no keyword, or a quoted name. -/
def name : Reading String := do
  match ← peek with
  | some (.word name) | some (.quoted name) =>
    advance
    return name
  | _ => refuse (.tokenExpected .identifier)

end Reading

end SqlTypes
