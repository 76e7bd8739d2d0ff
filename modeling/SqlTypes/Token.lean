import SqlTypes.Keyword
import SqlTypes.Text.Quoted

/-!
# Tokens

A type description is a sequence of tokens. Each token has one canonical text, and a category that
messages name.
-/

namespace SqlTypes

inductive Symbol where
  | openParen | closeParen | openAngle | closeAngle | comma | dot
  deriving DecidableEq, Repr

namespace Symbol

def char : Symbol → Char
  | .openParen => '('
  | .closeParen => ')'
  | .openAngle => '<'
  | .closeAngle => '>'
  | .comma => ','
  | .dot => '.'

def all : List Symbol :=
  [.openParen, .closeParen, .openAngle, .closeAngle, .comma, .dot]

def ofChar? (c : Char) : Option Symbol :=
  all.find? (·.char = c)

theorem ofChar?_char (s : Symbol) : ofChar? s.char = some s := by
  cases s <;> decide

theorem char_of_ofChar? {c : Char} {s : Symbol} (h : ofChar? c = some s) : s.char = c := by
  simpa using List.find?_some h

end Symbol

/-- What a message calls a token. -/
inductive Category where
  | keyword | identifier | integer | string | symbol (s : Symbol) | endOfInput | invalid
  deriving DecidableEq, Repr

def Category.name : Category → String
  | .keyword => "KEYWORD"
  | .identifier => "IDENTIFIER"
  | .integer => "LITERAL_INT"
  | .string => "LITERAL_STRING"
  | .symbol .openParen => "BEGIN_PARAMETER"
  | .symbol .closeParen => "END_PARAMETER"
  | .symbol .openAngle => "BEGIN_SUBTYPE"
  | .symbol .closeAngle => "END_SUBTYPE"
  | .symbol .comma => "LIST_SEPARATOR"
  | .symbol .dot => "IDENTIFIER_SEPARATOR"
  | .endOfInput => "EOF"
  | .invalid => "ERROR"

inductive Token where
  | keyword (k : Keyword)
  /-- A word that is no keyword. -/
  | word (name : String)
  /-- A name between backticks. -/
  | quoted (name : String)
  /-- A run of ASCII digits. -/
  | integer (digits : String)
  /-- A text between apostrophes. -/
  | string (content : String)
  | symbol (s : Symbol)
  /-- A quote that is never closed. -/
  | unterminated
  /-- A character that begins no token. -/
  | stray (c : Char)
  deriving DecidableEq, Repr

namespace Token

def backtick : Char := '\x60'

def apostrophe : Char := '\x27'

def category : Token → Category
  | .keyword _ => .keyword
  | .word _ | .quoted _ => .identifier
  | .integer _ => .integer
  | .string _ => .string
  | .symbol s => .symbol s
  | .unterminated | .stray _ => .invalid

/-- The canonical text: keywords in upper case, quotes inside a quoted text doubled. -/
def text : Token → String
  | .keyword k => k.text
  | .word name => name
  | .quoted name => String.ofList (Text.quote backtick name.toList)
  | .integer digits => digits
  | .string content => String.ofList (Text.quote apostrophe content.toList)
  | .symbol s => String.singleton s.char
  | .unterminated => "<unterminated>"
  | .stray c => String.singleton c

end Token

end SqlTypes
