import SqlTypes.Token
import SqlTypes.Text.ByteLength
import SqlTypes.Text.CharClass

/-!
# Scanning a text for tokens

A scanner stands in a text and takes one token after the other off it, each with the bytes it
occupies. Past the last token it stays at the end of the text.
-/

namespace SqlTypes

/-- A token and where it stands, in bytes from the start of the text: from `start` up to, not
including, `stop`. There is no token at the end of the text. -/
structure Lexeme where
  token : Option Token
  start : Nat
  stop : Nat
  deriving DecidableEq, Repr

namespace Lexeme

def category (l : Lexeme) : Category :=
  match l.token with
  | some t => t.category
  | none => .endOfInput

def text (l : Lexeme) : String :=
  match l.token with
  | some t => t.text
  | none => "<EOF>"

end Lexeme

namespace Token

/-- The token that a word is. -/
def ofWord (word : List Char) : Token :=
  match Keyword.ofWord? word with
  | some k => .keyword k
  | none => .word (String.ofList word)

/-- A quoted text whose opening quote is past, and what follows it. An unclosed one takes all. -/
def takeQuoted (q : Char) (make : String → Token) (cs : List Char) : Token × List Char :=
  match Text.closing? q [] cs with
  | some (content, rest) => (make (String.ofList content), rest)
  | none => (.unterminated, [])

/-- The first token of a text that begins with `c`, which is no separator, and what follows it. -/
def take (c : Char) (cs : List Char) : Token × List Char :=
  if c = backtick then
    takeQuoted c .quoted cs
  else if c = apostrophe then
    takeQuoted c .string cs
  else if c.isDigit then
    (.integer (String.ofList (c :: cs.takeWhile Char.isDigit)), cs.dropWhile Char.isDigit)
  else
    match Symbol.ofChar? c with
    | some s => (.symbol s, cs)
    | none =>
      if Text.isWordStart c then
        (ofWord (c :: cs.takeWhile Text.isWordPart), cs.dropWhile Text.isWordPart)
      else
        (.stray c, cs)

theorem length_closing?_le {q : Char} {before cs content rest : List Char}
    (h : Text.closing? q before cs = some (content, rest)) : rest.length ≤ cs.length := by
  obtain ⟨v, -, rfl, -⟩ := Text.eq_append_of_closing? h
  simp only [List.length_append, List.length_cons]
  omega

theorem length_dropWhile_le (p : Char → Bool) (cs : List Char) :
    (cs.dropWhile p).length ≤ cs.length :=
  (List.dropWhile_suffix p).length_le

theorem length_takeQuoted_le (q : Char) (make : String → Token) (cs : List Char) :
    (takeQuoted q make cs).2.length ≤ cs.length := by
  unfold takeQuoted
  split
  · exact length_closing?_le (by assumption)
  · simp

/-- A token takes at least its first character. -/
theorem length_take_le (c : Char) (cs : List Char) : (take c cs).2.length ≤ cs.length := by
  unfold take
  split
  · exact length_takeQuoted_le ..
  split
  · exact length_takeQuoted_le ..
  split
  · exact length_dropWhile_le ..
  split
  · exact Nat.le_refl _
  split
  · exact length_dropWhile_le ..
  · exact Nat.le_refl _

end Token

/-- A place in a text: what is left of it, and the number of bytes before. -/
structure Scanner where
  rest : List Char
  offset : Nat := 0
  deriving DecidableEq, Repr

namespace Scanner

def ofString (s : String) : Scanner :=
  { rest := s.toList }

/-- The bytes of the characters that were taken off the text `cs` if `rest` is left of it. -/
def width (cs rest : List Char) : Nat :=
  Text.byteLength cs - Text.byteLength rest

@[simp] theorem width_append (cs rest : List Char) :
    width (cs ++ rest) rest = Text.byteLength cs := by
  rw [width, Text.byteLength_append, Nat.add_sub_cancel]

/-- Passes separators and takes one token. -/
def next (s : Scanner) : Lexeme × Scanner :=
  let start := s.offset + Text.byteLength (s.rest.takeWhile Text.isSeparator)
  match s.rest.dropWhile Text.isSeparator with
  | [] => (⟨none, start, start⟩, ⟨[], start⟩)
  | c :: cs =>
    let (token, rest) := Token.take c cs
    let stop := start + width (c :: cs) rest
    (⟨some token, start, stop⟩, ⟨rest, stop⟩)

theorem length_next_lt {s : Scanner} (h : s.next.1.token ≠ none) :
    s.next.2.rest.length < s.rest.length := by
  have hd := Token.length_dropWhile_le Text.isSeparator s.rest
  unfold next at h ⊢
  split at h <;> rename_i hs
  · simp at h
  · rename_i c cs
    have := Token.length_take_le c cs
    simp only [hs, List.length_cons] at hd ⊢
    omega

/-- The lexemes from here on up to the end of the text, behind those in `before` reversed. Each
takes a character off the text, so `bound` need not be longer than that. -/
def remaining (s : Scanner) (before : List Lexeme) : (bound : List Char) → List Lexeme
  | [] => (s.next.1 :: before).reverse
  | _ :: bound =>
    if s.next.1.token = none then (s.next.1 :: before).reverse
    else s.next.2.remaining (s.next.1 :: before) bound

/-- What `n` steps take off the text. -/
def steps : Nat → Scanner → List Lexeme
  | 0, _ => []
  | n + 1, s => s.next.1 :: steps n s.next.2

end Scanner

/-- The lexemes of a text; the last one, and no other, is the end of the text. -/
def tokenize (s : String) : List Lexeme :=
  (Scanner.ofString s).remaining [] s.toList

end SqlTypes
