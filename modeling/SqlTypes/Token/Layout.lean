import SqlTypes.Token

/-!
# Writing tokens

The standard layout of a sequence of tokens: one blank between neighbours, but none after an opening
bracket or a dot, and none before a symbol. A comma is followed by a blank and never preceded by
one.
-/

namespace SqlTypes

namespace Token

/-- Whether a blank stands between two neighbours. -/
def spaced : Token → Token → Bool
  | .symbol .comma, _ => true
  | .symbol .openParen, _ | .symbol .openAngle, _ | .symbol .dot, _ => false
  | _, .symbol _ => false
  | _, _ => true

/-- The texts of the tokens with the blanks between them. -/
def pieces : List Token → List String
  | [] => []
  | [t] => [t.text]
  | t :: u :: ts => t.text :: (if spaced t u then [" "] else []) ++ pieces (u :: ts)

/-- The standard layout. -/
def layout (ts : List Token) : String :=
  String.join (pieces ts)

end Token

end SqlTypes
