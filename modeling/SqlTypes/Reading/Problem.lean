import SqlTypes.BadParameter
import SqlTypes.Failure
import SqlTypes.Token

/-!
# Problems in a description

What a reader of tokens complains about, at which of the tokens. The wording is here; bytes and the
text of the description come in only when a failure is reported.
-/

namespace SqlTypes

inductive Problem where
  | unexpectedEnd
  | unexpectedCharacter (c : Char)
  | tokenExpected (expected : Category) (found : Token)
  | keywordExpected (expected : Keyword) (found : Token)
  | invalidInteger
  | unsupportedType (k : Keyword)
  | invalidResolution
  | unexpectedToken (found : Token)
  | invalidParameter (b : BadParameter)
  /-- There is a cause if the family is known and the loader has failed. -/
  | legacyRestore (family payload : String) (cause : Option LoadError)
  | nestingTooDeep (limit : Nat)
  deriving DecidableEq, Repr

namespace Problem

def kind : Problem → ErrorKind
  | .unexpectedEnd => .unexpectedEnd
  | .unexpectedCharacter _ => .unexpectedCharacter
  | .tokenExpected .. => .tokenExpected
  | .keywordExpected .. => .keywordExpected
  | .invalidInteger => .invalidInteger
  | .unsupportedType _ => .unsupportedType
  | .invalidResolution => .invalidResolution
  | .unexpectedToken _ => .unexpectedToken
  | .invalidParameter _ => .invalidParameter
  | .legacyRestore .. => .legacyRestore
  | .nestingTooDeep _ => .nestingTooDeep

def detail : Problem → String
  | .unexpectedEnd => "Unexpected end."
  | .unexpectedCharacter c => s!"Unexpected character '{c}'."
  | .tokenExpected expected found =>
    s!"<{expected.name}> expected but was <{found.category.name}>."
  | .keywordExpected expected found =>
    s!"Keyword '{expected.text}' expected but was '{found.text}'."
  | .invalidInteger => "Invalid integer value."
  | .unsupportedType k => s!"Unsupported type: {k.text}."
  | .invalidResolution => "Invalid interval resolution."
  | .unexpectedToken found => s!"Unexpected token: {found.text}."
  | .invalidParameter b => b.message
  | .legacyRestore family payload _ =>
    s!"Unable to restore the LEGACY type of '{payload}' with type root '{family}'."
  | .nestingTooDeep limit => s!"Type nesting exceeds the maximum depth of {limit}."

def cause? : Problem → Option LoadError
  | .legacyRestore _ _ cause => cause
  | _ => none

end Problem

/-- Where a problem is. -/
inductive Place where
  /-- At the token with this number, counting from 0; the end of the input comes after the last. -/
  | token (number : Nat)
  | endOfInput
  deriving DecidableEq, Repr

/-- Why reading stops. -/
inductive Fault where
  | problem (place : Place) (p : Problem)
  | rawRestore (className snapshot : String) (cause : LoadError)
  deriving DecidableEq, Repr

end SqlTypes
