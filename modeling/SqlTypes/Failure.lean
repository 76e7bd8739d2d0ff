/-!
# Failures

Why a description is refused or a type cannot be made, as callers see it: a stable kind, a text that
tools may rely on, and, where something outside failed, its cause.
-/

namespace SqlTypes

/-- Why a class loader cannot restore a type. -/
inductive LoadError where
  | classNotFound (className : String)
  | corruptSnapshot (className detail : String)
  | unknownLegacyType (family payload : String)
  | unsupported (detail : String)
  /-- Whatever else a loader fails with, which is known by its message alone. -/
  | other (message : String)
  deriving DecidableEq, Repr

def LoadError.message : LoadError → String
  | .classNotFound className => s!"class '{className}' could not be found"
  | .corruptSnapshot className detail =>
    s!"corrupt serializer snapshot for class '{className}': {detail}"
  | .unknownLegacyType family payload =>
    s!"no legacy type registered for root {family} and payload '{payload}'"
  | .unsupported detail => s!"class loading is not available: {detail}"
  | .other message => message

inductive ErrorKind where
  | unexpectedEnd | tokenExpected | keywordExpected | invalidInteger | unsupportedType
  | invalidResolution | unexpectedToken | unexpectedCharacter | invalidParameter | legacyRestore
  | rawRestore | nestingTooDeep | inputTooLong
  deriving DecidableEq, Repr

namespace ErrorKind

/-- Every kind, in order of declaration. -/
def all : List ErrorKind :=
  [.unexpectedEnd, .tokenExpected, .keywordExpected, .invalidInteger, .unsupportedType,
   .invalidResolution, .unexpectedToken, .unexpectedCharacter, .invalidParameter, .legacyRestore,
   .rawRestore, .nestingTooDeep, .inputTooLong]

/-- The stable name. -/
def name : ErrorKind → String
  | .unexpectedEnd => "unexpected_end"
  | .tokenExpected => "token_expected"
  | .keywordExpected => "keyword_expected"
  | .invalidInteger => "invalid_integer"
  | .unsupportedType => "unsupported_type"
  | .invalidResolution => "invalid_resolution"
  | .unexpectedToken => "unexpected_token"
  | .unexpectedCharacter => "unexpected_character"
  | .invalidParameter => "invalid_parameter"
  | .legacyRestore => "legacy_restore"
  | .rawRestore => "raw_restore"
  | .nestingTooDeep => "nesting_too_deep"
  | .inputTooLong => "input_too_long"

def ofName? (name : String) : Option ErrorKind :=
  all.find? (·.name = name)

/-- What a user can do about it, where there is something to say. -/
def suggestion? : ErrorKind → Option String
  | .unexpectedEnd => some "Close every '<', '(' and quote opened in the type string"
  | .invalidInteger =>
    some "Use a numeric parameter that fits into a 32-bit signed integer"
  | .rawRestore | .legacyRestore =>
    some "Make the referenced class available to the parse context"
  | .nestingTooDeep | .inputTooLong => some "Raise the limit in the parser configuration"
  | _ => none

end ErrorKind

inductive Failure where
  /-- A description is wrong at a byte offset. -/
  | parse (offset : Nat) (kind : ErrorKind) (detail input : String) (cause : Option LoadError)
  /-- A type cannot be made of these parameters. -/
  | invalidParameter (detail : String)
  /-- A raw type cannot be restored. -/
  | rawRestore (className snapshot : String) (cause : LoadError)
  /-- A description has more bytes than the limit allows. -/
  | inputTooLong (length limit : Nat)
  deriving DecidableEq, Repr

namespace Failure

def kind : Failure → ErrorKind
  | .parse _ kind _ _ _ => kind
  | .invalidParameter _ => .invalidParameter
  | .rawRestore .. => .rawRestore
  | .inputTooLong .. => .inputTooLong

/-- Where in the description the failure is, if it has a place. -/
def offset? : Failure → Option Nat
  | .parse offset _ _ _ _ => some offset
  | _ => none

/-- The whole text. -/
def message : Failure → String
  | .parse offset _ detail input _ =>
    s!"Could not parse type at position {offset}: {detail}\n Input type string: {input}"
  | .invalidParameter detail => detail
  | .rawRestore className snapshot _ =>
    s!"Unable to restore the RAW type of class '{className}' with serializer snapshot '{snapshot}'."
  | .inputTooLong length limit => s!"Type string too long: {length} bytes (max {limit})"

/-- The text without the place and the description. -/
def detail : Failure → String
  | .parse _ _ detail _ _ => detail
  | f => f.message

/-- Whether another description, rather than another environment, mends it. -/
def recoverable : Failure → Bool
  | .parse _ kind _ _ _ => kind ≠ .legacyRestore
  | .rawRestore .. => false
  | .invalidParameter _ | .inputTooLong .. => true

def suggestion? (f : Failure) : Option String :=
  f.kind.suggestion?

def cause? : Failure → Option LoadError
  | .parse _ _ _ _ cause => cause
  | .rawRestore _ _ cause => some cause
  | .invalidParameter _ | .inputTooLong .. => none

/-- Gives a failure in a description a cause; the others keep what they have. -/
def withCause (e : LoadError) : Failure → Failure
  | .parse offset kind detail input _ => .parse offset kind detail input (some e)
  | f => f

end Failure

end SqlTypes
