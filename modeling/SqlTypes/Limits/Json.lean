import SqlTypes.Limits

/-!
# Limits as JSON

Limits are written as a record of two numbers and read back from texts that may leave out either.
The codec that turns records into JSON texts and texts into values is not part of this library:
whoever configures from JSON brings one.
-/

namespace SqlTypes

/-- A record of natural numbers: the names of its fields, in the order of declaration, with their
values. -/
abbrev Record := List (String × Nat)

/-- Writes records of natural numbers as JSON texts and reads them back. -/
structure JsonCodec where
  write : Record → String
  /-- The values that a text gives to the fields of a record, by name; what the text leaves out
  keeps its value. -/
  read? : Record → (text : String) → Option (String → Nat)

namespace Limits

def depthKey : String := "max_nesting_depth"

def lengthKey : String := "max_input_length"

/-- The limits by name, in the order of declaration. -/
def record (l : Limits) : Record :=
  [(depthKey, l.maxNestingDepth), (lengthKey, l.maxInputLength)]

def ofValues (value : String → Nat) : Limits where
  maxNestingDepth := value depthKey
  maxInputLength := value lengthKey

def toJson (codec : JsonCodec) (l : Limits) : String :=
  codec.write l.record

/-- The limits that a text gives; what it leaves out is as by default. -/
def ofJson? (codec : JsonCodec) (text : String) : Option Limits :=
  (codec.read? ({} : Limits).record text).map ofValues

end Limits

end SqlTypes
