/-!
# Limits

How deep types may nest, counting the outermost as 1, and how many bytes a description may have.
-/

namespace SqlTypes

structure Limits where
  maxNestingDepth : Nat := 128
  maxInputLength : Nat := 1048576
  deriving DecidableEq, Repr

end SqlTypes
