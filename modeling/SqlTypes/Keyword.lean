/-!
# Keywords

The words with a meaning of their own. A word is a keyword in any mixture of upper and lower case
ASCII letters (`ofWord?_eq_some_iff`); no other letter counts as a case of one.
-/

namespace SqlTypes

inductive Keyword where
  | char | varchar | string | boolean | binary | varbinary | bytes | decimal | numeric | dec
  | tinyint | smallint | int | integer | bigint | float | double | precision | date | time
  | withKw | without | localKw | zone | timestamp | timestampLtz | interval | year | month | day
  | hour | minute | second | to | array | multiset | map | row | null | raw | legacy | not
  | descriptor | structured
  deriving DecidableEq, Repr

namespace Keyword

/-- The canonical, upper case spelling. -/
def text : Keyword → String
  | .char => "CHAR"
  | .varchar => "VARCHAR"
  | .string => "STRING"
  | .boolean => "BOOLEAN"
  | .binary => "BINARY"
  | .varbinary => "VARBINARY"
  | .bytes => "BYTES"
  | .decimal => "DECIMAL"
  | .numeric => "NUMERIC"
  | .dec => "DEC"
  | .tinyint => "TINYINT"
  | .smallint => "SMALLINT"
  | .int => "INT"
  | .integer => "INTEGER"
  | .bigint => "BIGINT"
  | .float => "FLOAT"
  | .double => "DOUBLE"
  | .precision => "PRECISION"
  | .date => "DATE"
  | .time => "TIME"
  | .withKw => "WITH"
  | .without => "WITHOUT"
  | .localKw => "LOCAL"
  | .zone => "ZONE"
  | .timestamp => "TIMESTAMP"
  | .timestampLtz => "TIMESTAMP_LTZ"
  | .interval => "INTERVAL"
  | .year => "YEAR"
  | .month => "MONTH"
  | .day => "DAY"
  | .hour => "HOUR"
  | .minute => "MINUTE"
  | .second => "SECOND"
  | .to => "TO"
  | .array => "ARRAY"
  | .multiset => "MULTISET"
  | .map => "MAP"
  | .row => "ROW"
  | .null => "NULL"
  | .raw => "RAW"
  | .legacy => "LEGACY"
  | .not => "NOT"
  | .descriptor => "DESCRIPTOR"
  | .structured => "STRUCTURED"

/-- Every keyword, in order of declaration. -/
def all : List Keyword :=
  [.char, .varchar, .string, .boolean, .binary, .varbinary, .bytes, .decimal, .numeric, .dec,
   .tinyint, .smallint, .int, .integer, .bigint, .float, .double, .precision, .date, .time,
   .withKw, .without, .localKw, .zone, .timestamp, .timestampLtz, .interval, .year, .month, .day,
   .hour, .minute, .second, .to, .array, .multiset, .map, .row, .null, .raw, .legacy, .not,
   .descriptor, .structured]

/-- The keyword that a word spells in some mixture of cases. -/
def ofWord? (word : List Char) : Option Keyword :=
  let upper := String.ofList (word.map Char.toUpper)
  all.find? (·.text = upper)

theorem mem_all (k : Keyword) : k ∈ all := by
  cases k <;> decide

theorem eq_of_text_eq : ∀ {k l : Keyword}, k.text = l.text → k = l := by
  have h : ∀ k ∈ all, ∀ l ∈ all, k.text = l.text → k = l := by decide
  intro k l
  exact h k (mem_all k) l (mem_all l)

theorem ofWord?_eq_some_iff {word : List Char} {k : Keyword} :
    ofWord? word = some k ↔ k.text = String.ofList (word.map Char.toUpper) := by
  constructor
  · intro h
    simpa using List.find?_some h
  · intro h
    cases hf : ofWord? word with
    | none =>
      have := List.find?_eq_none.1 hf k (mem_all k)
      simp [h] at this
    | some l =>
      have hl : l.text = String.ofList (word.map Char.toUpper) := by simpa using List.find?_some hf
      rw [eq_of_text_eq (hl.trans h.symm)]

end Keyword

end SqlTypes
