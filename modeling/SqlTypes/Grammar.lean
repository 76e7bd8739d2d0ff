import SqlTypes.DataType.Construction
import SqlTypes.DataType.Keyword
import SqlTypes.Loader
import SqlTypes.Text.Digits

/-!
# The grammar of descriptions

A phrase is a description taken apart by the grammar, every alternative and every optional part
included. It has tokens, whatever it means, and it means a type, if all its numbers, names and
parameters are good and the loader knows what it names. Both are computed from the parts up, without
any reading: they say what a reader of descriptions has to find. What a phrase is read as differs
from what it means only in that an explicit `NULL` is passed over.
-/

namespace SqlTypes

namespace Grammar

/-- A name, plain or between backticks. -/
inductive Name where
  | word (name : String)
  | quoted (name : String)

/-- `[ NOT NULL | NULL ]` -/
inductive Nullability where
  | unmarked | null | notNull

/-- `[ WITHOUT TIME ZONE | WITH TIME ZONE | WITH LOCAL TIME ZONE ]` -/
inductive Zone where
  | unmarked | without | zoned | localZoned

/-- `DECIMAL | DEC | NUMERIC` -/
inductive DecimalWord where
  | decimal | dec | numeric

/-- A base without a type in it. Parameters are runs of digits; an optional one may be missing. -/
inductive AtomPhrase where
  | plain (p : Plain)
  /-- `INTEGER` -/
  | integer
  /-- `DOUBLE PRECISION` -/
  | doublePrecision
  | sized (s : Sized) (length : Option String)
  /-- `STRING` -/
  | string
  /-- `BYTES` -/
  | bytes
  | decimal (w : DecimalWord)
  | decimalOf (w : DecimalWord) (precision : String) (scale : Option String)
  | time (precision : Option String) (without : Bool)
  | timestamp (precision : Option String) (z : Zone)
  /-- `TIMESTAMP_LTZ` -/
  | localZonedTimestamp (precision : Option String)
  /-- `INTERVAL YEAR`, up to months or not. -/
  | years (precision : Option String) (toMonth : Bool)
  /-- `INTERVAL MONTH` -/
  | months
  /-- `INTERVAL` and a range below the month, without the precisions that the range does not use. -/
  | dayTime (range : DayTime) (days fraction : Option String)
  | raw (className snapshot : String)
  | legacy (family payload : String)
  | name (first : Name)
  | nameIn (second first : Name)
  | nameInIn (third second first : Name)

/-- `name type [ description ]` -/
structure MemberPhrase (τ : Type) where
  name : Name
  type : τ
  description : Option String

/-- A base over the phrases in it. -/
inductive BasePhrase (τ : Type) where
  | atom (a : AtomPhrase)
  | collection (c : Collection) (element : τ)
  | map (key value : τ)
  /-- A row in angle brackets or in round ones. -/
  | row (round : Bool) (fields : List (MemberPhrase τ))
  | structured (className : String) (attributes : List (MemberPhrase τ))

/-- `base nullability ((ARRAY | MULTISET) nullability)*` -/
structure Phrase where
  base : BasePhrase Phrase
  nullability : Nullability
  wrappers : List (Collection × Nullability)

def Name.token : Name → Token
  | .word name => .word name
  | .quoted name => .quoted name

def Name.text : Name → String
  | .word name | .quoted name => name

def Nullability.tokens : Nullability → List Token
  | .unmarked => []
  | .null => [.keyword .null]
  | .notNull => [.keyword .not, .keyword .null]

def Zone.tokens : Zone → List Token
  | .unmarked => []
  | .without => [.keyword .without, .keyword .time, .keyword .zone]
  | .zoned => [.keyword .withKw, .keyword .time, .keyword .zone]
  | .localZoned => [.keyword .withKw, .keyword .localKw, .keyword .time, .keyword .zone]

def DecimalWord.keyword : DecimalWord → Keyword
  | .decimal => .decimal
  | .dec => .dec
  | .numeric => .numeric

/-- `[ ( digits ) ]` -/
def parameterTokens : Option String → List Token
  | none => []
  | some digits => [.symbol .openParen, .integer digits, .symbol .closeParen]

/-- `[ ( digits ) ]`, if the precision is used. -/
def precisionTokens (used : Bool) (digits : Option String) : List Token :=
  if used then parameterTokens digits else []

/-- `[ TO MONTH ]` -/
def monthTokens (toMonth : Bool) : List Token :=
  if toMonth then [.keyword .to, .keyword .month] else []

/-- `[ TO unit ]`, if a range has a second unit. -/
def endTokens (range : DayTime) : List Token :=
  if range.first = range.last then [] else [.keyword .to, .keyword range.last.keyword]

/-- `[ , digits ]` -/
def scaleTokens : Option String → List Token
  | none => []
  | some digits => [.symbol .comma, .integer digits]

/-- `( string , string )` -/
def stringsTokens (a b : String) : List Token :=
  [.symbol .openParen, .string a, .symbol .comma, .string b, .symbol .closeParen]

namespace AtomPhrase

def tokens : AtomPhrase → List Token
  | .plain p => [.keyword p.keyword]
  | .integer => [.keyword .integer]
  | .doublePrecision => [.keyword .double, .keyword .precision]
  | .sized s length => .keyword s.keyword :: parameterTokens length
  | .string => [.keyword .string]
  | .bytes => [.keyword .bytes]
  | .decimal w => [.keyword w.keyword]
  | .decimalOf w precision scale =>
    .keyword w.keyword :: .symbol .openParen :: .integer precision ::
      (scaleTokens scale ++ [.symbol .closeParen])
  | .time precision without =>
    .keyword .time ::
      (parameterTokens precision ++ (if without then Zone.without else Zone.unmarked).tokens)
  | .timestamp precision z => .keyword .timestamp :: (parameterTokens precision ++ z.tokens)
  | .localZonedTimestamp precision => .keyword .timestampLtz :: parameterTokens precision
  | .years precision toMonth =>
    .keyword .interval :: .keyword .year :: (parameterTokens precision ++ monthTokens toMonth)
  | .months => [.keyword .interval, .keyword .month]
  | .dayTime range days fraction =>
    .keyword .interval :: .keyword range.first.keyword ::
      (precisionTokens range.hasDay days ++
        (endTokens range ++ precisionTokens range.hasFraction fraction))
  | .raw className snapshot => .keyword .raw :: stringsTokens className snapshot
  | .legacy family payload => .keyword .legacy :: stringsTokens family payload
  | .name a => [a.token]
  | .nameIn b a => [b.token, .symbol .dot, a.token]
  | .nameInIn c b a => [c.token, .symbol .dot, b.token, .symbol .dot, a.token]

end AtomPhrase

def wrapperTokens (wrappers : List (Collection × Nullability)) : List Token :=
  wrappers.flatMap fun (c, n) => .keyword c.keyword :: n.tokens

namespace Phrase

mutual

/-- The tokens of a phrase, in order. -/
def tokens : Phrase → List Token
  | ⟨b, n, wrappers⟩ => baseTokens b ++ n.tokens ++ wrapperTokens wrappers

def baseTokens : BasePhrase Phrase → List Token
  | .atom a => a.tokens
  | .collection c element =>
    .keyword c.keyword :: .symbol .openAngle :: (element.tokens ++ [.symbol .closeAngle])
  | .map key value =>
    .keyword .map :: .symbol .openAngle ::
      (key.tokens ++ .symbol .comma :: (value.tokens ++ [.symbol .closeAngle]))
  | .row round fields =>
    .keyword .row :: .symbol (if round then .openParen else .openAngle) ::
      ((membersTokens fields).drop 1 ++ [.symbol (if round then .closeParen else .closeAngle)])
  | .structured className attributes =>
    .keyword .structured :: .symbol .openAngle :: .string className ::
      (membersTokens attributes ++ [.symbol .closeAngle])

/-- Members, each after a comma. -/
def membersTokens : List (MemberPhrase Phrase) → List Token
  | [] => []
  | ⟨name, type, description⟩ :: members =>
    .symbol .comma :: name.token ::
      (type.tokens ++ (description.map Token.string).toList ++ membersTokens members)

end

end Phrase

/-- The token sequences that the grammar allows. -/
def Sentence (ts : List Token) : Prop :=
  ∃ p : Phrase, p.tokens = ts

/-! ## Meaning -/

/-- The value of a run of digits. -/
def number? (digits : String) : Option Nat :=
  let n := Nat.ofDigitChars 10 digits.toList 0
  if n ≤ largestInteger then some n else none

/-- The value of a parameter, or the one of a parameter that is left out. -/
def parameter? (omitted : Nat) : Option String → Option Nat
  | none => some omitted
  | some digits => number? digits

/-- The value of a precision, which is the one of a precision that is left out if it is not used. -/
def precision? (omitted : Nat) (used : Bool) (digits : Option String) : Option Nat :=
  parameter? omitted (if used then digits else none)

/-- The type of a shape, if it is valid. -/
def make? (s : Shape DataType) : Option DataType :=
  (DataType.new s).toOption

/-- The type that a nullability makes of the type before it. A `NULL` makes it nullable where it is
heeded, and leaves it as it is where not. -/
def Nullability.mark? (heeded : Bool) (t : DataType) : Nullability → Option DataType
  | .unmarked => some t
  | .null => if heeded then (t.withNullability true).toOption else some t
  | .notNull => (t.withNullability false).toOption

def Zone.temporal : Zone → Temporal
  | .unmarked | .without => .timestamp
  | .zoned => .zonedTimestamp
  | .localZoned => .localZonedTimestamp

def unresolved? (names : List Name) : Option DataType := do
  let name ← (QualifiedName.ofSegments (names.map Name.text)).toOption
  make? (.atom (.unresolved name))

/-- The type that an atom means. -/
def AtomPhrase.meaning? (loader : Loader) : AtomPhrase → Option DataType
  | .plain p => make? (.atom (.plain p))
  | .integer => make? (.atom (.plain .int))
  | .doublePrecision => make? (.atom (.plain .double))
  | .sized s length => do
    let n ← parameter? (Parameter.length s).omitted length
    make? (.atom (.sized s n))
  | .string => make? (.atom (.sized .varchar (Parameter.length .varchar).greatest))
  | .bytes => make? (.atom (.sized .varbinary (Parameter.length .varbinary).greatest))
  | .decimal _ => make? (.atom (.decimal Parameter.decimalPrecision.omitted omittedScale))
  | .decimalOf _ precision scale => do
    let precision ← number? precision
    let scale ← parameter? omittedScale scale
    make? (.atom (.decimal precision scale))
  | .time precision _ => do
    let n ← parameter? (Parameter.precision .time).omitted precision
    make? (.atom (.temporal .time n))
  | .timestamp precision z => do
    let n ← parameter? (Parameter.precision .timestamp).omitted precision
    make? (.atom (.temporal z.temporal n))
  | .localZonedTimestamp precision => do
    let n ← parameter? (Parameter.precision .localZonedTimestamp).omitted precision
    make? (.atom (.temporal .localZonedTimestamp n))
  | .years precision toMonth => do
    let n ← parameter? Parameter.yearPrecision.omitted precision
    make? (.atom (.yearMonth (if toMonth then .yearToMonth else .year) n))
  | .months => make? (.atom (.yearMonth .month Parameter.yearPrecision.omitted))
  | .dayTime range days fraction => do
    let days ← precision? Parameter.dayPrecision.omitted range.hasDay days
    let fraction ← precision? Parameter.fractionPrecision.omitted range.hasFraction fraction
    make? (.atom (.dayTime range days fraction))
  | .raw className snapshot => do
    let r ← (loader.restore className snapshot).toOption
    make? (.atom (.raw r))
  | .legacy family payload => do
    let f ← Family.ofName? family
    (loader.resolve f payload).toOption
  | .name a => unresolved? [a]
  | .nameIn b a => unresolved? [b, a]
  | .nameInIn c b a => unresolved? [c, b, a]

/-- The type that wrappers make of the type before them. -/
def wrap? (heeded : Bool) (t : DataType) (wrappers : List (Collection × Nullability)) :
    Option DataType :=
  wrappers.foldlM (fun t (c, n) => n.mark? heeded { shape := .collection c t }) t

namespace Phrase

section

variable (loader : Loader) (heeded : Bool)

mutual

/-- The type that a phrase means, where an explicit `NULL` is heeded or not. -/
def type? : Phrase → Option DataType
  | ⟨b, n, wrappers⟩ => do
    let t ← baseType? b
    let t ← n.mark? heeded t
    wrap? heeded t wrappers

def baseType? : BasePhrase Phrase → Option DataType
  | .atom a => a.meaning? loader
  | .collection c element => do
    let t ← element.type?
    make? (.collection c t)
  | .map key value => do
    let k ← key.type?
    let v ← value.type?
    make? (.map k v)
  | .row _ fields => do
    let members ← membersType? fields
    make? (.row members)
  | .structured className attributes => do
    let members ← membersType? attributes
    make? (.structured className members)

def membersType? : List (MemberPhrase Phrase) → Option (List (Member DataType))
  | [] => some []
  | ⟨name, type, description⟩ :: members => do
    let t ← type.type?
    let ms ← membersType? members
    return { name := name.text, type := t, description } :: ms

end

end

/-- The type that a phrase means: every nullability decides that of the type before it. -/
def meaning? (loader : Loader) (p : Phrase) : Option DataType :=
  p.type? loader true

/-- The type that a phrase is read as: a `NULL` is passed over. -/
def reading? (loader : Loader) (p : Phrase) : Option DataType :=
  p.type? loader false

end Phrase

end Grammar

end SqlTypes
