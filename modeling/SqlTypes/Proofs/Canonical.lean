import SqlTypes.DataType.Spelling
import SqlTypes.Proofs.Layout

/-!
# The phrase of a type

A spelling of a type over that of its atoms is that of a phrase, if those of the atoms are
(`DataType.tokens_phraseWith`). The phrase is as high as the type is deep
(`DataType.height_phraseWith`), and its tokens are read back from their layout
(`DataType.tokensOf_layout_tokensWith`). This is so for the canonical spelling.
-/

namespace SqlTypes

open Grammar Text

/-- The segments, quoted. -/
def QualifiedName.phrase (n : QualifiedName) : AtomPhrase :=
  match n.segments, n.ne_nil, n.length_le with
  | [a], _, _ => .name (.quoted a)
  | [b, a], _, _ => .nameIn (.quoted b) (.quoted a)
  | [c, b, a], _, _ => .nameInIn (.quoted c) (.quoted b) (.quoted a)

def Temporal.phrase (precision : Nat) : Temporal → AtomPhrase
  | .time => .time (some (toString precision)) false
  | .timestamp => .timestamp (some (toString precision)) .unmarked
  | .zonedTimestamp => .timestamp (some (toString precision)) .zoned
  | .localZonedTimestamp => .timestamp (some (toString precision)) .localZoned

def YearMonth.phrase (years : Nat) : YearMonth → AtomPhrase
  | .year => .years (some (toString years)) false
  | .yearToMonth => .years (some (toString years)) true
  | .month => .months

def Atom.phrase : Atom → AtomPhrase
  | .plain p => .plain p
  | .sized s length => .sized s (some (toString length))
  | .decimal precision scale => .decimalOf .decimal (toString precision) (some (toString scale))
  | .temporal t precision => t.phrase precision
  | .yearMonth range years => range.phrase years
  | .dayTime range days fraction => .dayTime range (some (toString days)) (some (toString fraction))
  | .raw r => .raw r.className r.snapshot
  | .legacy family payload => .legacy family.name payload
  | .unresolved name => name.phrase

def Member.phrase (m : Member Phrase) : MemberPhrase Phrase :=
  ⟨.quoted m.name, m.type, m.description⟩

/-- Puts a base together from the phrases of the parts; `atom` gives those of the atoms. -/
def Shape.phraseWith (atom : Atom → AtomPhrase) : Shape Phrase → BasePhrase Phrase
  | .atom a => .atom (atom a)
  | .collection c element => .collection c element
  | .map key value => .map key value
  | .row fields => .row false (fields.map Member.phrase)
  | .structured className attributes => .structured className (attributes.map Member.phrase)

namespace DataType

/-- The phrase of a type over those of the atoms. Only what is not nullable is marked. -/
def phraseWith (atom : Atom → AtomPhrase) (t : DataType) : Phrase :=
  t.fold fun s nullable => ⟨s.phraseWith atom, if nullable then .unmarked else .notNull, []⟩

/-- The phrase of the canonical spelling. -/
def phrase (t : DataType) : Phrase :=
  t.phraseWith Atom.phrase

theorem phraseWith_mk (atom : Atom → AtomPhrase) (s : Shape DataType) (nullable : Bool) :
    phraseWith atom ⟨s, nullable⟩ =
      ⟨(s.mapParts (phraseWith atom)).phraseWith atom, if nullable then .unmarked else .notNull,
        []⟩ := by
  rw [phraseWith, fold_mk]
  rfl

theorem tokensWith_mk (spell : Atom → List Token) (s : Shape DataType) (nullable : Bool) :
    tokensWith spell ⟨s, nullable⟩ = (s.mapParts (tokensWith spell)).tokens spell ++
      if nullable then [] else [.keyword .not, .keyword .null] := by
  rw [tokensWith, fold_mk]
  rfl

end DataType

theorem QualifiedName.tokens_phrase (n : QualifiedName) : n.phrase.tokens = n.tokens := by
  obtain ⟨segments, hne, hle, hempty⟩ := n
  match segments, hne, hle with
  | [a], _, _ => rfl
  | [b, a], _, _ => rfl
  | [c, b, a], _, _ => rfl

theorem Atom.tokens_phrase (a : Atom) : a.phrase.tokens = a.tokens := by
  cases a with
  | plain | sized | decimal | raw | legacy => rfl
  | temporal t => cases t <;> rfl
  | yearMonth range => cases range <;> rfl
  | dayTime range days fraction => cases range <;> rfl
  | unresolved name => exact name.tokens_phrase

theorem membersTokens_phrase : ∀ members : List (Member Phrase),
    Phrase.membersTokens (members.map Member.phrase) =
      memberTokens (members.map (·.map Phrase.tokens))
  | [] => rfl
  | m :: members => by
    have ih := membersTokens_phrase members
    simp only [memberTokens] at ih
    simp [Phrase.membersTokens, Member.phrase, memberTokens, Member.tokens, Member.map, Name.token,
      ih]

section

variable {atom : Atom → AtomPhrase} {spell : Atom → List Token}

theorem Shape.baseTokens_phraseWith (h : ∀ a, (atom a).tokens = spell a) (s : Shape Phrase) :
    Phrase.baseTokens (s.phraseWith atom) = (s.mapParts Phrase.tokens).tokens spell := by
  cases s with
  | atom a => exact h a
  | collection | map => rfl
  | row members | structured _ members =>
    simp [Shape.phraseWith, Phrase.baseTokens, Shape.tokens, mapParts, membersTokens_phrase]

theorem Shape.parts_phraseWith (s : Shape Phrase) : (s.phraseWith atom).parts = s.parts := by
  cases s <;> simp [Shape.phraseWith, BasePhrase.parts, parts, Member.phrase, Function.comp_def]

namespace DataType

/-- The phrase has the tokens of the spelling. -/
theorem tokens_phraseWith (h : ∀ a, (atom a).tokens = spell a) :
    ∀ t : DataType, (t.phraseWith atom).tokens = t.tokensWith spell :=
  forall_of_parts fun s nullable ih => by
    have hparts : s.mapParts (Phrase.tokens ∘ phraseWith atom) = s.mapParts (tokensWith spell) :=
      Shape.mapParts_congr ih
    rw [phraseWith_mk, tokensWith_mk, Phrase.tokens, Shape.baseTokens_phraseWith h,
      Shape.mapParts_mapParts, hparts, wrapperTokens, List.flatMap_nil, List.append_nil]
    cases nullable <;> rfl

/-- The phrase is as high as the type is deep. -/
theorem height_phraseWith : ∀ t : DataType, (t.phraseWith atom).height = t.depth :=
  forall_of_parts fun s nullable ih => by
    have hparts : s.parts.map (Phrase.height ∘ phraseWith atom) = s.parts.map depth :=
      List.map_congr_left ih
    rw [phraseWith_mk, Phrase.height_mk, depth_eq, Shape.parts_phraseWith, Shape.parts_mapParts,
      List.map_map, hparts, List.length_nil, Nat.max_zero]

theorem height_phrase (t : DataType) : t.phrase.height = t.depth :=
  t.height_phraseWith

end DataType

end

namespace Token

@[simp] theorem spelled_keyword (k : Keyword) : (keyword k).Spelled := trivial

@[simp] theorem spelled_symbol (s : Symbol) : (symbol s).Spelled := trivial

@[simp] theorem spelled_quoted (name : String) : (quoted name).Spelled := trivial

@[simp] theorem spelled_string (content : String) : (string content).Spelled := trivial

@[simp] theorem spelled_repr (n : Nat) : (integer n.repr).Spelled := by
  rw [Spelled, Nat.toList_repr]
  exact ⟨Nat.toDigits_ne_nil, fun c hc => Nat.isDigit_of_mem_toDigits (by decide) (by decide) hc⟩

end Token

theorem QualifiedName.spelled_tokens (n : QualifiedName) : ∀ t ∈ n.tokens, t.Spelled := by
  obtain ⟨segments, hne, hle, hempty⟩ := n
  match segments, hne, hle with
  | [a], _, _ | [b, a], _, _ | [c, b, a], _, _ => simp [QualifiedName.tokens]

theorem Atom.spelled_tokens (a : Atom) : ∀ t ∈ a.tokens, t.Spelled := by
  cases a with
  | plain | raw | legacy => simp [Atom.tokens]
  | sized | decimal => simp [Atom.tokens, numberTokens]
  | temporal t => cases t <;> simp [Atom.tokens, numberTokens, Temporal.zoneTokens]
  | yearMonth range => cases range <;> simp [Atom.tokens, numberTokens, YearMonth.tokens]
  | dayTime range =>
    cases range <;> simp [Atom.tokens, numberTokens, DayTime.tokens, DayTime.hasDay,
      DayTime.hasFraction, DayTime.first, DayTime.last]
  | unresolved name => exact name.spelled_tokens

section

variable {atom : Atom → AtomPhrase} {spell : Atom → List Token}
  (hspell : ∀ a, ∀ t ∈ spell a, t.Spelled)
include hspell

theorem Shape.spelled_tokens {s : Shape (List Token)} (h : ∀ ts ∈ s.parts, ∀ t ∈ ts, t.Spelled) :
    ∀ t ∈ s.tokens spell, t.Spelled := by
  have members : ∀ ms : List (Member (List Token)), (∀ m ∈ ms, ∀ t ∈ m.type, t.Spelled) →
      ∀ t ∈ memberTokens ms, t.Spelled := by
    intro ms hms t ht
    simp only [memberTokens, List.mem_flatMap, Member.tokens, List.mem_cons, List.mem_append] at ht
    obtain ⟨m, hm, rfl | rfl | ht | ht⟩ := ht
    · trivial
    · trivial
    · exact hms m hm t ht
    · cases hd : m.description <;> simp_all
  cases s with
  | atom a => exact hspell a
  | collection | map => simp_all [Shape.tokens, parts, or_imp, forall_and]
  | row ms =>
    have hms := members ms (by simpa [parts] using h)
    intro t ht
    simp only [Shape.tokens, List.mem_cons, List.mem_append, List.not_mem_nil, or_false] at ht
    rcases ht with rfl | rfl | ht | rfl
    · trivial
    · trivial
    · exact hms t (List.mem_of_mem_drop ht)
    · trivial
  | structured className ms =>
    have hms := members ms (by simpa [parts] using h)
    simpa [Shape.tokens, or_imp, forall_and] using hms

namespace DataType

theorem spelled_tokensWith : ∀ t : DataType, ∀ tok ∈ t.tokensWith spell, tok.Spelled :=
  forall_of_parts fun s nullable ih tok htok => by
    rw [tokensWith_mk, List.mem_append] at htok
    rcases htok with htok | htok
    · refine Shape.spelled_tokens hspell ?_ tok htok
      rw [Shape.parts_mapParts]
      simpa using ih
    · cases nullable <;> simp at htok
      rcases htok with rfl | rfl <;> trivial

/-- The tokens of the text are those of the phrase. -/
theorem tokensOf_layout_tokensWith (h : ∀ a, (atom a).tokens = spell a) (t : DataType) :
    (t.phraseWith atom).tokens = tokensOf (Token.layout (t.tokensWith spell)) := by
  rw [tokens_phraseWith h, Token.tokensOf_layout (t.spelled_tokensWith hspell)]

end DataType

end

/-- The tokens of the canonical text are those of the phrase. -/
theorem DataType.tokensOf_canonical (t : DataType) : t.phrase.tokens = tokensOf t.canonical :=
  t.tokensOf_layout_tokensWith Atom.spelled_tokens Atom.tokens_phrase

end SqlTypes
