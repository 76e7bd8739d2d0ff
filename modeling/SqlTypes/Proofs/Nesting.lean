import SqlTypes.Proofs.Canonical

/-!
# Nesting of accepted types

The parser nests as deep as the phrase of a description is high, and this is what the limit bounds.
The type is as deep as the phrase, so it may be deeper: collections behind a base that holds types
count beside these types for the parser, but go around them in the type. Both agree where this does
not happen on a deepest way into the description.

A type that is no deeper than the limit can be read back under it (`kind_of_parse_canonical`).
-/

namespace SqlTypes

open Grammar

theorem Fault.OfMeaning.kind_ne {f : Fault} (hf : f.OfMeaning) (q : Parser) :
    (q.failure f).kind ≠ .nestingTooDeep := by
  cases f with
  | problem place b => cases b <;> first | exact hf.elim | nofun
  | rawRestore => nofun

/-- No canonical text of a type within the limit nests too deep. -/
theorem kind_of_parse_canonical {context : Context} {t : DataType} {e : Failure}
    (hdepth : t.depth ≤ context.limits.maxNestingDepth)
    (h : parse context t.canonical = .error e) : e.kind ≠ .nestingTooDeep := by
  by_cases hlen : t.canonical.utf8ByteSize ≤ context.limits.maxInputLength
  · rw [parse_eq hlen] at h
    rw [← t.height_phrase] at hdepth
    rcases Parser.parse_phrase t.tokensOf_canonical hdepth with
      ⟨u, -, hparse, -⟩ | ⟨-, f, hf, hparse⟩
    · rw [hparse] at h
      cases h
    · rw [hparse, Except.error.injEq] at h
      exact h ▸ hf.kind_ne _
  · rw [parse, report, if_pos (Nat.lt_of_not_le hlen), Except.error.injEq] at h
    rw [← h]
    simp [Failure.kind]

/-- An accepted description without `LEGACY` has a phrase. The parser nests as deep as the phrase is
high, within the limit, and the type is as deep as the phrase. These agree just if a deepest part of
the phrase is unmixed; then the type is within the limit. The canonical text of a type within the
limit does not nest too deep. -/
theorem nesting_of_parse {context : Context} {input : String} {t : DataType}
    (h : parse context input = .ok t) (hlegacy : .keyword .legacy ∉ tokensOf input) :
    Sentence (tokensOf input) ∧ ∀ p : Phrase, p.tokens = tokensOf input →
      (Parser.start context input).parse.2.maxDepth = p.height ∧
      p.height ≤ context.limits.maxNestingDepth ∧
      t.depth = p.depth ∧
      ((Parser.start context input).parse.2.maxDepth = t.depth ↔ p.DeepestUnmixed) ∧
      (p.DeepestUnmixed → t.depth ≤ context.limits.maxNestingDepth) ∧
      (t.depth ≤ context.limits.maxNestingDepth →
        ∀ context' : Context, context'.limits.maxNestingDepth = context.limits.maxNestingDepth →
          ∀ e, parse context' t.canonical = .error e → e.kind ≠ .nestingTooDeep) := by
  obtain ⟨q, hq⟩ := parse_start_of_parse h
  obtain ⟨p₀, hp₀, hread₀, hheight₀, hmax⟩ := Parser.exists_phrase hq
  refine ⟨⟨p₀, hp₀⟩, fun p hp => ?_⟩
  obtain ⟨hread, hheight⟩ := Reading.reading?_of_tokens_eq (hp.trans hp₀.symm) hread₀
  have hdepth : t.depth = p.depth := Phrase.depth_of_type? p (hp ▸ hlegacy) hread
  have hq₂ : (Parser.start context input).parse.2.maxDepth = p.height := by
    rw [hq, hmax, hheight]
  have hlimit : p.height ≤ context.limits.maxNestingDepth := hheight ▸ hheight₀
  have hagree := p.height_eq_depth_iff
  refine ⟨hq₂, hlimit, hdepth, by rw [hq₂, hdepth, hagree], fun hun => ?_, ?_⟩
  · rwa [hdepth, ← hagree.2 hun]
  · intro hle context' hc e he
    exact kind_of_parse_canonical (hc ▸ hle) he

def twoDeep : Context := { limits := { maxNestingDepth := 2 } }

/-- `ARRAY<INT> ARRAY` -/
def arrayBehindArray : Phrase :=
  ⟨.collection .array ⟨.atom (.plain .int), .unmarked, []⟩, .unmarked, [(.array, .unmarked)]⟩

/-- `ARRAY<ARRAY<INT>>` -/
def arrayOfArray : DataType :=
  { shape := .collection .array { shape := .collection .array { shape := .atom (.plain .int) } } }

/-- Within a limit of 2, a type of depth 3 is accepted. -/
theorem nesting_arrayBehindArray :
    parse twoDeep "ARRAY<INT> ARRAY" = .ok arrayOfArray ∧
      (Parser.start twoDeep "ARRAY<INT> ARRAY").parse.2.maxDepth = 2 ∧ arrayOfArray.depth = 3 := by
  have h : parse twoDeep "ARRAY<INT> ARRAY" = .ok arrayOfArray := by decide +kernel
  have hphrase : arrayBehindArray.tokens = tokensOf "ARRAY<INT> ARRAY" := by decide +kernel
  obtain ⟨hmax, -, hdepth, -⟩ := (nesting_of_parse h (by decide +kernel)).2 arrayBehindArray hphrase
  exact ⟨h, hmax, hdepth⟩

end SqlTypes
