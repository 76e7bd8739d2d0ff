import SqlTypes.Parser
import SqlTypes.Proofs.Meaning
import SqlTypes.Proofs.PhraseOutcome

/-!
# Which descriptions are accepted

The tokens of an accepted description are those of a phrase that is read as its type, and the parser
has nested as deep as this phrase is high (`Parser.exists_phrase`). The other way round, a
description whose tokens are those of a phrase is accepted if the phrase has a reading and is no
higher than the limit (`Parser.parse_phrase`).

So within the limits the grammar decides what is accepted. The type is the one that the phrase means
unless a `NULL` stands behind a legacy type that is not nullable: such a `NULL` is passed over, and
the type stays as it is.
-/

namespace SqlTypes

open Grammar Cursor

/-- The tokens of a text, without its end. -/
def tokensOf (input : String) : List Token :=
  (tokenize input).filterMap (·.token)

theorem Cursor.reach_fresh (ts : List Token) (h : Nat) : Cursor.reach { rest := ts } h = h := by
  rw [reach]
  split_ifs with hh
  · exact hh.symm
  · simp

namespace Reading

variable {loader : Loader} {limit : Nat} {c c' : Cursor} {t : DataType}

theorem run_get : (get : Reading Cursor).run c = .ok c c := rfl

theorem description_passes (h : (description loader limit).run c = .ok t c') :
    ∃ p : Phrase, p.tokens = c.rest ∧ p.reading? loader = some t ∧
      p.height ≤ limit - c.depth ∧ c.Passes p.tokens p.height c' := by
  rw [description, run_bind_of_ok run_get] at h
  obtain ⟨t₁, c₂, ht, h⟩ := run_bind_ok.1 h
  rw [run_bind_of_ok (run_peek c₂)] at h
  split at h
  · rename_i hend
    obtain ⟨rfl, rfl⟩ := run_pure_ok.1 h
    obtain ⟨p, hr, hp, hpasses⟩ := typeExpression_passes loader limit _ ht
    refine ⟨p, ?_, hr, hp, hpasses⟩
    rw [hpasses.rest, List.head?_eq_none_iff.1 hend, List.append_nil]
  · exact absurd h run_refuse_ne_ok

theorem description_outcome {p : Phrase} (hc : c.rest = p.tokens)
    (hp : p.height ≤ limit - c.depth) :
    Outcome c p.tokens p.height (p.reading? loader = some ·)
      ((description loader limit).run c) := by
  have hc : c.rest = p.tokens ++ [] := by rw [hc, List.append_nil]
  have hends : EndsType [] := nofun
  rw [description, run_bind_of_ok run_get]
  refine (typeExpression_outcome loader limit _ p hc hends hp).map (fun t ht => ⟨t, ht⟩)
    fun t c₁ ht hpasses => ?_
  rw [run_bind_of_ok (run_peek c₁), hpasses.rest_eq hc]
  exact ⟨ht, .refl c₁⟩

/-- Phrases with the same tokens are read as the same type, and are equally high. -/
theorem reading?_of_tokens_eq {p q : Phrase} (hpq : q.tokens = p.tokens)
    (hp : p.reading? loader = some t) : q.reading? loader = some t ∧ q.height = p.height := by
  obtain ⟨limit, hlp, hlq⟩ : ∃ limit, p.height ≤ limit - 0 ∧ q.height ≤ limit - 0 :=
    ⟨p.height + q.height, by omega, by omega⟩
  let c : Cursor := { rest := p.tokens }
  have hop : Outcome c p.tokens p.height (p.reading? loader = some ·)
    ((description loader limit).run c) := description_outcome rfl hlp
  have hoq : Outcome c q.tokens q.height (q.reading? loader = some ·)
    ((description loader limit).run c) := description_outcome hpq.symm hlq
  rcases hr : (description loader limit).run c with ⟨u, c₁⟩ | ⟨f, c₁⟩ <;> rw [hr] at hop hoq
  · obtain ⟨hread, hpasses⟩ := hop
    obtain ⟨hread', hpasses'⟩ := hoq
    refine ⟨hread'.trans (hread.symm.trans hp), ?_⟩
    have hd := hpasses'.deepest.symm.trans hpasses.deepest
    rwa [reach_fresh, reach_fresh] at hd
  · exact absurd hp (hop.2 t)

end Reading

section Parsing

variable {context : Context} {input : String} {t : DataType}

namespace Parser

theorem exists_phrase {q : Parser} (h : (start context input).parse = (.ok t, q)) :
    ∃ p : Phrase, p.tokens = tokensOf input ∧ p.reading? context.loader = some t ∧
      p.height ≤ context.limits.maxNestingDepth ∧ q.maxDepth = p.height := by
  rw [parse] at h
  split at h
  · rename_i t' cursor hr
    cases h
    obtain ⟨p, hp, hread, hheight, hpasses⟩ := Reading.description_passes hr
    exact ⟨p, hp, hread, hheight, hpasses.deepest.trans (reach_fresh _ _)⟩
  · cases h

/-- Reading a phrase ends with what it is read as, or with a fault of its meaning. -/
theorem parse_phrase {p : Phrase} (hp : p.tokens = tokensOf input)
    (hheight : p.height ≤ context.limits.maxNestingDepth) :
    (∃ t, p.reading? context.loader = some t ∧ (start context input).parse.1 = .ok t ∧
        (start context input).parse.2.maxDepth = p.height) ∨
      (p.reading? context.loader = none ∧ ∃ f : Fault, f.OfMeaning ∧
        (start context input).parse.1 = .error ((start context input).failure f)) := by
  have ho : Outcome (start context input).cursor p.tokens p.height
      (p.reading? context.loader = some ·)
      ((Reading.description context.loader context.limits.maxNestingDepth).run
        (start context input).cursor) :=
    Reading.description_outcome hp.symm hheight
  have hcontext : (start context input).context = context := rfl
  rw [parse, hcontext]
  rcases hr : (Reading.description context.loader context.limits.maxNestingDepth).run
    (start context input).cursor with ⟨t, c₁⟩ | ⟨f, c₁⟩ <;> rw [hr] at ho
  · exact .inl ⟨t, ho.1, rfl, ho.2.deepest.trans (reach_fresh _ _)⟩
  · exact .inr ⟨Option.eq_none_iff_forall_ne_some.2 ho.2, f, ho.1, rfl⟩

end Parser

theorem parse_eq (hlen : input.utf8ByteSize ≤ context.limits.maxInputLength) :
    parse context input = (Parser.start context input).parse.1 := by
  rw [parse, report, if_neg (Nat.not_lt.2 hlen)]

theorem parse_start_of_parse (h : parse context input = .ok t) :
    ∃ q, (Parser.start context input).parse = (.ok t, q) := by
  have hlen : input.utf8ByteSize ≤ context.limits.maxInputLength := by
    by_contra hlen
    rw [parse, report, if_pos (Nat.lt_of_not_le hlen)] at h
    cases h
  rw [parse_eq hlen] at h
  exact ⟨_, Prod.ext h rfl⟩

/-- An accepted description has the tokens of a phrase that is read as its type. -/
theorem exists_phrase_of_parse (h : parse context input = .ok t) :
    ∃ p : Phrase, tokensOf input = p.tokens ∧ p.type? context.loader false = some t := by
  obtain ⟨q, hq⟩ := parse_start_of_parse h
  obtain ⟨p, hp, hr, -, -⟩ := Parser.exists_phrase hq
  exact ⟨p, hp.symm, hr⟩

/-- Within the limits, a description with the tokens of a phrase has the type that this is read as.
-/
theorem parse_of_reading? {p : Phrase} (hp : p.tokens = tokensOf input)
    (hr : p.reading? context.loader = some t)
    (hlen : input.utf8ByteSize ≤ context.limits.maxInputLength)
    (hheight : p.height ≤ context.limits.maxNestingDepth) : parse context input = .ok t := by
  rw [parse_eq hlen]
  rcases Parser.parse_phrase hp hheight with ⟨u, hu, hparse, -⟩ | ⟨hnone, -⟩
  · rw [hparse, Option.some.inj (hu.symm.trans hr)]
  · rw [hr] at hnone
    cases hnone

/-- Within the limits, a description is accepted just if its tokens are those of a phrase that is
read as a type, which is one that means a type. It means the same one just if its `NULL`s are
heeded. -/
theorem parse_eq_ok_iff_phrase (context : Context) (input : String)
    (hlen : input.utf8ByteSize ≤ context.limits.maxInputLength)
    (hdepth : (tokensOf input).length ≤ context.limits.maxNestingDepth) :
    (∀ t, parse context input = .ok t ↔
      ∃ p : Phrase, p.tokens = tokensOf input ∧ p.reading? context.loader = some t) ∧
    ∀ p : Phrase, p.tokens = tokensOf input →
      ((∃ t, parse context input = .ok t) ↔ ∃ t, p.meaning? context.loader = some t) ∧
      ∀ t, p.meaning? context.loader = some t →
        (parse context input = .ok t ↔ p.NullsHeeded context.loader) := by
  have reads : ∀ p : Phrase, p.tokens = tokensOf input →
      ∀ t, parse context input = .ok t ↔ p.reading? context.loader = some t := by
    intro p hp t
    have hheight : p.height ≤ context.limits.maxNestingDepth :=
      (p.height_le_depth.trans p.depth_le_length).trans (hp ▸ hdepth)
    rw [parse_eq hlen]
    rcases Parser.parse_phrase hp hheight with ⟨u, hu, hparse, -⟩ | ⟨hnone, f, -, hparse⟩
    · rw [hparse, hu, Except.ok.injEq, Option.some.injEq]
    · simp [hparse, hnone]
  refine ⟨fun t => ⟨fun h => ?_, fun ⟨p, hp, hr⟩ => (reads p hp t).2 hr⟩, fun p hp => ⟨?_, ?_⟩⟩
  · obtain ⟨q, hq⟩ := parse_start_of_parse h
    obtain ⟨p, hp, hr, -, -⟩ := Parser.exists_phrase hq
    exact ⟨p, hp, hr⟩
  · constructor
    · rintro ⟨t, ht⟩
      exact Phrase.type?_exists p ((reads p hp t).1 ht)
    · rintro ⟨t, ht⟩
      obtain ⟨u, hu⟩ : ∃ u, p.reading? context.loader = some u := Phrase.type?_exists p ht
      exact ⟨u, (reads p hp u).2 hu⟩
  · intro t ht
    rw [reads p hp t]
    obtain ⟨u, hu⟩ : ∃ u, p.reading? context.loader = some u := Phrase.type?_exists p ht
    rw [← Phrase.meaning?_eq_iff hu, ht, hu, Option.some.injEq, Option.some.injEq]
    exact eq_comm

end Parsing

/-- A registry in which a legacy type stands for `INT NOT NULL`. -/
def legacyInt : Context :=
  let notNull : DataType := { shape := .atom (.plain .int), nullable := false }
  { loader := (Registry.empty.registerLegacy .char "x" notNull).loader }

/-- `LEGACY('CHAR', 'x') NULL` -/
def legacyNull : Phrase :=
  ⟨.atom (.legacy "CHAR" "x"), .null, []⟩

/-- What means `INT` here is read as `INT NOT NULL`. -/
theorem parse_legacyNull :
    legacyNull.tokens = tokensOf "LEGACY('CHAR', 'x') NULL" ∧
    legacyNull.meaning? legacyInt.loader = some { shape := .atom (.plain .int) } ∧
    parse legacyInt "LEGACY('CHAR', 'x') NULL" =
      .ok { shape := .atom (.plain .int), nullable := false } := by
  have htokens : legacyNull.tokens = tokensOf "LEGACY('CHAR', 'x') NULL" := by decide +kernel
  have hmeans : legacyNull.meaning? legacyInt.loader = some { shape := .atom (.plain .int) } := rfl
  have hreads : legacyNull.reading? legacyInt.loader =
      some { shape := .atom (.plain .int), nullable := false } := rfl
  have h := parse_eq_ok_iff_phrase legacyInt "LEGACY('CHAR', 'x') NULL" (by decide +kernel)
    (by decide +kernel)
  exact ⟨htokens, hmeans, (h.1 _).2 ⟨legacyNull, htokens, hreads⟩⟩

end SqlTypes
