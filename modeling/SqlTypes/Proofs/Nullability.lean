import SqlTypes.Proofs.Acceptance

/-!
# Nullability of accepted types

A type is not nullable just if its description ends with `NOT NULL`, or is that of a legacy type
which is not nullable, with or without a `NULL` behind it (`nullable_eq_false_iff`). So a `NULL` at
the end makes the type nullable except behind such a legacy type, where it is passed over.
-/

namespace SqlTypes

open Grammar

namespace Grammar

variable {loader : Loader} {heeded : Bool} {t u : DataType}

/-- The tokens are those of a legacy type that is not nullable. -/
def LegacyNotNull (loader : Loader) (ts : List Token) : Prop :=
  ∃ root payload f u, ts = (AtomPhrase.legacy root payload).tokens ∧
    Family.ofName? root = some f ∧ loader.resolve f payload = .ok u ∧ u.nullable = false

theorem snoc_inj {us vs : List Token} {x y : Token} : us ++ [x] = vs ++ [y] ↔ us = vs ∧ x = y := by
  constructor
  · intro h
    obtain ⟨hus, hx⟩ := List.append_inj' h rfl
    exact ⟨hus, by simpa using hx⟩
  · rintro ⟨rfl, rfl⟩
    rfl

@[simp] theorem keyword_notMem_parameterTokens (k : Keyword) (d : Option String) :
    .keyword k ∉ parameterTokens d := by
  cases d <;> simp [parameterTokens]

/-- The words of a nullability do not stand in an atom, except for the null type. -/
theorem AtomPhrase.notMem_tokens (a : AtomPhrase) :
    .keyword .not ∉ a.tokens ∧ (.keyword .null ∈ a.tokens → a.tokens = [.keyword .null]) := by
  cases a with
  | plain p => cases p <;> simp [AtomPhrase.tokens, Plain.keyword]
  | integer | doublePrecision | string | bytes | months => simp [AtomPhrase.tokens]
  | decimal w => cases w <;> simp [AtomPhrase.tokens, DecimalWord.keyword]
  | decimalOf w p d =>
    cases w <;> cases d <;> simp [AtomPhrase.tokens, DecimalWord.keyword, scaleTokens]
  | sized s d => cases s <;> simp [AtomPhrase.tokens, Sized.keyword]
  | time d b => cases b <;> simp [AtomPhrase.tokens, Zone.tokens]
  | timestamp d z => cases z <;> simp [AtomPhrase.tokens, Zone.tokens]
  | localZonedTimestamp d => simp [AtomPhrase.tokens]
  | years d b => cases b <;> simp [AtomPhrase.tokens, monthTokens]
  | dayTime r d f =>
    cases r <;> simp [AtomPhrase.tokens, precisionTokens, endTokens, DayTime.hasDay,
      DayTime.hasFraction, DayTime.first, DayTime.last, TimeUnit.keyword]
  | raw | legacy => simp [AtomPhrase.tokens, stringsTokens]
  | name a => cases a <;> simp [AtomPhrase.tokens, Name.token]
  | nameIn b a => cases a <;> cases b <;> simp [AtomPhrase.tokens, Name.token]
  | nameInIn d b a => cases a <;> cases b <;> cases d <;> simp [AtomPhrase.tokens, Name.token]

namespace Phrase

/-- A base ends with neither word of a nullability, except for the null type. -/
theorem baseTokens_eq_snoc {b : BasePhrase Phrase} {us : List Token} {x : Token}
    (h : baseTokens b = us ++ [x]) :
    x ≠ .keyword .not ∧ (x = .keyword .null → us = []) := by
  have closed : ∀ {vs s}, baseTokens b = vs ++ [.symbol s] →
      x ≠ .keyword .not ∧ (x = .keyword .null → us = []) := by
    intro vs s hs
    obtain ⟨-, rfl⟩ := snoc_inj.1 (h.symm.trans hs)
    simp
  cases b with
  | atom a =>
    obtain ⟨hnot, hnull⟩ := a.notMem_tokens
    have hx : x ∈ a.tokens := by
      rw [show a.tokens = us ++ [x] from h]
      simp
    refine ⟨fun hn => hnot (hn ▸ hx), ?_⟩
    rintro rfl
    have hl := congrArg List.length (h.symm.trans (hnull hx))
    simpa using hl
  | collection c e => exact closed (List.append_assoc [_, _] e.tokens [_]).symm
  | map k v =>
    have hs : baseTokens (.map k v) =
        (.keyword .map :: .symbol .openAngle :: (k.tokens ++ .symbol .comma :: v.tokens)) ++
          [.symbol .closeAngle] := by
      simp [baseTokens]
    exact closed hs
  | row round members =>
    exact closed (List.append_assoc [_, _] ((membersTokens members).drop 1) [_]).symm
  | structured className members =>
    exact closed (List.append_assoc [_, _, _] (membersTokens members) [_]).symm

/-- Only a legacy type has the tokens of one. -/
theorem baseTokens_eq_legacy {b : BasePhrase Phrase} {root payload : String}
    (h : baseTokens b = (AtomPhrase.legacy root payload).tokens) :
    b = .atom (.legacy root payload) := by
  have hhead := congrArg List.head? h
  cases b with
  | atom a =>
    cases a with
    | plain p => cases p <;> simp [baseTokens, AtomPhrase.tokens, Plain.keyword] at hhead
    | decimal w | decimalOf w =>
      cases w <;> simp [baseTokens, AtomPhrase.tokens, DecimalWord.keyword] at hhead
    | sized s => cases s <;> simp [baseTokens, AtomPhrase.tokens, Sized.keyword] at hhead
    | name a => cases a <;> simp [baseTokens, AtomPhrase.tokens, Name.token] at hhead
    | nameIn a => cases a <;> simp [baseTokens, AtomPhrase.tokens, Name.token] at hhead
    | nameInIn a => cases a <;> simp [baseTokens, AtomPhrase.tokens, Name.token] at hhead
    | legacy r p =>
      obtain ⟨rfl, rfl⟩ : r = root ∧ p = payload := by
        simpa [baseTokens, AtomPhrase.tokens, stringsTokens] using h
      rfl
    | _ => simp [baseTokens, AtomPhrase.tokens] at hhead
  | collection c e => cases c <;> simp [baseTokens, AtomPhrase.tokens, Collection.keyword] at hhead
  | map | row | structured => simp [baseTokens, AtomPhrase.tokens] at hhead

end Phrase

theorem LegacyNotNull.eq_closeParen {us : List Token} {x : Token}
    (h : LegacyNotNull loader (us ++ [x])) : x = .symbol .closeParen := by
  obtain ⟨root, payload, f, u, hts, -⟩ := h
  have hs : (AtomPhrase.legacy root payload).tokens =
      [.keyword .legacy, .symbol .openParen, .string root, .symbol .comma, .string payload] ++
        [.symbol .closeParen] := rfl
  exact (snoc_inj.1 (hts.trans hs)).2

/-- The tokens of a type that is not nullable: `NOT NULL` comes last, or they are those of such a
legacy type, with or without a `NULL` behind them. -/
def MarkedNotNull (loader : Loader) (ts : List Token) : Prop :=
  [.keyword .not, .keyword .null] <:+ ts ∨ LegacyNotNull loader ts ∨
    ∃ us, LegacyNotNull loader us ∧ ts = us ++ [.keyword .null]

theorem markedNotNull_iff {ts : List Token} {n : Nullability}
    (hts : ∀ us x, ts = us ++ [x] → x ≠ .keyword .not ∧ (x = .keyword .null → us = [])) :
    MarkedNotNull loader (ts ++ n.tokens) ↔ n = .notNull ∨ LegacyNotNull loader ts := by
  cases n with
  | unmarked =>
    rw [Nullability.tokens, List.append_nil]
    constructor
    · rintro (⟨us, hus⟩ | h | ⟨us, h, hus⟩)
      · have hnil := (hts (us ++ [.keyword .not]) (.keyword .null) (by simp [← hus])).2 rfl
        simp at hnil
      · exact .inr h
      · obtain rfl := (hts us _ hus).2 rfl
        obtain ⟨_, _, _, _, hnil, -⟩ := h
        cases hnil
    · rintro (h | h)
      · cases h
      · exact .inr (.inl h)
  | null =>
    rw [Nullability.tokens]
    constructor
    · rintro (⟨us, hus⟩ | h | ⟨us, h, hus⟩)
      · have hs : us ++ [.keyword .not] ++ [.keyword .null] = ts ++ [.keyword .null] := by
          simpa using hus
        exact absurd rfl (hts us _ (snoc_inj.1 hs).1.symm).1
      · cases h.eq_closeParen
      · exact .inr ((snoc_inj.1 hus).1 ▸ h)
    · rintro (h | h)
      · cases h
      · exact .inr (.inr ⟨ts, h, rfl⟩)
  | notNull => exact ⟨fun _ => .inl rfl, fun _ => .inl ⟨ts, rfl⟩⟩

theorem mark?_nullable {n : Nullability} (h : n.mark? false t = some u) :
    u.nullable = false ↔ n = .notNull ∨ t.nullable = false := by
  cases n with
  | unmarked | null =>
    cases h
    simp
  | notNull => simp [(mark?_eq_some h).2.1 rfl]

namespace Phrase

theorem baseType?_nullable {b : BasePhrase Phrase} (h : baseType? loader heeded b = some t) :
    t.nullable = false ↔ LegacyNotNull loader (baseTokens b) := by
  constructor
  · intro ht
    rcases baseType?_cases h with ⟨a, rfl, ha⟩ | ⟨hn, -⟩
    · by_cases hl : a.IsLegacy
      · cases a with
        | legacy root payload =>
          obtain ⟨f, hf, hr⟩ := Option.bind_eq_some_iff.1 ha
          rcases hu : loader.resolve f payload with e | u <;> rw [hu] at hr <;> cases hr
          exact ⟨root, payload, f, t, rfl, hf, hu, ht⟩
        | _ => exact hl.elim
      · obtain ⟨x, rfl⟩ := a.meaning?_of_not_isLegacy hl ha
        cases ht
    · rw [hn] at ht
      cases ht
  · rintro ⟨root, payload, f, u, hts, hf, hu, hn⟩
    obtain rfl := baseTokens_eq_legacy hts
    have ht : baseType? loader heeded (.atom (.legacy root payload)) = some u := by
      simp [baseType?, AtomPhrase.meaning?, hf, hu, Except.toOption]
    obtain rfl : t = u := Option.some.inj (h.symm.trans ht)
    exact hn

theorem nullable_eq_false_iff : ∀ {p : Phrase}, p.reading? loader = some t →
    (t.nullable = false ↔ MarkedNotNull loader p.tokens)
  | ⟨b, n, ws⟩, h => by
    obtain ⟨t₁, t₂, h₁, h₂, h⟩ := type?_mk h
    rcases List.eq_nil_or_concat ws with rfl | ⟨ws, ⟨c, n'⟩, rfl⟩
    · obtain rfl : t₂ = t := Option.some.inj h
      rw [mark?_nullable h₂, baseType?_nullable h₁, tokens, wrapperTokens, List.flatMap_nil,
        List.append_nil, markedNotNull_iff fun us x hus => baseTokens_eq_snoc hus]
    · -- the last collection and its nullability decide
      rw [wrap?, List.concat_eq_append, List.foldlM_append] at h
      obtain ⟨t₃, -, h⟩ := Option.bind_eq_some_iff.1 h
      obtain ⟨t₄, h₄, h⟩ := Option.bind_eq_some_iff.1 h
      obtain rfl : t₄ = t := Option.some.inj h
      have htokens : tokens ⟨b, n, ws.concat (c, n')⟩ =
          baseTokens b ++ n.tokens ++ wrapperTokens ws ++ [.keyword c.keyword] ++ n'.tokens := by
        simp [tokens, wrapperTokens]
      rw [mark?_nullable h₄, htokens, markedNotNull_iff]
      · refine or_congr_right ⟨?_, ?_⟩
        · intro ht
          cases ht
        · intro hl
          cases hl.eq_closeParen
      · intro us x hus
        obtain ⟨-, rfl⟩ := snoc_inj.1 hus
        cases c <;> simp [Collection.keyword]

end Phrase

end Grammar

/-- A type is not nullable just if its description ends with `NOT NULL`, or is that of a legacy type
which is not nullable, where even a `NULL` behind it does not change that. -/
theorem nullable_eq_false_iff_tokens {context : Context} {input : String} {t : DataType}
    (h : parse context input = .ok t) :
    t.nullable = false ↔
      [.keyword .not, .keyword .null] <:+ tokensOf input ∨
      LegacyNotNull context.loader (tokensOf input) ∨
      ∃ us, LegacyNotNull context.loader us ∧ tokensOf input = us ++ [.keyword .null] := by
  obtain ⟨q, hq⟩ := parse_start_of_parse h
  obtain ⟨p, hp, hr, -, -⟩ := Parser.exists_phrase hq
  rw [Phrase.nullable_eq_false_iff hr, hp]
  rfl

/-- A `NULL` behind a legacy type that is not nullable is the last token, without `NOT`. -/
theorem not_nullable_legacyNull :
    parse legacyInt "LEGACY('CHAR', 'x') NULL" =
      .ok { shape := .atom (.plain .int), nullable := false } ∧
    MarkedNotNull legacyInt.loader (tokensOf "LEGACY('CHAR', 'x') NULL") := by
  have h : parse legacyInt "LEGACY('CHAR', 'x') NULL" =
      .ok { shape := .atom (.plain .int), nullable := false } := by
    decide +kernel
  exact ⟨h, (nullable_eq_false_iff_tokens h).1 rfl⟩

end SqlTypes
