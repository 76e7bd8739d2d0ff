import SqlTypes.Proofs.IntervalReading
import SqlTypes.Proofs.Phrases

/-!
# Reading phrases

A type expression passes the tokens of a phrase that is read as what it gives, and opens as many
levels as the phrase is high (`typeExpression_passes`).
-/

namespace SqlTypes

open Grammar Cursor

namespace Cursor

/-- One more type is open. -/
def entered (c : Cursor) : Cursor :=
  { c with depth := c.depth + 1, deepest := max c.deepest (c.depth + 1) }

/-- One type is complete. -/
def left (c : Cursor) : Cursor :=
  { c with depth := c.depth - 1 }

/-- A type expression has begun. -/
def started (c : Cursor) : Cursor :=
  { c with begun := c.begun + 1 }

variable {c c₁ : Cursor} {ts : List Token} {h : Nat}

@[simp] theorem entered_depth (c : Cursor) : c.entered.depth = c.depth + 1 := rfl

@[simp] theorem entered_deepest (c : Cursor) :
    c.entered.deepest = max c.deepest (c.depth + 1) := rfl

theorem Passes.nested (hp : c.entered.Passes ts h c₁) : c.Passes ts (h + 1) c₁.left := by
  refine ⟨hp.rest, hp.passed, ?_, ?_⟩
  · rw [left, hp.depth, entered_depth, Nat.add_sub_cancel]
  · rw [left, hp.deepest]
    simp only [reach, entered_depth, entered_deepest, Nat.succ_ne_zero, if_false]
    split_ifs with hh
    · rw [hh]
    · rw [Nat.max_assoc, Nat.max_eq_right (Nat.le_add_right _ h), Nat.add_assoc, Nat.add_comm 1 h]

theorem Passes.of_started (hp : c.started.Passes ts h c₁) : c.Passes ts h c₁ :=
  ⟨hp.rest, hp.passed, hp.depth, hp.deepest⟩

end Cursor

namespace Reading

variable {loader : Loader} {inner : Reading DataType} {c c' : Cursor} {t u : DataType}
  {levels limit start : Nat}

@[simp] theorem run_enter (c : Cursor) : enter.run c = .ok () c.entered := rfl

@[simp] theorem run_leave (c : Cursor) : leave.run c = .ok () c.left := rfl

@[simp] theorem run_begin (c : Cursor) : begin.run c = .ok () c.started := rfl

theorem run_tooDeep_ne_ok {number : Nat} : (tooDeep limit number).run c ≠ .ok t c' := by
  rw [tooDeep, EStateM.run_bind, run_enter]
  exact run_failAt_ne_ok

/-- Whatever `x` gives, it has passed a phrase for it, and opened no more levels than these. -/
def ReadsPhrase (loader : Loader) (levels : Nat) (x : Reading DataType) : Prop :=
  ∀ ⦃c c' t⦄, x.run c = .ok t c' →
    ∃ p : Phrase, p.type? loader false = some t ∧ p.height ≤ levels ∧ c.Passes p.tokens p.height c'

/-- Between `c` and `c'` stand the tokens of a base that is read as `t`, without its first one,
which is the keyword `k`. -/
def BaseBehindKeyword (loader : Loader) (levels : Nat) (k : Keyword) (c c' : Cursor)
    (t : DataType) : Prop :=
  ∃ (b : BasePhrase Phrase) (ts : List Token), Phrase.baseTokens b = .keyword k :: ts ∧
    Phrase.baseType? loader false b = some t ∧ Phrase.baseHeight b ≤ levels ∧
    c.Passes ts (Phrase.baseHeight b) c'

theorem BehindKeyword.base {k : Keyword} (h : BehindKeyword loader k c c' t) :
    BaseBehindKeyword loader levels k c c' t := by
  obtain ⟨a, ts, hts, ha, hp⟩ := h
  exact ⟨.atom a, ts, hts, ha, Nat.zero_le _, hp⟩

theorem nullability_passes (h : (nullability t).run c = .ok u c') :
    ∃ n : Nullability, n.mark? false t = some u ∧ c.Passes n.tokens 0 c' := by
  obtain ⟨start, c₁, hs, h⟩ := run_bind_ok.1 h
  obtain ⟨b, c₂, hb, h⟩ := run_bind_ok.1 h
  cases hs
  cases b with
  | true =>
    obtain ⟨_, c₃, hn, h⟩ := run_bind_ok.1 h
    obtain ⟨hu, rfl⟩ := run_orFailAt_ok.1 h
    refine ⟨.notNull, ?_, (accept_passes hb).trans (expectKeyword_passes hn)⟩
    rw [Nullability.mark?, hu]
    rfl
  | false =>
    obtain ⟨b, c₃, hn, h⟩ := run_bind_ok.1 h
    obtain ⟨rfl, rfl⟩ := run_pure_ok.1 h
    have hp := (accept_passes hb).trans (accept_passes hn)
    cases b with
    | true => exact ⟨.null, rfl, hp⟩
    | false => exact ⟨.unmarked, rfl, hp⟩

theorem collection_passes {k : Collection} (hi : ReadsPhrase loader levels inner)
    (h : (collection inner start k).run c = .ok t c') :
    BaseBehindKeyword loader levels k.keyword c c' t := by
  obtain ⟨_, c₁, ho, h⟩ := run_bind_ok.1 h
  obtain ⟨e, c₂, he, h⟩ := run_bind_ok.1 h
  obtain ⟨_, c₃, hc, h⟩ := run_bind_ok.1 h
  obtain ⟨ht, rfl⟩ := run_make_ok.1 h
  obtain ⟨p, hr, hlevels, hp⟩ := hi he
  refine ⟨.collection k p, _, rfl, ?_, hlevels, ?_⟩
  · simpa [Phrase.baseType?, hr] using ht
  · simpa using (expectSymbol_passes ho).trans (hp.trans (expectSymbol_passes hc))

theorem map_passes (hi : ReadsPhrase loader levels inner)
    (h : (map inner start).run c = .ok t c') : BaseBehindKeyword loader levels .map c c' t := by
  obtain ⟨_, c₁, ho, h⟩ := run_bind_ok.1 h
  obtain ⟨k, c₂, hk, h⟩ := run_bind_ok.1 h
  obtain ⟨_, c₃, hcomma, h⟩ := run_bind_ok.1 h
  obtain ⟨v, c₄, hv, h⟩ := run_bind_ok.1 h
  obtain ⟨_, c₅, hclose, h⟩ := run_bind_ok.1 h
  obtain ⟨ht, rfl⟩ := run_make_ok.1 h
  obtain ⟨p, hr, hlevels, hp⟩ := hi hk
  obtain ⟨q, hs, hlevels', hq⟩ := hi hv
  refine ⟨.map p q, _, rfl, ?_, Nat.max_le.2 ⟨hlevels, hlevels'⟩, ?_⟩
  · simpa [Phrase.baseType?, hr, hs] using ht
  · simpa using (expectSymbol_passes ho).trans
      (hp.trans ((expectSymbol_passes hcomma).trans (hq.trans (expectSymbol_passes hclose))))

theorem member_passes {m : Member DataType} (hi : ReadsPhrase loader levels inner)
    (h : (member inner).run c = .ok m c') :
    ∃ (q : MemberPhrase Phrase) (u : DataType), m = ⟨q.name.text, u, q.description⟩ ∧
      q.type.type? loader false = some u ∧ q.type.height ≤ levels ∧
      c.Passes (q.name.token :: (q.type.tokens ++ (q.description.map Token.string).toList))
        q.type.height c' := by
  obtain ⟨s, c₁, hs, h⟩ := run_bind_ok.1 h
  obtain ⟨u, c₂, hu, h⟩ := run_bind_ok.1 h
  obtain ⟨d, c₃, hd, h⟩ := run_bind_ok.1 h
  obtain ⟨rfl, rfl⟩ := run_pure_ok.1 h
  obtain ⟨n, rfl, hn⟩ := name_passes hs
  obtain ⟨p, hr, hlevels, hp⟩ := hi hu
  refine ⟨⟨n, p, d⟩, u, rfl, hr, hlevels, ?_⟩
  simpa using hn.trans (hp.trans (string?_passes hd))

theorem moreMembers_passes (hi : ReadsPhrase loader levels inner) :
    ∀ (bound : List Token) {before ms : List (Member DataType)} {c c' : Cursor},
      (moreMembers inner before bound).run c = .ok ms c' →
        ∃ (qs : List (MemberPhrase Phrase)) (us : List (Member DataType)),
          ms = before.reverse ++ us ∧ Phrase.membersType? loader false qs = some us ∧
          Phrase.membersHeight qs ≤ levels ∧
          c.Passes (Phrase.membersTokens qs) (Phrase.membersHeight qs) c'
  | [], before, ms, c, c', h => by
    obtain ⟨rfl, rfl⟩ := run_pure_ok.1 h
    exact ⟨[], [], by simp, rfl, Nat.zero_le _, .refl c⟩
  | _ :: bound, before, ms, c, c', h => by
    obtain ⟨b, c₁, ha, h⟩ := run_bind_ok.1 h
    cases b with
    | false =>
      obtain ⟨rfl, rfl⟩ := run_pure_ok.1 h
      exact ⟨[], [], by simp, rfl, Nat.zero_le _, accept_passes ha⟩
    | true =>
      obtain ⟨m, c₂, hm, h⟩ := run_bind_ok.1 h
      obtain ⟨q, u, rfl, hu, hlevels, hp⟩ := member_passes hi hm
      obtain ⟨qs, us, rfl, hus, hlevels', hps⟩ := moreMembers_passes hi bound h
      refine ⟨q :: qs, ⟨q.name.text, u, q.description⟩ :: us, by simp, ?_,
        Nat.max_le.2 ⟨hlevels, hlevels'⟩, ?_⟩
      · simp [Phrase.membersType?, hu, hus]
      · simpa [Phrase.membersTokens] using (accept_passes ha).trans (hp.trans hps)

theorem fields_passes {close : Symbol} {ms : List (Member DataType)}
    (hi : ReadsPhrase loader levels inner) (h : (fields inner close).run c = .ok ms c') :
    ∃ qs : List (MemberPhrase Phrase), Phrase.membersType? loader false qs = some ms ∧
      Phrase.membersHeight qs ≤ levels ∧
      c.Passes ((Phrase.membersTokens qs).drop 1) (Phrase.membersHeight qs) c' := by
  simp only [fields, EStateM.run_bind, run_peek] at h
  split_ifs at h
  · obtain ⟨rfl, rfl⟩ := run_pure_ok.1 h
    exact ⟨[], rfl, Nat.zero_le _, .refl c⟩
  · obtain ⟨m, c₁, hm, h⟩ := run_bind_ok.1 h
    obtain ⟨q, u, rfl, hu, hlevels, hp⟩ := member_passes hi hm
    obtain ⟨qs, us, rfl, hus, hlevels', hps⟩ := moreMembers_passes hi _ h
    refine ⟨q :: qs, ?_, Nat.max_le.2 ⟨hlevels, hlevels'⟩, ?_⟩
    · simp [Phrase.membersType?, hu, hus]
    · simpa [Phrase.membersTokens] using hp.trans hps

theorem openRow_passes {close : Symbol} (h : openRow.run c = .ok close c') :
    ∃ round : Bool, (if round then Symbol.closeParen else .closeAngle) = close ∧
      c.Passes [.symbol (if round then .openParen else .openAngle)] 0 c' := by
  obtain ⟨b, c₁, ha, h⟩ := run_bind_ok.1 h
  cases b with
  | true =>
    obtain ⟨rfl, rfl⟩ := run_pure_ok.1 h
    exact ⟨false, rfl, accept_passes ha⟩
  | false =>
    obtain ⟨b, c₂, hb, h⟩ := run_bind_ok.1 h
    cases b with
    | true =>
      obtain ⟨rfl, rfl⟩ := run_pure_ok.1 h
      exact ⟨true, rfl, (accept_passes ha).trans (accept_passes hb)⟩
    | false => exact absurd h run_refuse_ne_ok

theorem row_passes (hi : ReadsPhrase loader levels inner)
    (h : (row inner start).run c = .ok t c') : BaseBehindKeyword loader levels .row c c' t := by
  obtain ⟨close, c₁, ho, h⟩ := run_bind_ok.1 h
  obtain ⟨ms, c₂, hms, h⟩ := run_bind_ok.1 h
  obtain ⟨_, c₃, hclose, h⟩ := run_bind_ok.1 h
  obtain ⟨ht, rfl⟩ := run_make_ok.1 h
  obtain ⟨round, rfl, hopen⟩ := openRow_passes ho
  obtain ⟨qs, hqs, hlevels, hp⟩ := fields_passes hi hms
  refine ⟨.row round qs, _, rfl, ?_, hlevels, ?_⟩
  · simpa [Phrase.baseType?, hqs] using ht
  · simpa using hopen.trans (hp.trans (expectSymbol_passes hclose))

theorem structured_passes (hi : ReadsPhrase loader levels inner)
    (h : (structured inner start).run c = .ok t c') :
    BaseBehindKeyword loader levels .structured c c' t := by
  obtain ⟨_, c₁, ho, h⟩ := run_bind_ok.1 h
  obtain ⟨className, c₂, hname, h⟩ := run_bind_ok.1 h
  obtain ⟨ms, c₃, hms, h⟩ := run_bind_ok.1 h
  obtain ⟨_, c₄, hclose, h⟩ := run_bind_ok.1 h
  obtain ⟨ht, rfl⟩ := run_make_ok.1 h
  obtain ⟨qs, us, rfl, hqs, hlevels, hp⟩ := moreMembers_passes hi _ hms
  refine ⟨.structured className qs, _, rfl, ?_, hlevels, ?_⟩
  · simpa [Phrase.baseType?, hqs] using ht
  · simpa using (expectSymbol_passes ho).trans
      ((string_passes hname).trans (hp.trans (expectSymbol_passes hclose)))

theorem make_passes {k : Keyword} {a : AtomPhrase} {s : Shape DataType}
    (hts : a.tokens = [.keyword k]) (ha : a.meaning? loader = make? s)
    (h : (make start s).run c = .ok t c') : BehindKeyword loader k c c' t := by
  obtain ⟨ht, rfl⟩ := run_make_ok.1 h
  exact ⟨a, [], hts, ha.trans ht, .refl c⟩

theorem double_passes {s : Shape DataType} (hs : s = .atom (.plain .double))
    (h : (do let _ ← acceptKeyword .precision; make start s : Reading DataType).run c = .ok t c') :
    BehindKeyword loader .double c c' t := by
  obtain ⟨b, c₁, ha, h⟩ := run_bind_ok.1 h
  obtain ⟨ht, rfl⟩ := run_make_ok.1 h
  subst hs
  have hp := accept_passes ha
  cases b with
  | true => exact ⟨.doublePrecision, _, rfl, ht, hp⟩
  | false => exact ⟨.plain .double, _, rfl, ht, hp⟩

theorem afterKeyword_passes (hi : ReadsPhrase loader levels inner) (k : Keyword)
    (h : (afterKeyword loader inner start k).run c = .ok t c') :
    BaseBehindKeyword loader levels k c c' t := by
  cases k with
  | char | varchar | binary | varbinary => exact (sized_passes loader h).base
  | string => exact (make_passes (a := .string) rfl rfl h).base
  | bytes => exact (make_passes (a := .bytes) rfl rfl h).base
  | boolean => exact (make_passes (a := .plain .boolean) rfl rfl h).base
  | decimal => exact (decimal_passes loader .decimal h).base
  | dec => exact (decimal_passes loader .dec h).base
  | numeric => exact (decimal_passes loader .numeric h).base
  | tinyint => exact (make_passes (a := .plain .tinyint) rfl rfl h).base
  | smallint => exact (make_passes (a := .plain .smallint) rfl rfl h).base
  | int => exact (make_passes (a := .plain .int) rfl rfl h).base
  | integer => exact (make_passes (a := .integer) rfl rfl h).base
  | bigint => exact (make_passes (a := .plain .bigint) rfl rfl h).base
  | float => exact (make_passes (a := .plain .float) rfl rfl h).base
  | double => exact (double_passes rfl h).base
  | date => exact (make_passes (a := .plain .date) rfl rfl h).base
  | time => exact (time_passes loader h).base
  | timestamp => exact (timestamp_passes loader h).base
  | timestampLtz => exact (localZonedTimestamp_passes loader h).base
  | interval => exact (interval_passes loader h).base
  | array | multiset => exact collection_passes hi h
  | map => exact map_passes hi h
  | row => exact row_passes hi h
  | structured => exact structured_passes hi h
  | null => exact (make_passes (a := .plain .null) rfl rfl h).base
  | descriptor => exact (make_passes (a := .plain .descriptor) rfl rfl h).base
  | raw => exact (raw_passes h).base
  | legacy => exact (legacy_passes h).base
  | _ => exact absurd h run_failAt_ne_ok

theorem base_passes (hi : ReadsPhrase loader levels inner)
    (h : (base loader inner).run c = .ok t c') :
    ∃ b : BasePhrase Phrase, Phrase.baseType? loader false b = some t ∧
      Phrase.baseHeight b ≤ levels ∧ c.Passes (Phrase.baseTokens b) (Phrase.baseHeight b) c' := by
  rw [base, run_bind_of_ok (run_peek c)] at h
  split at h
  · rename_i k ht
    rw [run_bind_of_ok (run_here c), run_bind_of_ok (run_advance ht)] at h
    obtain ⟨b, ts, hts, hb, hlevels, hp⟩ := afterKeyword_passes hi k h
    exact ⟨b, hb, hlevels, hts ▸ hp.cons ht⟩
  · obtain ⟨a, ha, hp⟩ := unresolved_passes loader h
    exact ⟨.atom a, ha, Nat.zero_le _, hp⟩
  · obtain ⟨a, ha, hp⟩ := unresolved_passes loader h
    exact ⟨.atom a, ha, Nat.zero_le _, hp⟩
  · exact absurd h run_refuse_ne_ok

theorem run_wrapper? (c : Cursor) :
    wrapper?.run c =
      match c.rest.head?.bind Token.collection? with
      | some k => .ok (some (k, c.passed)) c.skip
      | none => .ok none c := by
  rw [wrapper?, run_bind_of_ok (run_here c), run_bind_of_ok (run_peek c)]
  cases hk : c.rest.head?.bind Token.collection? with
  | none => rfl
  | some k =>
    obtain ⟨t, ht, -⟩ := Option.bind_eq_some_iff.1 hk
    dsimp only
    rw [run_bind_of_ok (run_advance ht)]
    rfl

theorem run_wrapper?_cases (c : Cursor) :
    (∃ (k : Collection) (t : Token), c.rest.head? = some t ∧
      wrapper?.run c = .ok (some (k, c.passed)) c.skip) ∨ wrapper?.run c = .ok none c := by
  rw [run_wrapper?]
  cases hk : c.rest.head?.bind Token.collection? with
  | none => exact .inr rfl
  | some k =>
    obtain ⟨t, ht, -⟩ := Option.bind_eq_some_iff.1 hk
    exact .inl ⟨k, t, ht, rfl⟩

theorem wrapper?_passes {w : Option (Collection × Nat)} (h : wrapper?.run c = .ok w c') :
    c.Passes (w.map fun w => .keyword w.1.keyword).toList 0 c' := by
  rw [run_wrapper?] at h
  split at h <;> cases h
  · rename_i k hk
    obtain ⟨t, ht, hk⟩ := Option.bind_eq_some_iff.1 hk
    obtain rfl := Token.collection?_eq_some_iff.1 hk
    exact .single ht
  · exact .refl c

theorem wrapped_passes : ∀ (levels : Nat) {t u : DataType} {c c' : Cursor},
    (wrapped limit levels t).run c = .ok u c' →
      ∃ ws, wrap? false t ws = some u ∧ ws.length ≤ levels ∧
        c.Passes (wrapperTokens ws) ws.length c'
  | 0, t, u, c, c', h => by
    obtain ⟨w, c₁, hw, h⟩ := run_bind_ok.1 h
    cases w with
    | some w => exact absurd h run_tooDeep_ne_ok
    | none =>
      obtain ⟨rfl, rfl⟩ := run_pure_ok.1 h
      exact ⟨[], rfl, Nat.le_refl _, wrapper?_passes hw⟩
  | levels + 1, t, u, c, c', h => by
    obtain ⟨w, c₁, hw, h⟩ := run_bind_ok.1 h
    cases w with
    | some w =>
      obtain ⟨k, start⟩ := w
      simp only [run_bind_of_ok (run_enter c₁)] at h
      obtain ⟨t₁, c₂, hn, h⟩ := run_bind_ok.1 h
      obtain ⟨t₂, c₃, ht, h⟩ := run_bind_ok.1 h
      rw [run_bind_of_ok (run_leave c₃)] at h
      obtain ⟨rfl, rfl⟩ := run_pure_ok.1 h
      obtain ⟨n, hn, hp⟩ := nullability_passes hn
      obtain ⟨ws, hws, hlevels, hps⟩ := wrapped_passes levels ht
      refine ⟨(k, n) :: ws, ?_, Nat.succ_le_succ hlevels, ?_⟩
      · simp only [wrap?, List.foldlM_cons] at hws ⊢
        simp [hn, hws]
      · simpa [wrapperTokens] using (wrapper?_passes hw).trans (hp.trans hps).nested
    | none =>
      obtain ⟨rfl, rfl⟩ := run_pure_ok.1 h
      exact ⟨[], rfl, Nat.zero_le _, wrapper?_passes hw⟩

theorem typeExpression_passes (loader : Loader) (limit : Nat) :
    ∀ levels, ReadsPhrase loader levels (typeExpression loader limit levels)
  | 0, c, c', t, h => by
    rw [typeExpression, run_bind_of_ok (run_begin c), run_bind_of_ok (run_here _)] at h
    exact absurd h run_tooDeep_ne_ok
  | levels + 1, c, c', t, h => by
    rw [typeExpression, run_bind_of_ok (run_begin c), run_bind_of_ok (run_enter _)] at h
    obtain ⟨t₁, c₁, hb, h⟩ := run_bind_ok.1 h
    obtain ⟨t₂, c₂, hn, h⟩ := run_bind_ok.1 h
    obtain ⟨t₃, c₃, hw, h⟩ := run_bind_ok.1 h
    rw [run_bind_of_ok (run_leave c₃)] at h
    obtain ⟨rfl, rfl⟩ := run_pure_ok.1 h
    obtain ⟨b, hb, hlevels, hbp⟩ := base_passes (typeExpression_passes loader limit levels) hb
    obtain ⟨n, hn, hnp⟩ := nullability_passes hn
    obtain ⟨ws, hws, hlevels', hwp⟩ := wrapped_passes levels hw
    refine ⟨⟨b, n, ws⟩, ?_, ?_, ?_⟩
    · simp [Phrase.type?, hb, hn, hws]
    · rw [Phrase.height_eq]
      exact Nat.succ_le_succ (Nat.max_le.2 ⟨hlevels, hlevels'⟩)
    · simpa [Phrase.tokens, Phrase.height_eq] using
        ((hbp.trans (hnp.trans hwp)).nested).of_started

end Reading

end SqlTypes
