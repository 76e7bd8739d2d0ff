import Mathlib.Data.List.Chain
import SqlTypes.Proofs.Phrases

/-!
# Beginnings of sentences

Whether tokens are a sentence depends on their kinds, not on the names, numbers and texts that they
hold (`Grammar.sentence_of_kinds`). So some sentence begins with tokens of certain kinds just if
these tokens themselves can be completed (`Grammar.begins_iff`).

The word `TO` never comes first in a sentence, and never behind `SECOND`; there is nothing to go on
with where it does (`Grammar.not_begins_secondTo`).
-/

namespace SqlTypes

/-- What the grammar sees of a token. -/
inductive Kind where
  | keyword (k : Keyword)
  | name
  | integer
  | string
  | symbol (s : Symbol)
  | invalid
  deriving DecidableEq

def Token.kind : Token → Kind
  | .keyword k => .keyword k
  | .word _ | .quoted _ => .name
  | .integer _ => .integer
  | .string _ => .string
  | .symbol s => .symbol s
  | .unterminated | .stray _ => .invalid

namespace Grammar

abbrev kinds (ts : List Token) : List Kind :=
  ts.map Token.kind

/-- Some sentence begins with tokens of these kinds. -/
def Begins (ts : List Token) : Prop :=
  ∃ us, Sentence us ∧ kinds ts <+: kinds us

/-- Some sentence begins with tokens of these kinds and goes on behind them. -/
def GoesOn (ts : List Token) : Prop :=
  ∃ t, Begins (ts ++ [t])

variable {t : Token} {ts us vs : List Token}

theorem kind_keyword_iff {k : Keyword} : t.kind = .keyword k ↔ t = .keyword k := by
  cases t <;> simp [Token.kind]

theorem kind_symbol_iff {s : Symbol} : t.kind = .symbol s ↔ t = .symbol s := by
  cases t <;> simp [Token.kind]

theorem kind_integer_iff : t.kind = .integer ↔ ∃ digits, t = .integer digits := by
  cases t <;> simp [Token.kind]

theorem kind_string_iff : t.kind = .string ↔ ∃ content, t = .string content := by
  cases t <;> simp [Token.kind]

theorem kind_token (n : Name) : n.token.kind = .name := by
  cases n <;> rfl

theorem kind_name_iff : t.kind = .name ↔ ∃ n : Name, t = n.token := by
  constructor
  · intro h
    cases t with
    | word s => exact ⟨.word s, rfl⟩
    | quoted s => exact ⟨.quoted s, rfl⟩
    | _ => cases h
  · rintro ⟨n, rfl⟩
    exact kind_token n

theorem append_of_kinds (h : kinds ts = kinds (us ++ vs)) :
    ∃ us' vs', ts = us' ++ vs' ∧ kinds us' = kinds us ∧ kinds vs' = kinds vs :=
  List.map_eq_append_iff.1 (h.trans List.map_append)

theorem keyword_of_kinds {k : Keyword} (h : kinds ts = kinds (.keyword k :: us)) :
    ∃ vs, ts = .keyword k :: vs ∧ kinds vs = kinds us := by
  obtain ⟨u, vs, rfl, hu, hvs⟩ := List.map_eq_cons_iff.1 h
  exact ⟨vs, by rw [kind_keyword_iff.1 hu], hvs⟩

theorem symbol_of_kinds {s : Symbol} (h : kinds ts = kinds (.symbol s :: us)) :
    ∃ vs, ts = .symbol s :: vs ∧ kinds vs = kinds us := by
  obtain ⟨u, vs, rfl, hu, hvs⟩ := List.map_eq_cons_iff.1 h
  exact ⟨vs, by rw [kind_symbol_iff.1 hu], hvs⟩

theorem integer_of_kinds {digits : String} (h : kinds ts = kinds (.integer digits :: us)) :
    ∃ digits' vs, ts = .integer digits' :: vs ∧ kinds vs = kinds us := by
  obtain ⟨u, vs, rfl, hu, hvs⟩ := List.map_eq_cons_iff.1 h
  obtain ⟨digits', rfl⟩ := kind_integer_iff.1 hu
  exact ⟨digits', vs, rfl, hvs⟩

theorem string_of_kinds {content : String} (h : kinds ts = kinds (.string content :: us)) :
    ∃ content' vs, ts = .string content' :: vs ∧ kinds vs = kinds us := by
  obtain ⟨u, vs, rfl, hu, hvs⟩ := List.map_eq_cons_iff.1 h
  obtain ⟨content', rfl⟩ := kind_string_iff.1 hu
  exact ⟨content', vs, rfl, hvs⟩

theorem name_of_kinds {n : Name} (h : kinds ts = kinds (n.token :: us)) :
    ∃ (n' : Name) (vs : List Token), ts = n'.token :: vs ∧ kinds vs = kinds us := by
  obtain ⟨u, vs, rfl, hu, hvs⟩ := List.map_eq_cons_iff.1 h
  obtain ⟨n', rfl⟩ := kind_name_iff.1 (hu.trans (kind_token n))
  exact ⟨n', vs, rfl, hvs⟩

/-- Tokens that hold nothing are known by their kinds. -/
theorem eq_of_kinds (h : kinds ts = kinds us)
    (hus : ∀ t ∈ us, (∃ k, t = .keyword k) ∨ ∃ s, t = .symbol s) : ts = us := by
  induction us generalizing ts with
  | nil => exact List.map_eq_nil_iff.1 h
  | cons u us ih =>
    obtain ⟨hu, hus'⟩ := List.forall_mem_cons.1 hus
    rcases hu with ⟨k, rfl⟩ | ⟨s, rfl⟩
    · obtain ⟨vs, rfl, hvs⟩ := keyword_of_kinds h
      rw [ih hvs hus']
    · obtain ⟨vs, rfl, hvs⟩ := symbol_of_kinds h
      rw [ih hvs hus']

theorem parameter_of_kinds {d : Option String} (h : kinds ts = kinds (parameterTokens d)) :
    ∃ d', ts = parameterTokens d' := by
  cases d with
  | none => exact ⟨none, List.map_eq_nil_iff.1 h⟩
  | some digits =>
    obtain ⟨_, rfl, h₁⟩ := symbol_of_kinds h
    obtain ⟨digits', _, rfl, h₂⟩ := integer_of_kinds h₁
    obtain ⟨_, rfl, h₃⟩ := symbol_of_kinds h₂
    obtain rfl := List.map_eq_nil_iff.1 h₃
    exact ⟨some digits', rfl⟩

theorem precision_of_kinds {used : Bool} {d : Option String}
    (h : kinds ts = kinds (precisionTokens used d)) : ∃ d', ts = precisionTokens used d' := by
  cases used with
  | true => exact parameter_of_kinds h
  | false => exact ⟨none, List.map_eq_nil_iff.1 h⟩

theorem scale_of_kinds {d : Option String} (h : kinds ts = kinds (scaleTokens d)) :
    ∃ d', ts = scaleTokens d' := by
  cases d with
  | none => exact ⟨none, List.map_eq_nil_iff.1 h⟩
  | some digits =>
    obtain ⟨_, rfl, h₁⟩ := symbol_of_kinds h
    obtain ⟨digits', _, rfl, h₂⟩ := integer_of_kinds h₁
    obtain rfl := List.map_eq_nil_iff.1 h₂
    exact ⟨some digits', rfl⟩

theorem strings_of_kinds {a b : String} (h : kinds ts = kinds (stringsTokens a b)) :
    ∃ a' b', ts = stringsTokens a' b' := by
  obtain ⟨_, rfl, h₁⟩ := symbol_of_kinds h
  obtain ⟨a', _, rfl, h₂⟩ := string_of_kinds h₁
  obtain ⟨_, rfl, h₃⟩ := symbol_of_kinds h₂
  obtain ⟨b', _, rfl, h₄⟩ := string_of_kinds h₃
  obtain ⟨_, rfl, h₅⟩ := symbol_of_kinds h₄
  obtain rfl := List.map_eq_nil_iff.1 h₅
  exact ⟨a', b', rfl⟩

theorem description_of_kinds {d : Option String}
    (h : kinds ts = kinds (d.map Token.string).toList) :
    ∃ d' : Option String, ts = (d'.map Token.string).toList := by
  cases d with
  | none => exact ⟨none, List.map_eq_nil_iff.1 h⟩
  | some content =>
    obtain ⟨content', _, rfl, h₁⟩ := string_of_kinds h
    obtain rfl := List.map_eq_nil_iff.1 h₁
    exact ⟨some content', rfl⟩

theorem zone_of_kinds {z : Zone} (h : kinds ts = kinds z.tokens) : ts = z.tokens :=
  eq_of_kinds h (by cases z <;> simp [Zone.tokens])

theorem nullability_of_kinds {n : Nullability} (h : kinds ts = kinds n.tokens) : ts = n.tokens :=
  eq_of_kinds h (by cases n <;> simp [Nullability.tokens])

theorem wrappers_of_kinds {ws : List (Collection × Nullability)}
    (h : kinds ts = kinds (wrapperTokens ws)) : ts = wrapperTokens ws := by
  refine eq_of_kinds h fun t ht => ?_
  obtain ⟨⟨c, n⟩, -, ht⟩ := List.mem_flatMap.1 ht
  cases n <;> simp only [Nullability.tokens, List.mem_cons, List.not_mem_nil, or_false] at ht <;>
    grind

theorem AtomPhrase.of_kinds (a : AtomPhrase) (h : kinds ts = kinds a.tokens) :
    ∃ b : AtomPhrase, b.tokens = ts := by
  cases a with
  | plain | integer | doublePrecision | string | bytes | decimal | months =>
    exact ⟨_, (eq_of_kinds h (by simp [AtomPhrase.tokens])).symm⟩
  | sized s =>
    obtain ⟨_, rfl, h₁⟩ := keyword_of_kinds h
    obtain ⟨d, rfl⟩ := parameter_of_kinds h₁
    exact ⟨.sized s d, rfl⟩
  | decimalOf w =>
    obtain ⟨_, rfl, h₁⟩ := keyword_of_kinds h
    obtain ⟨_, rfl, h₂⟩ := symbol_of_kinds h₁
    obtain ⟨p, _, rfl, h₃⟩ := integer_of_kinds h₂
    obtain ⟨_, _, rfl, hd, h₄⟩ := append_of_kinds h₃
    obtain ⟨d, rfl⟩ := scale_of_kinds hd
    obtain ⟨_, rfl, h₅⟩ := symbol_of_kinds h₄
    obtain rfl := List.map_eq_nil_iff.1 h₅
    exact ⟨.decimalOf w p d, rfl⟩
  | time _ b =>
    obtain ⟨_, rfl, h₁⟩ := keyword_of_kinds h
    obtain ⟨_, _, rfl, hd, h₂⟩ := append_of_kinds h₁
    obtain ⟨d, rfl⟩ := parameter_of_kinds hd
    obtain rfl := zone_of_kinds h₂
    exact ⟨.time d b, rfl⟩
  | timestamp _ z =>
    obtain ⟨_, rfl, h₁⟩ := keyword_of_kinds h
    obtain ⟨_, _, rfl, hd, h₂⟩ := append_of_kinds h₁
    obtain ⟨d, rfl⟩ := parameter_of_kinds hd
    obtain rfl := zone_of_kinds h₂
    exact ⟨.timestamp d z, rfl⟩
  | localZonedTimestamp =>
    obtain ⟨_, rfl, h₁⟩ := keyword_of_kinds h
    obtain ⟨d, rfl⟩ := parameter_of_kinds h₁
    exact ⟨.localZonedTimestamp d, rfl⟩
  | years _ b =>
    obtain ⟨_, rfl, h₁⟩ := keyword_of_kinds h
    obtain ⟨_, rfl, h₂⟩ := keyword_of_kinds h₁
    obtain ⟨_, _, rfl, hd, h₃⟩ := append_of_kinds h₂
    obtain ⟨d, rfl⟩ := parameter_of_kinds hd
    obtain rfl := eq_of_kinds h₃ (by cases b <;> simp [monthTokens])
    exact ⟨.years d b, rfl⟩
  | dayTime r =>
    obtain ⟨_, rfl, h₁⟩ := keyword_of_kinds h
    obtain ⟨_, rfl, h₂⟩ := keyword_of_kinds h₁
    obtain ⟨_, _, rfl, hd, h₃⟩ := append_of_kinds h₂
    obtain ⟨d, rfl⟩ := precision_of_kinds hd
    obtain ⟨_, _, rfl, hr, h₄⟩ := append_of_kinds h₃
    obtain rfl := eq_of_kinds hr (by unfold endTokens; split_ifs <;> simp)
    obtain ⟨f, rfl⟩ := precision_of_kinds h₄
    exact ⟨.dayTime r d f, rfl⟩
  | raw =>
    obtain ⟨_, rfl, h₁⟩ := keyword_of_kinds h
    obtain ⟨className, snapshot, rfl⟩ := strings_of_kinds h₁
    exact ⟨.raw className snapshot, rfl⟩
  | legacy =>
    obtain ⟨_, rfl, h₁⟩ := keyword_of_kinds h
    obtain ⟨family, payload, rfl⟩ := strings_of_kinds h₁
    exact ⟨.legacy family payload, rfl⟩
  | name =>
    obtain ⟨a, _, rfl, h₁⟩ := name_of_kinds h
    obtain rfl := List.map_eq_nil_iff.1 h₁
    exact ⟨.name a, rfl⟩
  | nameIn =>
    obtain ⟨b, _, rfl, h₁⟩ := name_of_kinds h
    obtain ⟨_, rfl, h₂⟩ := symbol_of_kinds h₁
    obtain ⟨a, _, rfl, h₃⟩ := name_of_kinds h₂
    obtain rfl := List.map_eq_nil_iff.1 h₃
    exact ⟨.nameIn b a, rfl⟩
  | nameInIn =>
    obtain ⟨c, _, rfl, h₁⟩ := name_of_kinds h
    obtain ⟨_, rfl, h₂⟩ := symbol_of_kinds h₁
    obtain ⟨b, _, rfl, h₃⟩ := name_of_kinds h₂
    obtain ⟨_, rfl, h₄⟩ := symbol_of_kinds h₃
    obtain ⟨a, _, rfl, h₅⟩ := name_of_kinds h₄
    obtain rfl := List.map_eq_nil_iff.1 h₅
    exact ⟨.nameInIn c b a, rfl⟩

namespace Phrase

/-- Tokens of the same kinds as those of `p` are a sentence. -/
def ByKind (p : Phrase) : Prop :=
  ∀ ⦃ts⦄, kinds ts = kinds p.tokens → ∃ q : Phrase, q.tokens = ts

theorem members_of_kinds : ∀ (members : List (MemberPhrase Phrase)) {ts : List Token},
    (∀ p ∈ members.map (·.type), p.ByKind) → kinds ts = kinds (membersTokens members) →
      ∃ members', membersTokens members' = ts
  | [], _, _, h => ⟨[], (List.map_eq_nil_iff.1 h).symm⟩
  | ⟨_, type, _⟩ :: members, ts, hp, h => by
    rw [List.map_cons, List.forall_mem_cons] at hp
    obtain ⟨_, rfl, h₁⟩ := symbol_of_kinds h
    obtain ⟨n, _, rfl, h₂⟩ := name_of_kinds h₁
    obtain ⟨_, _, rfl, hm, h₃⟩ := append_of_kinds h₂
    obtain ⟨_, _, rfl, ht, hd⟩ := append_of_kinds hm
    obtain ⟨d, rfl⟩ := description_of_kinds hd
    obtain ⟨q, rfl⟩ := hp.1 ht
    obtain ⟨members', rfl⟩ := members_of_kinds members hp.2 h₃
    exact ⟨⟨n, q, d⟩ :: members', rfl⟩

/-- The first member of a row has no comma before it. -/
theorem fields_of_kinds (members : List (MemberPhrase Phrase))
    (hp : ∀ p ∈ members.map (·.type), p.ByKind)
    (h : kinds ts = kinds ((membersTokens members).drop 1)) :
    ∃ members', (membersTokens members').drop 1 = ts := by
  cases members with
  | nil => exact ⟨[], (List.map_eq_nil_iff.1 h).symm⟩
  | cons m members =>
    have h : kinds (.symbol .comma :: ts) = kinds (membersTokens (m :: members)) :=
      congrArg (Kind.symbol .comma :: ·) h
    obtain ⟨members', hm⟩ := members_of_kinds (m :: members) hp h
    exact ⟨members', by rw [hm, List.drop_succ_cons, List.drop_zero]⟩

theorem base_of_kinds (b : BasePhrase Phrase) (hp : ∀ p ∈ b.parts, p.ByKind)
    (h : kinds ts = kinds (baseTokens b)) : ∃ b' : BasePhrase Phrase, baseTokens b' = ts := by
  cases b with
  | atom a =>
    obtain ⟨a', rfl⟩ := a.of_kinds h
    exact ⟨.atom a', rfl⟩
  | collection c e =>
    obtain ⟨_, rfl, h₁⟩ := keyword_of_kinds h
    obtain ⟨_, rfl, h₂⟩ := symbol_of_kinds h₁
    obtain ⟨_, _, rfl, he, h₃⟩ := append_of_kinds h₂
    obtain ⟨_, rfl, h₄⟩ := symbol_of_kinds h₃
    obtain rfl := List.map_eq_nil_iff.1 h₄
    obtain ⟨e', rfl⟩ := hp e (by simp [BasePhrase.parts]) he
    exact ⟨.collection c e', rfl⟩
  | map k v =>
    obtain ⟨_, rfl, h₁⟩ := keyword_of_kinds h
    obtain ⟨_, rfl, h₂⟩ := symbol_of_kinds h₁
    obtain ⟨_, _, rfl, hk, h₃⟩ := append_of_kinds h₂
    obtain ⟨_, rfl, h₄⟩ := symbol_of_kinds h₃
    obtain ⟨_, _, rfl, hv, h₅⟩ := append_of_kinds h₄
    obtain ⟨_, rfl, h₆⟩ := symbol_of_kinds h₅
    obtain rfl := List.map_eq_nil_iff.1 h₆
    obtain ⟨k', rfl⟩ := hp k (by simp [BasePhrase.parts]) hk
    obtain ⟨v', rfl⟩ := hp v (by simp [BasePhrase.parts]) hv
    exact ⟨.map k' v', rfl⟩
  | row round members =>
    obtain ⟨_, rfl, h₁⟩ := keyword_of_kinds h
    obtain ⟨_, rfl, h₂⟩ := symbol_of_kinds h₁
    obtain ⟨_, _, rfl, hm, h₃⟩ := append_of_kinds h₂
    obtain ⟨_, rfl, h₄⟩ := symbol_of_kinds h₃
    obtain rfl := List.map_eq_nil_iff.1 h₄
    obtain ⟨members', rfl⟩ := fields_of_kinds members hp hm
    exact ⟨.row round members', rfl⟩
  | structured _ members =>
    obtain ⟨_, rfl, h₁⟩ := keyword_of_kinds h
    obtain ⟨_, rfl, h₂⟩ := symbol_of_kinds h₁
    obtain ⟨className, _, rfl, h₃⟩ := string_of_kinds h₂
    obtain ⟨_, _, rfl, hm, h₄⟩ := append_of_kinds h₃
    obtain ⟨_, rfl, h₅⟩ := symbol_of_kinds h₄
    obtain rfl := List.map_eq_nil_iff.1 h₅
    obtain ⟨members', rfl⟩ := members_of_kinds members hp hm
    exact ⟨.structured className members', rfl⟩

theorem byKind : ∀ p : Phrase, p.ByKind := by
  refine forall_of_parts fun b n ws ih ts h => ?_
  obtain ⟨_, _, rfl, hbn, hws⟩ := append_of_kinds h
  obtain ⟨_, _, rfl, hb, hn⟩ := append_of_kinds hbn
  obtain ⟨b', rfl⟩ := base_of_kinds b ih hb
  obtain rfl := nullability_of_kinds hn
  obtain rfl := wrappers_of_kinds hws
  exact ⟨⟨b', n, ws⟩, rfl⟩

end Phrase

theorem sentence_of_kinds (h : Sentence us) (hts : kinds ts = kinds us) : Sentence ts := by
  obtain ⟨p, rfl⟩ := h
  exact p.byKind hts

theorem begins_iff : Begins ts ↔ ∃ rest, Sentence (ts ++ rest) := by
  constructor
  · rintro ⟨us, hus, rest, hrest⟩
    obtain ⟨vs, vs', rfl, hvs, rfl⟩ := List.map_eq_append_iff.1 hrest.symm
    refine ⟨vs', sentence_of_kinds hus ?_⟩
    rw [kinds, List.map_append, kinds, List.map_append, hvs]
  · rintro ⟨rest, h⟩
    exact ⟨_, h, (List.prefix_append ts rest).map _⟩

theorem Begins.of_append (h : Begins (ts ++ us)) : Begins ts := by
  obtain ⟨rest, h⟩ := begins_iff.1 h
  exact begins_iff.2 ⟨us ++ rest, by rwa [← List.append_assoc]⟩

theorem Begins.shorter (h : Begins ts) (hus : us <+: ts) : Begins us := by
  obtain ⟨vs, rfl⟩ := hus
  exact h.of_append

theorem Begins.goesOn (h : Begins (ts ++ t :: us)) : GoesOn ts := by
  rw [List.append_cons] at h
  exact ⟨t, h.of_append⟩

theorem GoesOn.begins (h : GoesOn ts) : Begins ts := by
  obtain ⟨t, h⟩ := h
  exact h.of_append

/-! ## Where `TO` stands -/

/-- The word `TO` comes neither first nor behind `SECOND`. -/
structure ToInside (ts : List Token) : Prop where
  head : ts.head? ≠ some (.keyword .to)
  chain : ts.IsChain fun t u => u = .keyword .to → t ≠ .keyword .second

namespace ToInside

theorem nil : ToInside [] :=
  ⟨nofun, .nil⟩

theorem cons (ht : t ≠ .keyword .to) (h : ToInside ts) : ToInside (t :: ts) := by
  refine ⟨by simpa using ht, h.chain.cons fun u hu hto => ?_⟩
  exact absurd (hto ▸ hu) h.head

theorem append (h : ToInside ts) (h' : ToInside us) : ToInside (ts ++ us) := by
  refine ⟨?_, h.chain.append h'.chain fun t _ u hu hto => absurd (hto ▸ hu) h'.head⟩
  cases ts with
  | nil => exact h'.head
  | cons t ts => exact h.head

theorem of_not_mem : ∀ {ts : List Token}, .keyword .to ∉ ts → ToInside ts
  | [], _ => nil
  | _ :: _, h => (of_not_mem (List.not_mem_of_not_mem_cons h)).cons (List.ne_of_not_mem_cons h).symm

/-- Behind some tokens without `SECOND`. -/
theorem range (h : ToInside ts) (hne : ts ≠ []) (hsecond : .keyword .second ∉ ts)
    (h' : ToInside us) : ToInside (ts ++ .keyword .to :: us) := by
  refine ⟨?_, h.chain.append (h'.chain.cons fun u hu hto => ?_) fun t ht u hu hto => ?_⟩
  · rw [List.head?_append_of_ne_nil _ hne]
    exact h.head
  · exact absurd (hto ▸ hu) h'.head
  · rintro rfl
    exact hsecond (List.mem_of_getLast? ht)

theorem symbol (s : Symbol) (h : ToInside ts) : ToInside (.symbol s :: ts) :=
  h.cons nofun

theorem last (s : Symbol) : ToInside [.symbol s] :=
  nil.symbol s

theorem parameter (d : Option String) : ToInside (parameterTokens d) :=
  of_not_mem (by cases d <;> simp [parameterTokens])

theorem precision (used : Bool) (d : Option String) : ToInside (precisionTokens used d) := by
  cases used with
  | true => exact parameter d
  | false => exact nil

theorem name (n : Name) (h : ToInside ts) : ToInside (n.token :: ts) :=
  h.cons (by cases n <;> simp [Name.token])

theorem unit (u : TimeUnit) (h : ToInside ts) : ToInside (.keyword u.keyword :: ts) :=
  h.cons (by cases u <;> simp [TimeUnit.keyword])

theorem second_not_mem_precision (used : Bool) (d : Option String) :
    .keyword .second ∉ precisionTokens used d := by
  cases used <;> cases d <;> simp [precisionTokens, parameterTokens]

theorem years (d : Option String) (b : Bool) : ToInside (AtomPhrase.years d b).tokens := by
  have hinterval : ToInside (.keyword .interval :: .keyword .year :: parameterTokens d) :=
    ((parameter d).unit .year).cons nofun
  cases b with
  | false => simpa [AtomPhrase.tokens, monthTokens] using hinterval
  | true =>
    have hsecond := second_not_mem_precision true d
    have h := hinterval.range (by simp) (by simpa [precisionTokens] using hsecond)
      (nil.unit .month)
    simpa [AtomPhrase.tokens, monthTokens, TimeUnit.keyword] using h

theorem dayTime (r : DayTime) (d f : Option String) :
    ToInside (AtomPhrase.dayTime r d f).tokens := by
  have hinterval : ToInside
      (.keyword .interval :: .keyword r.first.keyword :: precisionTokens r.hasDay d) :=
    ((precision r.hasDay d).unit r.first).cons nofun
  have hfraction := precision r.hasFraction f
  rw [AtomPhrase.tokens, endTokens]
  split_ifs with hr
  · simpa using hinterval.append hfraction
  · have hsecond := second_not_mem_precision r.hasDay d
    have hfirst : .keyword .second ≠ Token.keyword r.first.keyword := by
      revert hr
      cases r <;> simp [DayTime.first, DayTime.last, TimeUnit.keyword]
    have h := hinterval.range (by simp) (by simp [hsecond, hfirst]) (hfraction.unit r.last)
    simpa using h

theorem atom (a : AtomPhrase) : ToInside a.tokens := by
  cases a with
  | years d b => exact years d b
  | dayTime r d f => exact dayTime r d f
  | plain p => exact of_not_mem (by cases p <;> simp [AtomPhrase.tokens, Plain.keyword])
  | sized s d => exact (parameter d).cons (by cases s <;> simp [Sized.keyword])
  | decimal w => exact nil.cons (by cases w <;> simp [DecimalWord.keyword])
  | decimalOf w p d =>
    refine cons (by cases w <;> simp [DecimalWord.keyword]) (of_not_mem ?_)
    cases d <;> simp [scaleTokens]
  | time d b =>
    refine ((parameter d).append (of_not_mem ?_)).cons (by simp)
    cases b <;> simp [Zone.tokens]
  | timestamp d z =>
    refine ((parameter d).append (of_not_mem ?_)).cons (by simp)
    cases z <;> simp [Zone.tokens]
  | localZonedTimestamp d => exact (parameter d).cons (by simp)
  | integer | doublePrecision | string | bytes | months | raw | legacy =>
    exact of_not_mem (by simp [AtomPhrase.tokens, stringsTokens])
  | name a => exact name a nil
  | nameIn b a => exact name b ((name a nil).symbol _)
  | nameInIn c b a => exact name c ((name b ((name a nil).symbol _)).symbol _)

theorem nullability (n : Nullability) : ToInside n.tokens :=
  of_not_mem (by cases n <;> simp [Nullability.tokens])

theorem wrappers : ∀ ws : List (Collection × Nullability), ToInside (wrapperTokens ws)
  | [] => nil
  | (c, n) :: ws =>
    ((nullability n).append (wrappers ws)).cons (by cases c <;> simp [Collection.keyword])

theorem description (d : Option String) : ToInside (d.map Token.string).toList :=
  of_not_mem (by cases d <;> simp)

theorem member {p : Phrase} (n : Name) (d : Option String) (hp : ToInside p.tokens)
    (h : ToInside ts) :
    ToInside (n.token :: (p.tokens ++ (d.map Token.string).toList ++ ts)) :=
  name n ((hp.append (description d)).append h)

theorem members : ∀ {members : List (MemberPhrase Phrase)},
    (∀ p ∈ members.map (·.type), ToInside p.tokens) → ToInside (Phrase.membersTokens members)
  | [], _ => nil
  | ⟨n, _, d⟩ :: _, hp => by
    rw [List.map_cons, List.forall_mem_cons] at hp
    exact (member n d hp.1 (members hp.2)).symbol _

theorem fields {members : List (MemberPhrase Phrase)}
    (hp : ∀ p ∈ members.map (·.type), ToInside p.tokens) :
    ToInside ((Phrase.membersTokens members).drop 1) := by
  cases members with
  | nil => exact nil
  | cons m ms =>
    rw [List.map_cons, List.forall_mem_cons] at hp
    exact member m.name m.description hp.1 (members hp.2)

theorem base (b : BasePhrase Phrase) (hp : ∀ p ∈ b.parts, ToInside p.tokens) :
    ToInside (Phrase.baseTokens b) := by
  cases b with
  | atom a => exact atom a
  | collection c e =>
    have he := hp e (by simp [BasePhrase.parts])
    exact ((he.append (last _)).symbol _).cons (by cases c <;> simp [Collection.keyword])
  | map k v =>
    have hk := hp k (by simp [BasePhrase.parts])
    have hv := hp v (by simp [BasePhrase.parts])
    exact ((hk.append ((hv.append (last _)).symbol _)).symbol _).cons (by simp)
  | row round ms => exact (((fields hp).append (last _)).symbol _).cons (by simp)
  | structured className ms =>
    have hms := ((members hp).append (last .closeAngle)).cons (t := .string className) (by simp)
    exact (hms.symbol _).cons (by simp)

theorem phrase : ∀ p : Phrase, ToInside p.tokens :=
  Phrase.forall_of_parts fun b n ws ih =>
    ((base b ih).append (nullability n)).append (wrappers ws)

end ToInside

/-- No sentence has `TO` behind `SECOND`. -/
theorem not_begins_secondTo (h : [.keyword .second, .keyword .to] <:+ ts) : ¬ Begins ts := by
  intro hts
  obtain ⟨rest, p, hp⟩ := begins_iff.1 hts
  have hinfix : [.keyword .second, .keyword .to] <:+: p.tokens :=
    hp ▸ h.isInfix.trans (List.prefix_append ts rest).isInfix
  have hchain := List.IsChain.infix (ToInside.phrase p).chain hinfix
  exact (List.isChain_cons_cons.1 hchain).1 rfl rfl

end Grammar

end SqlTypes
