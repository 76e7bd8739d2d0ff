import SqlTypes.Proofs.Passing

/-!
# Reading atoms

Each reading of an atom, started behind the keyword, passes the tokens of an atom phrase that means
what it gives (`BehindKeyword`). Started in front of the tokens of an atom phrase, with nothing
behind them that could go on with it, it passes just these, and gives what the phrase means or finds
fault with its meaning.
-/

namespace SqlTypes

open Grammar Cursor

namespace Reading

variable {c c' : Cursor} {rest : List Token} {t : DataType} {start : Nat}

/-- Between `c` and `c'` stand the tokens of an atom that means `t`, without its first one, which is
the keyword `k`. -/
def BehindKeyword (loader : Loader) (k : Keyword) (c c' : Cursor) (t : DataType) : Prop :=
  ∃ (a : AtomPhrase) (ts : List Token),
    a.tokens = .keyword k :: ts ∧ a.meaning? loader = some t ∧ c.Passes ts 0 c'

theorem run_make_ok {blamed : Nat} {s : Shape DataType} :
    (make blamed s).run c = .ok t c' ↔ make? s = some t ∧ c = c' := by
  rw [make, run_orFailAt_ok, make?]
  cases DataType.new s <;> simp [Except.toOption]

theorem make_outcome (blamed : Nat) (s : Shape DataType) :
    Outcome c [] 0 (make? s = some ·) ((make blamed s).run c) :=
  orFailAt_outcome blamed (DataType.new s)

theorem parameterOr_passes {o n : Numeral} (h : (parameterOr o).run c = .ok n c') :
    ∃ d, parameter? o.value d = some n.value ∧ c.Passes (parameterTokens d) 0 c' := by
  obtain ⟨b, c₁, ha, h⟩ := run_bind_ok.1 h
  cases b with
  | false =>
    obtain ⟨rfl, rfl⟩ := run_pure_ok.1 h
    exact ⟨none, rfl, accept_passes ha⟩
  | true =>
    obtain ⟨m, c₂, hm, h⟩ := run_bind_ok.1 h
    obtain ⟨_, c₃, hs, h⟩ := run_bind_ok.1 h
    obtain ⟨rfl, rfl⟩ := run_pure_ok.1 h
    obtain ⟨digits, hd, hp⟩ := integer_passes hm
    exact ⟨some digits, hd, (accept_passes ha).trans (hp.trans (expectSymbol_passes hs))⟩

theorem parameterOr_outcome (o : Numeral) {d : Option String}
    (hc : c.rest = parameterTokens d ++ rest) (hr : rest.head? ≠ some (.symbol .openParen)) :
    Outcome c (parameterTokens d) 0 (fun n => parameter? o.value d = some n.value)
      ((parameterOr o).run c) := by
  rw [parameterOr]
  cases d with
  | none =>
    rw [run_bind_of_ok (run_accept_other hc hr)]
    exact ⟨rfl, .refl c⟩
  | some digits =>
    have hc₁ := skip_rest hc
    rw [run_bind_of_ok (run_accept_self hc)]
    refine .of_skip hc (.bind (integer_outcome hc₁) (fun n hn => ⟨n, hn⟩) ?_)
    intro n c₁ hn hp
    have hc₂ := hp.rest_eq hc₁
    rw [run_bind_of_ok (run_expectSymbol hc₂)]
    exact ⟨hn, .single (head?_of_rest hc₂)⟩

theorem withParameter_passes {α : Type} {p : Parameter} {behind : Reading α}
    {atom : Nat → α → Atom} (h : (withParameter start p behind atom).run c = .ok t c') :
    ∃ d a c₁, c.Passes (parameterTokens d) 0 c₁ ∧ behind.run c₁ = .ok a c' ∧
      (parameter? p.omitted d).bind (fun n => make? (.atom (atom n a))) = some t := by
  obtain ⟨n, c₁, hn, h⟩ := run_bind_ok.1 h
  obtain ⟨a, c₂, ha, h⟩ := run_bind_ok.1 h
  obtain ⟨ht, rfl⟩ := run_make_ok.1 h
  obtain ⟨d, hd, hp⟩ := parameterOr_passes hn
  refine ⟨d, a, c₁, hp, ha, ?_⟩
  rw [hd, Option.bind_some, ht]

theorem withParameter_outcome {α : Type} {p : Parameter} {behind : Reading α} {a : α}
    {atom : Nat → α → Atom} {d : Option String} {ts : List Token}
    (hc : c.rest = parameterTokens d ++ ts ++ rest)
    (hr : (ts ++ rest).head? ≠ some (.symbol .openParen))
    (hbehind : ∀ c₁ : Cursor, c₁.rest = ts ++ rest → Outcome c₁ ts 0 (a = ·) (behind.run c₁)) :
    Outcome c (parameterTokens d ++ ts) 0
      ((parameter? p.omitted d).bind (fun n => make? (.atom (atom n a))) = some ·)
      ((withParameter start p behind atom).run c) := by
  rw [List.append_assoc] at hc
  refine (parameterOr_outcome _ hc hr).bind
    (fun _ ht => exists_numeral_of_bind_eq_some ht) fun n c₁ hn hp => ?_
  refine (hbehind c₁ (hp.rest_eq hc)).map (fun _ _ => ⟨a, rfl⟩) ?_
  rintro _ c₂ rfl -
  refine (make_outcome _ _).mono fun t => ?_
  rw [hn, Option.bind_some]

theorem sized_passes (loader : Loader) {s : Sized} (h : (sized start s).run c = .ok t c') :
    BehindKeyword loader s.keyword c c' t := by
  obtain ⟨d, _, c₁, hp, hend, ht⟩ := withParameter_passes h
  obtain ⟨-, rfl⟩ := run_pure_ok.1 hend
  exact ⟨.sized s d, _, rfl, ht, hp⟩

theorem sized_outcome (loader : Loader) {s : Sized} {d : Option String}
    (hc : c.rest = parameterTokens d ++ rest) (hr : EndsBase rest) :
    Outcome c (parameterTokens d) 0 ((AtomPhrase.sized s d).meaning? loader = some ·)
      ((sized start s).run c) := by
  rw [← List.append_nil (parameterTokens d)] at hc ⊢
  exact withParameter_outcome hc (hr.head?_ne rfl) fun c₁ _ => ⟨rfl, .refl c₁⟩

theorem scale_passes {n : Nat} (h : scale.run c = .ok n c') :
    ∃ d, parameter? omittedScale d = some n ∧
      c.Passes (scaleTokens d) 0 c' := by
  obtain ⟨b, c₁, ha, h⟩ := run_bind_ok.1 h
  cases b with
  | false =>
    obtain ⟨rfl, rfl⟩ := run_pure_ok.1 h
    exact ⟨none, rfl, accept_passes ha⟩
  | true =>
    obtain ⟨m, c₂, hm, h⟩ := run_bind_ok.1 h
    obtain ⟨rfl, rfl⟩ := run_pure_ok.1 h
    obtain ⟨digits, hd, hp⟩ := integer_passes hm
    exact ⟨some digits, hd, (accept_passes ha).trans hp⟩

theorem decimal_passes (loader : Loader) (w : DecimalWord)
    (h : (decimal start).run c = .ok t c') : BehindKeyword loader w.keyword c c' t := by
  obtain ⟨b, c₁, ha, h⟩ := run_bind_ok.1 h
  cases b with
  | false =>
    obtain ⟨ht, rfl⟩ := run_make_ok.1 h
    exact ⟨.decimal w, _, rfl, ht, accept_passes ha⟩
  | true =>
    obtain ⟨precision, c₂, hn, h⟩ := run_bind_ok.1 h
    obtain ⟨scale, c₃, hm, h⟩ := run_bind_ok.1 h
    obtain ⟨_, c₄, hs, h⟩ := run_bind_ok.1 h
    obtain ⟨ht, rfl⟩ := run_make_ok.1 h
    obtain ⟨p, hp, hpp⟩ := integer_passes hn
    obtain ⟨d, hd, hdp⟩ := scale_passes hm
    have hts := (accept_passes ha).trans (hpp.trans (hdp.trans (expectSymbol_passes hs)))
    exact ⟨.decimalOf w p d, _, rfl, by simpa [AtomPhrase.meaning?, hp, hd] using ht, hts⟩

theorem scale_outcome {d : Option String}
    (hc : c.rest = scaleTokens d ++ .symbol .closeParen :: rest) :
    Outcome c (scaleTokens d) 0 (parameter? omittedScale d = some ·) (scale.run c) := by
  rw [scale]
  cases d with
  | none =>
    rw [run_bind_of_ok (run_accept_other hc (by simp [scaleTokens]))]
    exact ⟨rfl, .refl c⟩
  | some digits =>
    have hc₁ := skip_rest hc
    rw [run_bind_of_ok (run_accept_self hc)]
    refine .of_skip hc ((integer_outcome hc₁).map (fun n hn => ⟨⟨n, 0⟩, hn⟩) ?_)
    exact fun n c₁ hn _ => ⟨hn, .refl c₁⟩

theorem decimal_outcome (loader : Loader) (w : DecimalWord) (hc : c.rest = rest)
    (hr : EndsBase rest) :
    Outcome c [] 0 ((AtomPhrase.decimal w).meaning? loader = some ·) ((decimal start).run c) := by
  rw [decimal, run_bind_of_ok (run_accept_other hc (hr.head?_ne rfl))]
  exact make_outcome _ _

theorem decimalOf_outcome (loader : Loader) {w : DecimalWord} {p : String} {d : Option String}
    {ts : List Token}
    (hts : ts = .symbol .openParen :: .integer p :: (scaleTokens d ++ [.symbol .closeParen]))
    (hc : c.rest = ts ++ rest) :
    Outcome c ts 0 ((AtomPhrase.decimalOf w p d).meaning? loader = some ·)
      ((decimal start).run c) := by
  subst hts
  rw [decimal, run_bind_of_ok (run_accept_self hc)]
  have hc₁ := skip_rest hc
  refine .of_skip hc ((integer_outcome hc₁).bind
    (fun _ ht => exists_numeral_of_bind_eq_some ht) fun n c₁ hn hp => ?_)
  have hc₂ : c₁.rest = scaleTokens d ++ .symbol .closeParen :: rest := by
    simpa using hp.rest_eq hc₁
  refine (scale_outcome hc₂).bind (fun t ht => ?_) fun m c₂ hm hp => ?_
  · simp only [AtomPhrase.meaning?, hn, Option.bind_eq_bind, Option.bind_some] at ht
    exact exists_of_bind_eq_some ht
  have hc₃ := hp.rest_eq hc₂
  rw [run_bind_of_ok (run_expectSymbol hc₃)]
  refine .of_skip hc₃ ((make_outcome _ _).mono fun t => ?_)
  simp [AtomPhrase.meaning?, hn, hm]

theorem timeZone_passes {u : Unit} (h : timeZone.run c = .ok u c') :
    c.Passes [.keyword .time, .keyword .zone] 0 c' := by
  obtain ⟨_, c₁, ht, hz⟩ := run_bind_ok.1 h
  exact (expectKeyword_passes ht).trans (expectKeyword_passes hz)

theorem timeZone_outcome (hc : c.rest = .keyword .time :: .keyword .zone :: rest) :
    Outcome c [.keyword .time, .keyword .zone] 0 (fun _ => True) (timeZone.run c) := by
  have hc₁ := skip_rest hc
  rw [timeZone, run_bind_of_ok (run_expectKeyword hc), run_expectKeyword hc₁]
  exact .of_skip hc ⟨trivial, .single (head?_of_rest hc₁)⟩

theorem withoutZone_passes {u : Unit} (h : withoutZone.run c = .ok u c') :
    ∃ b : Bool, c.Passes (if b then Zone.without else Zone.unmarked).tokens 0 c' := by
  obtain ⟨b, c₁, ha, h⟩ := run_bind_ok.1 h
  cases b with
  | true => exact ⟨true, (accept_passes ha).trans (timeZone_passes h)⟩
  | false =>
    obtain ⟨-, rfl⟩ := run_pure_ok.1 h
    exact ⟨false, accept_passes ha⟩

theorem withoutZone_outcome {b : Bool}
    (hc : c.rest = (if b then Zone.without else Zone.unmarked).tokens ++ rest)
    (hr : EndsBase rest) :
    Outcome c (if b then Zone.without else Zone.unmarked).tokens 0 (fun _ => True)
      (withoutZone.run c) := by
  rw [withoutZone, acceptKeyword]
  cases b with
  | true =>
    rw [run_bind_of_ok (run_accept_self hc)]
    exact .of_skip hc (timeZone_outcome (skip_rest hc))
  | false =>
    rw [run_bind_of_ok (run_accept_other hc (hr.head?_ne rfl))]
    exact ⟨trivial, .refl c⟩

theorem time_passes (loader : Loader) (h : (time start).run c = .ok t c') :
    BehindKeyword loader .time c c' t := by
  obtain ⟨d, _, c₁, hp, hz, ht⟩ := withParameter_passes h
  obtain ⟨b, hb⟩ := withoutZone_passes hz
  exact ⟨.time d b, _, rfl, ht, hp.trans hb⟩

theorem time_outcome (loader : Loader) {d : Option String} {b : Bool}
    (hc : c.rest = parameterTokens d ++ (if b then Zone.without else Zone.unmarked).tokens ++ rest)
    (hr : EndsBase rest) :
    Outcome c (parameterTokens d ++ (if b then Zone.without else Zone.unmarked).tokens) 0
      ((AtomPhrase.time d b).meaning? loader = some ·) ((time start).run c) := by
  refine withParameter_outcome (a := ()) hc ?_ fun c₁ hc₁ => ?_
  · cases b with
    | true => simp [Zone.tokens]
    | false => exact hr.head?_ne rfl
  · exact (withoutZone_outcome hc₁ hr).mono fun _ => ⟨fun _ => rfl, fun _ => trivial⟩

theorem zone_passes {z : Temporal} (h : zone.run c = .ok z c') :
    ∃ w : Zone, w.temporal = z ∧ c.Passes w.tokens 0 c' := by
  obtain ⟨b, c₁, ha, h⟩ := run_bind_ok.1 h
  cases b with
  | true =>
    obtain ⟨_, c₂, hz, h⟩ := run_bind_ok.1 h
    obtain ⟨rfl, rfl⟩ := run_pure_ok.1 h
    exact ⟨.without, rfl, (accept_passes ha).trans (timeZone_passes hz)⟩
  | false =>
    obtain ⟨b, c₂, hb, h⟩ := run_bind_ok.1 h
    have hab := (accept_passes ha).trans (accept_passes hb)
    cases b with
    | true =>
      obtain ⟨isLocal, c₃, hl, h⟩ := run_bind_ok.1 h
      obtain ⟨_, c₄, hz, h⟩ := run_bind_ok.1 h
      obtain ⟨rfl, rfl⟩ := run_pure_ok.1 h
      have hz := hab.trans ((accept_passes hl).trans (timeZone_passes hz))
      cases isLocal with
      | true => exact ⟨.localZoned, rfl, hz⟩
      | false => exact ⟨.zoned, rfl, hz⟩
    | false =>
      obtain ⟨rfl, rfl⟩ := run_pure_ok.1 h
      exact ⟨.unmarked, rfl, hab⟩

theorem zone_outcome {w : Zone} (hc : c.rest = w.tokens ++ rest) (hr : EndsBase rest) :
    Outcome c w.tokens 0 (w.temporal = ·) (zone.run c) := by
  rw [zone, acceptKeyword, withZone, acceptKeyword, acceptKeyword]
  cases w with
  | unmarked =>
    rw [run_bind_of_ok (run_accept_other hc (hr.head?_ne rfl))]
    simp only [Bool.false_eq_true, if_false]
    rw [run_bind_of_ok (run_accept_other hc (hr.head?_ne rfl))]
    exact ⟨rfl, .refl c⟩
  | without =>
    rw [run_bind_of_ok (run_accept_self hc)]
    refine .of_skip hc ((timeZone_outcome (skip_rest hc)).map (fun _ _ => ⟨(), trivial⟩) ?_)
    exact fun _ c₁ _ _ => ⟨rfl, .refl c₁⟩
  | zoned =>
    have hc₁ := skip_rest hc
    rw [run_bind_of_ok (run_accept_other hc (by simp [Zone.tokens]))]
    simp only [Bool.false_eq_true, if_false]
    rw [run_bind_of_ok (run_accept_self hc)]
    simp only [if_true]
    rw [run_bind_of_ok (run_accept_other hc₁ (by simp))]
    refine .of_skip hc ((timeZone_outcome hc₁).map (fun _ _ => ⟨(), trivial⟩) ?_)
    exact fun _ c₁ _ _ => ⟨rfl, .refl c₁⟩
  | localZoned =>
    have hc₁ := skip_rest hc
    rw [run_bind_of_ok (run_accept_other hc (by simp [Zone.tokens]))]
    simp only [Bool.false_eq_true, if_false]
    rw [run_bind_of_ok (run_accept_self hc)]
    simp only [if_true]
    rw [run_bind_of_ok (run_accept_self hc₁)]
    refine .of_skip hc (.of_skip hc₁ ?_)
    exact (timeZone_outcome (skip_rest hc₁)).map (fun _ _ => ⟨(), trivial⟩)
      fun _ c₁ _ _ => ⟨rfl, .refl c₁⟩

theorem timestamp_passes (loader : Loader) (h : (timestamp start).run c = .ok t c') :
    BehindKeyword loader .timestamp c c' t := by
  obtain ⟨d, _, c₁, hp, hz, ht⟩ := withParameter_passes h
  obtain ⟨w, rfl, hw⟩ := zone_passes hz
  exact ⟨.timestamp d w, _, rfl, ht, hp.trans hw⟩

theorem localZonedTimestamp_passes (loader : Loader)
    (h : (localZonedTimestamp start).run c = .ok t c') :
    BehindKeyword loader .timestampLtz c c' t := by
  obtain ⟨d, _, c₁, hp, hend, ht⟩ := withParameter_passes h
  obtain ⟨-, rfl⟩ := run_pure_ok.1 hend
  exact ⟨.localZonedTimestamp d, _, rfl, ht, hp⟩

theorem timestamp_outcome (loader : Loader) {d : Option String} {w : Zone}
    (hc : c.rest = parameterTokens d ++ w.tokens ++ rest) (hr : EndsBase rest) :
    Outcome c (parameterTokens d ++ w.tokens) 0
      ((AtomPhrase.timestamp d w).meaning? loader = some ·) ((timestamp start).run c) := by
  refine withParameter_outcome hc ?_ fun c₁ hc₁ => zone_outcome hc₁ hr
  cases w with
  | unmarked => exact hr.head?_ne rfl
  | without | zoned | localZoned => simp [Zone.tokens]

theorem localZonedTimestamp_outcome (loader : Loader) {d : Option String}
    (hc : c.rest = parameterTokens d ++ rest) (hr : EndsBase rest) :
    Outcome c (parameterTokens d) 0 ((AtomPhrase.localZonedTimestamp d).meaning? loader = some ·)
      ((localZonedTimestamp start).run c) := by
  rw [← List.append_nil (parameterTokens d)] at hc ⊢
  exact withParameter_outcome hc (hr.head?_ne rfl) fun c₁ _ => ⟨rfl, .refl c₁⟩

/-! ## Names -/

/-- Segments behind the first one. -/
def dotted (names : List Name) : List Token :=
  names.flatMap fun n => [.symbol .dot, n.token]

theorem moreSegments_passes : ∀ (n : Nat) {c c' : Cursor} {segments : List String},
    (moreSegments n).run c = .ok segments c' →
      ∃ names : List Name, names.length ≤ n ∧ names.map Name.text = segments ∧
        c.Passes (dotted names) 0 c'
  | 0, c, c', segments, h => by
    obtain ⟨rfl, rfl⟩ := run_pure_ok.1 h
    exact ⟨[], Nat.le_refl _, rfl, .refl c⟩
  | n + 1, c, c', segments, h => by
    obtain ⟨b, c₁, ha, h⟩ := run_bind_ok.1 h
    cases b with
    | false =>
      obtain ⟨rfl, rfl⟩ := run_pure_ok.1 h
      exact ⟨[], by simp, rfl, accept_passes ha⟩
    | true =>
      obtain ⟨s, c₂, hs, h⟩ := run_bind_ok.1 h
      obtain ⟨ss, c₃, hss, h⟩ := run_bind_ok.1 h
      obtain ⟨rfl, rfl⟩ := run_pure_ok.1 h
      obtain ⟨a, rfl, hp⟩ := name_passes hs
      obtain ⟨names, hlen, rfl, hps⟩ := moreSegments_passes n hss
      exact ⟨a :: names, by simpa using hlen, rfl, (accept_passes ha).trans (hp.trans hps)⟩

theorem moreSegments_outcome : ∀ (n : Nat) (names : List Name) {c : Cursor},
    names.length ≤ n → c.rest = dotted names ++ rest → EndsBase rest →
      Outcome c (dotted names) 0 (· = names.map Name.text) ((moreSegments n).run c)
  | 0, [], c, _, _, _ => ⟨rfl, .refl c⟩
  | n + 1, [], c, _, hc, hr => by
    rw [moreSegments, run_bind_of_ok (run_accept_other hc (hr.head?_ne rfl))]
    exact ⟨rfl, .refl c⟩
  | n + 1, a :: names, c, hlen, hc, hr => by
    have hc₁ := skip_rest hc
    have hc₂ := skip_rest hc₁
    rw [moreSegments, run_bind_of_ok (run_accept_self hc)]
    simp only [if_true]
    rw [run_bind_of_ok (run_name hc₁)]
    refine .of_skip hc (.of_skip hc₁ ?_)
    refine (moreSegments_outcome n names (by simpa using hlen) hc₂ hr).map (fun _ _ => ⟨_, rfl⟩) ?_
    rintro _ c₁ rfl _
    exact ⟨rfl, .refl c₁⟩

theorem unresolved_passes (loader : Loader) (h : unresolved.run c = .ok t c') :
    ∃ a : AtomPhrase, a.meaning? loader = some t ∧ c.Passes a.tokens 0 c' := by
  obtain ⟨start, c₁, hs, h⟩ := run_bind_ok.1 h
  obtain ⟨first, c₂, hf, h⟩ := run_bind_ok.1 h
  obtain ⟨others, c₃, ho, h⟩ := run_bind_ok.1 h
  obtain ⟨name, c₄, hn, h⟩ := run_bind_ok.1 h
  obtain ⟨ht, rfl⟩ := run_make_ok.1 h
  obtain ⟨hname, rfl⟩ := run_orFailAt_ok.1 hn
  cases hs
  obtain ⟨a, rfl, hp⟩ := name_passes hf
  obtain ⟨names, hlen, rfl, hps⟩ := moreSegments_passes _ ho
  have ht : unresolved? (a :: names) = some t := by
    rw [unresolved?, List.map_cons, hname]
    exact ht
  match names, hlen with
  | [], _ => exact ⟨.name a, ht, hp.trans hps⟩
  | [b], _ => exact ⟨.nameIn a b, ht, hp.trans hps⟩
  | [b, d], _ => exact ⟨.nameInIn a b d, ht, hp.trans hps⟩

theorem unresolved_outcome {a : Name} {names : List Name} (hlen : names.length < maxSegments)
    (hc : c.rest = a.token :: (dotted names ++ rest)) (hr : EndsBase rest) :
    Outcome c (a.token :: dotted names) 0 (unresolved? (a :: names) = some ·)
      (unresolved.run c) := by
  have hc₁ := skip_rest hc
  rw [unresolved, run_bind_of_ok (run_here c), run_bind_of_ok (run_name hc)]
  refine .of_skip hc ?_
  refine (moreSegments_outcome _ names (Nat.le_sub_one_of_lt hlen) hc₁ hr).map
    (fun _ _ => ⟨_, rfl⟩) ?_
  rintro _ c₁ rfl _
  refine (orFailAt_outcome _ _).map (fun _ ht => exists_of_bind_eq_some ht) fun n c₂ hn _ => ?_
  refine (make_outcome _ _).mono fun t => ?_
  rw [unresolved?, List.map_cons, hn]
  rfl

theorem twoStrings_passes {a b : String} (h : twoStrings.run c = .ok (a, b) c') :
    c.Passes (stringsTokens a b) 0 c' := by
  obtain ⟨_, c₁, ho, h⟩ := run_bind_ok.1 h
  obtain ⟨a', c₂, ha, h⟩ := run_bind_ok.1 h
  obtain ⟨_, c₃, hc, h⟩ := run_bind_ok.1 h
  obtain ⟨b', c₄, hb, h⟩ := run_bind_ok.1 h
  obtain ⟨_, c₅, hcl, h⟩ := run_bind_ok.1 h
  obtain ⟨hab, rfl⟩ := run_pure_ok.1 h
  cases hab
  exact (expectSymbol_passes ho).trans ((string_passes ha).trans ((expectSymbol_passes hc).trans
    ((string_passes hb).trans (expectSymbol_passes hcl))))

theorem twoStrings_outcome {a b : String} (hc : c.rest = stringsTokens a b ++ rest) :
    Outcome c (stringsTokens a b) 0 (· = (a, b)) (twoStrings.run c) := by
  have hc₁ := skip_rest hc
  have hc₂ := skip_rest hc₁
  have hc₃ := skip_rest hc₂
  have hc₄ := skip_rest hc₃
  rw [twoStrings, run_bind_of_ok (run_expectSymbol hc), run_bind_of_ok (run_string hc₁),
    run_bind_of_ok (run_expectSymbol hc₂), run_bind_of_ok (run_string hc₃),
    run_bind_of_ok (run_expectSymbol hc₄)]
  refine .of_skip hc (.of_skip hc₁ (.of_skip hc₂ (.of_skip hc₃ (.of_skip hc₄ ?_))))
  exact ⟨rfl, .refl _⟩

theorem raw_passes {loader : Loader} (h : (raw loader start).run c = .ok t c') :
    BehindKeyword loader .raw c c' t := by
  obtain ⟨⟨className, snapshot⟩, c₁, hs, h⟩ := run_bind_ok.1 h
  simp only at h
  split at h
  · rename_i r hr
    obtain ⟨ht, rfl⟩ := run_make_ok.1 h
    refine ⟨.raw className snapshot, _, rfl, ?_, twoStrings_passes hs⟩
    simpa [AtomPhrase.meaning?, hr, Except.toOption] using ht
  · cases h

theorem raw_outcome (loader : Loader) {className snapshot : String}
    (hc : c.rest = stringsTokens className snapshot ++ rest) :
    Outcome c (stringsTokens className snapshot) 0
      ((AtomPhrase.raw className snapshot).meaning? loader = some ·)
      ((raw loader start).run c) := by
  refine (twoStrings_outcome hc).map (fun _ _ => ⟨_, rfl⟩) ?_
  rintro _ c₁ rfl _
  simp only [AtomPhrase.meaning?]
  split
  · rename_i r hr
    rw [hr]
    exact make_outcome _ _
  · rename_i e he
    rw [he]
    exact ⟨trivial, fun t => nofun⟩

theorem legacy_passes {loader : Loader} (h : (legacy loader start).run c = .ok t c') :
    BehindKeyword loader .legacy c c' t := by
  obtain ⟨⟨family, payload⟩, c₁, hs, h⟩ := run_bind_ok.1 h
  simp only at h
  split at h
  · exact absurd h run_failAt_ne_ok
  · rename_i f hf
    split at h
    · rename_i u hu
      obtain ⟨rfl, rfl⟩ := run_pure_ok.1 h
      refine ⟨.legacy family payload, _, rfl, ?_, twoStrings_passes hs⟩
      simp [AtomPhrase.meaning?, hf, hu, Except.toOption]
    · exact absurd h run_failAt_ne_ok

theorem legacy_outcome (loader : Loader) {family payload : String}
    (hc : c.rest = stringsTokens family payload ++ rest) :
    Outcome c (stringsTokens family payload) 0
      ((AtomPhrase.legacy family payload).meaning? loader = some ·)
      ((legacy loader start).run c) := by
  refine (twoStrings_outcome hc).map (fun _ _ => ⟨_, rfl⟩) ?_
  rintro _ c₁ rfl _
  simp only [AtomPhrase.meaning?]
  split
  · rename_i hf
    rw [hf]
    exact ⟨trivial, fun t => nofun⟩
  · rename_i f hf
    rw [hf]
    split
    · rename_i u hu
      exact ⟨by simp [hu, Except.toOption], .refl c₁⟩
    · rename_i e he
      exact ⟨trivial, fun t => by simp [he, Except.toOption]⟩

end Reading

end SqlTypes
