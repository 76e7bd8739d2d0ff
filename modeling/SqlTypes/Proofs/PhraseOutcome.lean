import SqlTypes.Proofs.PhraseReading

/-!
# Reading the tokens of a phrase

In front of the tokens of a phrase that is no higher than the levels left, with nothing behind them
that could go on with it, a type expression passes just these, and gives what the phrase is read as
or finds fault with its meaning (`typeExpression_outcome`).
-/

namespace SqlTypes

open Grammar Cursor

/-- What follows does not go on with the member of a type before it. -/
def EndsMember (rest : List Token) : Prop :=
  ∃ s, rest.head? = some (.symbol s) ∧ (Token.symbol s).endsType

theorem EndsMember.endsType {rest : List Token} (h : EndsMember rest) : EndsType rest := by
  obtain ⟨s, hs, he⟩ := h
  intro t ht
  rw [hs, Option.some.injEq] at ht
  exact ht ▸ he

theorem endsMember_cons {s : Symbol} {rest : List Token} (hs : (Token.symbol s).endsType) :
    EndsMember (.symbol s :: rest) :=
  ⟨s, rfl, hs⟩

theorem EndsType.wrapperTokens {rest : List Token} (h : EndsType rest) :
    ∀ ws, EndsBase (wrapperTokens ws ++ rest)
  | [] => h.endsBase
  | (c, n) :: ws => by
    rintro t ⟨rfl⟩
    cases c <;> rfl

theorem EndsType.nullability {rest : List Token} (h : EndsType rest) (n : Nullability) (ws) :
    EndsBase (n.tokens ++ (Grammar.wrapperTokens ws ++ rest)) := by
  cases n with
  | unmarked => exact h.wrapperTokens ws
  | null | notNull =>
    rintro t ⟨rfl⟩
    rfl

theorem EndsType.head?_wrapperTokens_ne {rest : List Token} {t : Token} (h : EndsType rest)
    (ht : t.endsType = false) (hw : t.collection? = none) :
    ∀ ws, (Grammar.wrapperTokens ws ++ rest).head? ≠ some t
  | [] => h.head?_ne ht
  | (c, n) :: ws => by
    rintro ⟨rfl⟩
    cases c <;> cases hw

namespace Outcome

variable {α : Type} {c : Cursor} {ts : List Token} {h k : Nat} {P : α → Prop}
  {res : EStateM.Result Fault Cursor α}

theorem of_height_eq (hk : h = k) (ho : Outcome c ts h P res) : Outcome c ts k P res :=
  hk ▸ ho

theorem of_started (ho : Outcome c.started ts h P res) : Outcome c ts h P res :=
  match res, ho with
  | .ok _ _, ⟨ha, hp⟩ => ⟨ha, hp.of_started⟩
  | .error _ _, hf => hf

end Outcome

namespace Reading

variable {loader : Loader} {inner : Reading DataType} {c : Cursor} {t : DataType}
  {rest : List Token} {levels limit start : Nat}

/-- What happens on one more level. -/
def nested {α : Type} (x : Reading α) : Reading α := do
  enter
  let a ← x
  leave
  return a

theorem nested_outcome {α : Type} {x : Reading α} {ts : List Token} {h : Nat} {P : α → Prop}
    (hx : Outcome c.entered ts h P (x.run c.entered)) :
    Outcome c ts (h + 1) P ((nested x).run c) := by
  rw [nested, run_bind_of_ok (run_enter c), EStateM.run_bind]
  rcases hr : x.run c.entered with ⟨a, c₁⟩ | ⟨e, c₁⟩ <;> rw [hr] at hx
  · exact ⟨hx.1, hx.2.nested⟩
  · exact hx

theorem typeExpression_succ : typeExpression loader limit (levels + 1) = (do
    begin
    nested do
      let t ← base loader (typeExpression loader limit levels)
      let t ← nullability t
      wrapped limit levels t) := by
  simp only [typeExpression, nested, bind_assoc]

theorem wrapped_succ : wrapped limit (levels + 1) t = (do
    match ← wrapper? with
    | some (c, _) =>
      nested do
        let t ← nullability { shape := .collection c t }
        wrapped limit levels t
    | none => return t) := by
  rw [wrapped]
  congr 1
  funext w
  rcases w with _ | ⟨c, n⟩
  · rfl
  · simp only [nested, bind_assoc]

theorem nullability_outcome {n : Nullability} (hc : c.rest = n.tokens ++ rest)
    (hnot : rest.head? ≠ some (.keyword .not)) (hnull : rest.head? ≠ some (.keyword .null)) :
    Outcome c n.tokens 0 (n.mark? false t = some ·) ((nullability t).run c) := by
  rw [nullability, run_bind_of_ok (run_here c), acceptKeyword, acceptKeyword]
  cases n with
  | unmarked =>
    rw [run_bind_of_ok (run_accept_other hc hnot)]
    simp only [Bool.false_eq_true, if_false]
    rw [run_bind_of_ok (run_accept_other hc hnull)]
    exact ⟨rfl, .refl c⟩
  | null =>
    rw [run_bind_of_ok (run_accept_other hc (by simp [Nullability.tokens]))]
    simp only [Bool.false_eq_true, if_false]
    rw [run_bind_of_ok (run_accept_self hc)]
    exact .of_skip hc ⟨rfl, .refl _⟩
  | notNull =>
    have hc₁ := skip_rest hc
    rw [run_bind_of_ok (run_accept_self hc)]
    simp only [if_true]
    rw [run_bind_of_ok (run_expectKeyword hc₁)]
    exact .of_skip hc (.of_skip hc₁ (orFailAt_outcome _ _))

theorem run_wrapper?_keyword {k : Collection} (hc : c.rest = .keyword k.keyword :: rest) :
    wrapper?.run c = .ok (some (k, c.passed)) c.skip := by
  rw [run_wrapper?, head?_of_rest hc]
  cases k <;> rfl

theorem run_wrapper?_other (hc : c.rest = rest) (hr : EndsType rest) :
    wrapper?.run c = .ok none c := by
  rw [run_wrapper?, hc]
  cases hh : rest.head? with
  | none => rfl
  | some t =>
    have ht : t.collection? = none := by
      have := hr t hh
      unfold Token.endsType at this
      split at this
      · rfl
      · rfl
      · rfl
      · rfl
      · cases this
    rw [Option.bind_some, ht]

theorem run_wrapped_succ {k : Collection} (hc : c.rest = .keyword k.keyword :: rest) :
    (wrapped limit (levels + 1) t).run c =
      (nested do
        let t ← nullability { shape := .collection k t }
        wrapped limit levels t).run c.skip := by
  rw [wrapped_succ, run_bind_of_ok (run_wrapper?_keyword hc)]

theorem wrapped_outcome : ∀ (levels : Nat) (ws : List (Collection × Nullability)) {t : DataType}
    {c : Cursor}, ws.length ≤ levels → c.rest = wrapperTokens ws ++ rest → EndsType rest →
      Outcome c (wrapperTokens ws) ws.length (wrap? false t ws = some ·)
        ((wrapped limit levels t).run c)
  | 0, [], t, c, _, hc, hr => by
    rw [wrapped, run_bind_of_ok (run_wrapper?_other hc hr)]
    exact ⟨rfl, .refl c⟩
  | levels + 1, [], t, c, _, hc, hr => by
    rw [wrapped, run_bind_of_ok (run_wrapper?_other hc hr)]
    exact ⟨rfl, .refl c⟩
  | levels + 1, (k, n) :: ws, t, c, hlen, hc, hr => by
    have hc₁ : c.skip.entered.rest = n.tokens ++ (wrapperTokens ws ++ rest) := by
      rw [← List.append_assoc]
      exact skip_rest hc
    rw [run_wrapped_succ hc]
    refine .of_skip hc (nested_outcome (.of_height_eq (Nat.zero_max _) ?_))
    refine (nullability_outcome hc₁ (hr.head?_wrapperTokens_ne rfl rfl ws)
      (hr.head?_wrapperTokens_ne rfl rfl ws)).bind (fun _ hu => exists_of_bind_eq_some hu)
      fun t₁ c₁ ht₁ hp => ?_
    refine (wrapped_outcome levels ws (Nat.le_of_succ_le_succ hlen) (hp.rest_eq hc₁) hr).mono ?_
    intro u
    simp [wrap?, ht₁]

/-! ## Bases with types in them -/

/-- In front of a phrase that is no higher than these levels, `x` ends as it should. -/
def EndsPhrases (loader : Loader) (levels : Nat) (x : Reading DataType) : Prop :=
  ∀ ⦃c : Cursor⦄ ⦃rest : List Token⦄ (p : Phrase), c.rest = p.tokens ++ rest → EndsType rest →
    p.height ≤ levels → Outcome c p.tokens p.height (p.type? loader false = some ·) (x.run c)

theorem collection_outcome {k : Collection} {e : Phrase} (hi : EndsPhrases loader levels inner)
    (he : e.height ≤ levels)
    (hc : c.rest = .symbol .openAngle :: (e.tokens ++ .symbol .closeAngle :: rest)) :
    Outcome c (.symbol .openAngle :: (e.tokens ++ [.symbol .closeAngle])) e.height
      (Phrase.baseType? loader false (.collection k e) = some ·)
      ((collection inner start k).run c) := by
  have hc₁ := skip_rest hc
  rw [collection, run_bind_of_ok (run_expectSymbol hc)]
  refine .of_skip hc (.of_height_eq (Nat.max_zero _) ?_)
  refine (hi e hc₁ (endsMember_cons rfl).endsType he).bind
    (fun _ ht => exists_of_bind_eq_some ht) fun u c₁ hu hp => ?_
  have hc₂ := hp.rest_eq hc₁
  rw [run_bind_of_ok (run_expectSymbol hc₂)]
  refine .of_skip hc₂ ((make_outcome _ _).mono fun t => ?_)
  simp [Phrase.baseType?, hu]

theorem map_outcome {k v : Phrase} (hi : EndsPhrases loader levels inner)
    (hk : k.height ≤ levels) (hv : v.height ≤ levels)
    (hc : c.rest = .symbol .openAngle ::
      (k.tokens ++ .symbol .comma :: (v.tokens ++ .symbol .closeAngle :: rest))) :
    Outcome c (.symbol .openAngle ::
        (k.tokens ++ .symbol .comma :: (v.tokens ++ [.symbol .closeAngle])))
      (max k.height v.height) (Phrase.baseType? loader false (.map k v) = some ·)
      ((map inner start).run c) := by
  have hc₁ := skip_rest hc
  rw [map, run_bind_of_ok (run_expectSymbol hc)]
  refine .of_skip hc ?_
  refine (hi k hc₁ (endsMember_cons rfl).endsType hk).bind
    (fun _ ht => exists_of_bind_eq_some ht) fun u c₁ hu hp => ?_
  have hc₂ := hp.rest_eq hc₁
  have hc₃ := skip_rest hc₂
  rw [run_bind_of_ok (run_expectSymbol hc₂)]
  refine .of_skip hc₂ (.of_height_eq (Nat.max_zero _) ?_)
  refine (hi v hc₃ (endsMember_cons rfl).endsType hv).bind (fun t ht => ?_) fun w c₂ hw hp => ?_
  · simp only [Phrase.baseType?, hu, Option.bind_eq_bind, Option.bind_some] at ht
    exact exists_of_bind_eq_some ht
  have hc₄ := hp.rest_eq hc₃
  rw [run_bind_of_ok (run_expectSymbol hc₄)]
  refine .of_skip hc₄ ((make_outcome _ _).mono fun t => ?_)
  simp [Phrase.baseType?, hu, hw]

/-- A member that is read for a phrase of it. -/
def IsMember (loader : Loader) (q : MemberPhrase Phrase) (m : Member DataType) : Prop :=
  ∃ u, q.type.type? loader false = some u ∧ m = ⟨q.name.text, u, q.description⟩

theorem string?_outcome {d : Option String} (hc : c.rest = (d.map Token.string).toList ++ rest)
    (hr : EndsMember rest) :
    Outcome c (d.map Token.string).toList 0 (· = d) (string?.run c) := by
  cases d with
  | none =>
    obtain ⟨s, hs, -⟩ := hr
    rw [run_string?_none hc (by simp [hs])]
    exact ⟨rfl, .refl c⟩
  | some content =>
    rw [run_string? hc]
    exact ⟨rfl, .single (head?_of_rest hc)⟩

theorem member_outcome {q : MemberPhrase Phrase} (hi : EndsPhrases loader levels inner)
    (hq : q.type.height ≤ levels)
    (hc : c.rest =
      q.name.token :: (q.type.tokens ++ ((q.description.map Token.string).toList ++ rest)))
    (hr : EndsMember rest) :
    Outcome c (q.name.token :: (q.type.tokens ++ (q.description.map Token.string).toList))
      q.type.height (IsMember loader q) ((member inner).run c) := by
  have hc₁ := skip_rest hc
  have hends : EndsType ((q.description.map Token.string).toList ++ rest) := by
    cases q.description with
    | none => exact hr.endsType
    | some content =>
      rintro t ⟨rfl⟩
      rfl
  rw [member, run_bind_of_ok (run_name hc)]
  refine .of_skip hc (.of_height_eq (Nat.max_zero _) ?_)
  refine (hi q.type hc₁ hends hq).bind (fun m ⟨u, hu, _⟩ => ⟨u, hu⟩) fun u c₁ hu hp => ?_
  refine (string?_outcome (hp.rest_eq hc₁) hr).map (fun _ _ => ⟨_, rfl⟩) ?_
  rintro _ c₂ rfl _
  exact ⟨⟨u, hu, rfl⟩, .refl c₂⟩

theorem endsMember_membersTokens {close : Symbol} (hclose : (Token.symbol close).endsType) :
    ∀ qs, EndsMember (Phrase.membersTokens qs ++ .symbol close :: rest)
  | [] => endsMember_cons hclose
  | ⟨_, _, _⟩ :: _ => endsMember_cons rfl

theorem moreMembers_outcome {close : Symbol} (hclose : (Token.symbol close).endsType)
    (hne : close ≠ .comma) (hi : EndsPhrases loader levels inner) :
    ∀ (bound : List Token) (qs : List (MemberPhrase Phrase)) {before : List (Member DataType)}
      {c : Cursor}, (Phrase.membersTokens qs).length ≤ bound.length →
      Phrase.membersHeight qs ≤ levels →
      c.rest = Phrase.membersTokens qs ++ .symbol close :: rest →
      Outcome c (Phrase.membersTokens qs) (Phrase.membersHeight qs)
        (fun ms => ∃ us, Phrase.membersType? loader false qs = some us ∧ ms = before.reverse ++ us)
        ((moreMembers inner before bound).run c)
  | [], [], before, c, _, _, _ => ⟨⟨[], rfl, by simp⟩, .refl c⟩
  | _ :: bound, [], before, c, _, _, hc => by
    rw [moreMembers, run_bind_of_ok (run_accept_other hc (by simpa [Phrase.membersTokens]))]
    exact ⟨⟨[], rfl, by simp⟩, .refl c⟩
  | _ :: bound, ⟨n, p, d⟩ :: qs, before, c, hlen, hh, hc => by
    obtain ⟨hq, hqs⟩ := Nat.max_le.1 hh
    have hc₁ : c.skip.rest = n.token :: (p.tokens ++ ((d.map Token.string).toList ++
        (Phrase.membersTokens qs ++ .symbol close :: rest))) := by
      simpa using skip_rest hc
    have hlen : (Phrase.membersTokens qs).length ≤ bound.length := by
      simp only [Phrase.membersTokens, List.length_cons, List.length_append] at hlen
      omega
    rw [moreMembers, run_bind_of_ok (run_accept_self hc)]
    refine .of_skip hc ?_
    refine (member_outcome (q := ⟨n, p, d⟩) hi hq hc₁ (endsMember_membersTokens hclose qs)).bind
      (fun ms hms => ?_) fun m c₁ hm hp => ?_
    · obtain ⟨us, hus, -⟩ := hms
      obtain ⟨u, hu, -⟩ := Option.bind_eq_some_iff.1 hus
      exact ⟨_, u, hu, rfl⟩
    obtain ⟨u, hu, rfl⟩ := hm
    have hc₂ : c₁.rest = Phrase.membersTokens qs ++ .symbol close :: rest :=
      hp.rest_eq (by simpa using hc₁)
    refine (moreMembers_outcome hclose hne hi bound qs hlen hqs hc₂).mono fun ms => ?_
    simp [Phrase.membersType?, hu, Option.bind_eq_some_iff]

theorem fields_outcome {close : Symbol} (hclose : (Token.symbol close).endsType)
    (hne : close ≠ .comma) (hi : EndsPhrases loader levels inner)
    {qs : List (MemberPhrase Phrase)} (hqs : Phrase.membersHeight qs ≤ levels)
    (hc : c.rest = (Phrase.membersTokens qs).drop 1 ++ .symbol close :: rest) :
    Outcome c ((Phrase.membersTokens qs).drop 1) (Phrase.membersHeight qs)
      (Phrase.membersType? loader false qs = some ·) ((fields inner close).run c) := by
  rw [fields, run_bind_of_ok (run_peek c), hc]
  cases qs with
  | nil =>
    rw [if_pos (by simp [Phrase.membersTokens])]
    exact ⟨rfl, .refl c⟩
  | cons q qs =>
    obtain ⟨n, p, d⟩ := q
    obtain ⟨hq, hqs⟩ := Nat.max_le.1 hqs
    have hc₁ : c.rest = n.token :: (p.tokens ++ ((d.map Token.string).toList ++
        (Phrase.membersTokens qs ++ .symbol close :: rest))) := by
      simpa [Phrase.membersTokens] using hc
    rw [if_neg (by cases n <;> simp [Phrase.membersTokens, Name.token])]
    refine (member_outcome (q := ⟨n, p, d⟩) hi hq hc₁ (endsMember_membersTokens hclose qs)).bind
      (fun ms hms => ?_) fun m c₁ hm hp => ?_
    · obtain ⟨u, hu, -⟩ := Option.bind_eq_some_iff.1 hms
      exact ⟨_, u, hu, rfl⟩
    obtain ⟨u, hu, rfl⟩ := hm
    have hc₂ : c₁.rest = Phrase.membersTokens qs ++ .symbol close :: rest :=
      hp.rest_eq (by simpa using hc₁)
    refine (moreMembers_outcome hclose hne hi c₁.rest qs (by simp [hc₂]) hqs hc₂).mono fun ms => ?_
    simp [Phrase.membersType?, hu, Option.bind_eq_some_iff, @eq_comm _ ms]

theorem run_openRow {round : Bool}
    (hc : c.rest = .symbol (if round then .openParen else .openAngle) :: rest) :
    openRow.run c = .ok (if round then .closeParen else .closeAngle) c.skip := by
  rw [openRow]
  cases round with
  | false =>
    have hc : c.rest = .symbol .openAngle :: rest := hc
    rw [run_bind_of_ok (run_accept_self hc)]
    rfl
  | true =>
    have hc : c.rest = .symbol .openParen :: rest := hc
    rw [run_bind_of_ok (run_accept_other hc (by simp))]
    simp only [Bool.false_eq_true, if_false]
    rw [openRound, run_bind_of_ok (run_accept_self hc)]
    rfl

theorem row_outcome {round : Bool} {qs : List (MemberPhrase Phrase)}
    (hi : EndsPhrases loader levels inner) (hqs : Phrase.membersHeight qs ≤ levels)
    (hc : c.rest = .symbol (if round then .openParen else .openAngle) ::
      ((Phrase.membersTokens qs).drop 1 ++
        .symbol (if round then .closeParen else .closeAngle) :: rest)) :
    Outcome c (.symbol (if round then .openParen else .openAngle) ::
        ((Phrase.membersTokens qs).drop 1 ++
          [.symbol (if round then .closeParen else .closeAngle)]))
      (Phrase.membersHeight qs) (Phrase.baseType? loader false (.row round qs) = some ·)
      ((row inner start).run c) := by
  have hc₁ := skip_rest hc
  rw [row, run_bind_of_ok (run_openRow hc)]
  refine .of_skip hc (.of_height_eq (Nat.max_zero _) ?_)
  refine (fields_outcome (by cases round <;> rfl) (by cases round <;> simp) hi hqs hc₁).bind
    (fun _ ht => exists_of_bind_eq_some ht) fun ms c₁ hms hp => ?_
  have hc₂ := hp.rest_eq hc₁
  rw [run_bind_of_ok (run_expectSymbol hc₂)]
  refine .of_skip hc₂ ((make_outcome _ _).mono fun t => ?_)
  simp [Phrase.baseType?, hms]

theorem structured_outcome {className : String} {qs : List (MemberPhrase Phrase)}
    (hi : EndsPhrases loader levels inner) (hqs : Phrase.membersHeight qs ≤ levels)
    (hc : c.rest = .symbol .openAngle :: .string className ::
      (Phrase.membersTokens qs ++ .symbol .closeAngle :: rest)) :
    Outcome c (.symbol .openAngle :: .string className ::
        (Phrase.membersTokens qs ++ [.symbol .closeAngle]))
      (Phrase.membersHeight qs) (Phrase.baseType? loader false (.structured className qs) = some ·)
      ((structured inner start).run c) := by
  have hc₁ := skip_rest hc
  have hc₂ := skip_rest hc₁
  rw [structured, run_bind_of_ok (run_expectSymbol hc), run_bind_of_ok (run_string hc₁)]
  refine .of_skip hc (.of_skip hc₁ (.of_height_eq (Nat.max_zero _) ?_))
  refine (moreMembers_outcome rfl (by simp) hi c.skip.skip.rest qs (by simp [hc₂]) hqs hc₂).bind
    (fun t ht => ?_) fun ms c₁ hms hp => ?_
  · obtain ⟨ms, hms, -⟩ := Option.bind_eq_some_iff.1 ht
    exact ⟨ms, ms, hms, rfl⟩
  obtain ⟨us, hus, rfl⟩ := hms
  have hc₃ := hp.rest_eq hc₂
  rw [run_bind_of_ok (run_expectSymbol hc₃)]
  refine .of_skip hc₃ ((make_outcome _ _).mono fun t => ?_)
  simp [Phrase.baseType?, hus]

theorem run_base_keyword {k : Keyword} (hc : c.rest = .keyword k :: rest) :
    (base loader inner).run c = (afterKeyword loader inner c.passed k).run c.skip := by
  have ht := head?_of_rest hc
  rw [base, run_bind_of_ok (run_peek c), ht]
  dsimp only
  rw [run_bind_of_ok (run_here c), run_bind_of_ok (run_advance ht)]

theorem run_base_name {n : Name} (hc : c.rest = n.token :: rest) :
    (base loader inner).run c = unresolved.run c := by
  rw [base, run_bind_of_ok (run_peek c), head?_of_rest hc]
  cases n <;> rfl

/-- A base begins with a keyword or a name, or there is none. -/
theorem run_base_cases (c : Cursor) :
    (∃ k, c.rest.head? = some (.keyword k) ∧ ∀ loader inner,
      (base loader inner).run c = (afterKeyword loader inner c.passed k).run c.skip) ∨
    (∃ n : Name, c.rest.head? = some n.token ∧ ∀ loader inner,
      (base loader inner).run c = unresolved.run c) ∨
    ∀ loader inner, (base loader inner).run c = (refuse (.tokenExpected .keyword)).run c := by
  rcases hc : c.rest with _ | ⟨t, rest⟩
  · refine .inr (.inr fun loader inner => ?_)
    rw [base, run_bind_of_ok (run_peek c), hc]
    rfl
  cases t with
  | keyword k => exact .inl ⟨k, rfl, fun _ _ => run_base_keyword hc⟩
  | word name => exact .inr (.inl ⟨.word name, rfl, fun _ _ => run_base_name (n := .word name) hc⟩)
  | quoted name =>
    exact .inr (.inl ⟨.quoted name, rfl, fun _ _ => run_base_name (n := .quoted name) hc⟩)
  | _ =>
    refine .inr (.inr fun loader inner => ?_)
    rw [base, run_bind_of_ok (run_peek c), hc]
    rfl

theorem keyword_outcome {k : Keyword} {ts : List Token} {h : Nat} {P : DataType → Prop}
    (hc : c.rest = .keyword k :: rest)
    (ho : Outcome c.skip ts h P ((afterKeyword loader inner c.passed k).run c.skip)) :
    Outcome c (.keyword k :: ts) h P ((base loader inner).run c) := by
  rw [run_base_keyword hc]
  exact .of_skip hc ho

theorem plain_outcome {p : Plain} (hc : c.rest = .keyword p.keyword :: rest)
    (hr : EndsBase rest) :
    Outcome c [.keyword p.keyword] 0 ((AtomPhrase.plain p).meaning? loader = some ·)
      ((base loader inner).run c) := by
  refine keyword_outcome hc ?_
  cases p with
  | double =>
    rw [Plain.keyword, afterKeyword, acceptKeyword,
      run_bind_of_ok (run_accept_other (skip_rest hc) (hr.head?_ne rfl))]
    exact make_outcome _ _
  | boolean | tinyint | smallint | int | bigint | float | date | null | descriptor =>
    exact make_outcome _ _

theorem name_outcome {n : Name} (names : List Name) (hlen : names.length < maxSegments)
    (hc : c.rest = n.token :: (dotted names ++ rest)) (hr : EndsBase rest) :
    Outcome c (n.token :: dotted names) 0 (unresolved? (n :: names) = some ·)
      ((base loader inner).run c) := by
  rw [run_base_name hc]
  exact unresolved_outcome hlen hc hr

theorem atom_outcome {a : AtomPhrase} (hc : c.rest = a.tokens ++ rest) (hr : EndsBase rest) :
    Outcome c a.tokens 0 (a.meaning? loader = some ·) ((base loader inner).run c) := by
  cases a with
  | plain p => exact plain_outcome hc hr
  | integer | string | bytes => exact keyword_outcome hc (make_outcome _ _)
  | doublePrecision =>
    have hc₁ := skip_rest hc
    refine keyword_outcome hc ?_
    rw [afterKeyword, acceptKeyword, run_bind_of_ok (run_accept_self hc₁)]
    exact .of_skip hc₁ (make_outcome _ _)
  | sized s d =>
    cases s <;> exact keyword_outcome hc (sized_outcome loader (skip_rest hc) hr)
  | decimal w =>
    cases w <;> exact keyword_outcome hc (decimal_outcome loader _ (skip_rest hc) hr)
  | decimalOf w p d =>
    cases w <;> exact keyword_outcome hc (decimalOf_outcome loader rfl (skip_rest hc))
  | time d b => exact keyword_outcome hc (time_outcome loader (skip_rest hc) hr)
  | timestamp d z => exact keyword_outcome hc (timestamp_outcome loader (skip_rest hc) hr)
  | localZonedTimestamp d =>
    exact keyword_outcome hc (localZonedTimestamp_outcome loader (skip_rest hc) hr)
  | years d b => exact keyword_outcome hc (interval_years_outcome loader (skip_rest hc) hr)
  | months => exact keyword_outcome hc (interval_months_outcome loader (skip_rest hc) hr)
  | dayTime r d f => exact keyword_outcome hc (interval_dayTime_outcome loader (skip_rest hc) hr)
  | raw s p => exact keyword_outcome hc (raw_outcome loader (skip_rest hc))
  | legacy f p => exact keyword_outcome hc (legacy_outcome loader (skip_rest hc))
  | name a => exact name_outcome [] (by simp [maxSegments]) hc hr
  | nameIn b a => exact name_outcome [a] (by simp [maxSegments]) hc hr
  | nameInIn d b a => exact name_outcome [b, a] (by simp [maxSegments]) hc hr

theorem base_outcome {b : BasePhrase Phrase} (hi : EndsPhrases loader levels inner)
    (hc : c.rest = Phrase.baseTokens b ++ rest) (hr : EndsBase rest)
    (hb : Phrase.baseHeight b ≤ levels) :
    Outcome c (Phrase.baseTokens b) (Phrase.baseHeight b)
      (Phrase.baseType? loader false b = some ·) ((base loader inner).run c) := by
  cases b with
  | atom a => exact atom_outcome hc hr
  | collection k e =>
    have hc₁ : c.skip.rest = .symbol .openAngle :: (e.tokens ++ .symbol .closeAngle :: rest) := by
      simpa using skip_rest hc
    cases k <;> exact keyword_outcome hc (collection_outcome hi hb hc₁)
  | map k v =>
    obtain ⟨hk, hv⟩ := Nat.max_le.1 hb
    exact keyword_outcome hc (map_outcome hi hk hv (by simpa using skip_rest hc))
  | row round qs =>
    exact keyword_outcome hc (row_outcome hi hb (by simpa using skip_rest hc))
  | structured className qs =>
    exact keyword_outcome hc (structured_outcome hi hb (by simpa using skip_rest hc))

theorem typeExpression_outcome (loader : Loader) (limit : Nat) :
    ∀ levels, EndsPhrases loader levels (typeExpression loader limit levels)
  | 0, _, _, p, _, _, hp => absurd p.height_pos (Nat.not_lt.2 hp)
  | levels + 1, c, rest, ⟨b, n, ws⟩, hc, hr, hp => by
    obtain ⟨hb, hws⟩ := Nat.max_le.1 (Nat.le_of_succ_le_succ hp)
    have hc₁ : c.started.entered.rest =
        Phrase.baseTokens b ++ (n.tokens ++ (wrapperTokens ws ++ rest)) := by
      rw [← List.append_assoc, ← List.append_assoc]
      exact hc
    rw [typeExpression_succ, run_bind_of_ok (run_begin c), Phrase.tokens, List.append_assoc]
    refine .of_started (nested_outcome ?_)
    refine (base_outcome (typeExpression_outcome loader limit levels) hc₁ (hr.nullability n ws)
      hb).bind (fun _ ht => exists_of_bind_eq_some ht)
      fun t₁ c₁ ht₁ hp₁ => .of_height_eq (Nat.zero_max _) ?_
    have hc₂ := hp₁.rest_eq hc₁
    refine (nullability_outcome hc₂ (hr.head?_wrapperTokens_ne rfl rfl ws)
      (hr.head?_wrapperTokens_ne rfl rfl ws)).bind (fun t ht => ?_) fun t₂ c₂ ht₂ hp₂ => ?_
    · simp only [Phrase.type?, ht₁, Option.bind_eq_bind, Option.bind_some] at ht
      exact exists_of_bind_eq_some ht
    refine (wrapped_outcome levels ws hws (hp₂.rest_eq hc₂) hr).mono fun t => ?_
    simp [Phrase.type?, ht₁, ht₂]

end Reading

end SqlTypes
