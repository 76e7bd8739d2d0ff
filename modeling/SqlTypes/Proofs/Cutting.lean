import SqlTypes.Proofs.Levels

/-!
# Limits only cut

Under a limit on the nesting, a description is read as under any greater one, up to the point where
more types would be open than the limit allows. There the reading ends, and says so
(`Reading.description_cuts`). So a limit changes nothing that does not reach it, and where it does,
one more type has been open than it allows.

Every type that is open has begun with a token of its own, so a limit of as many levels as there are
tokens is never reached (`Reading.description_shallow`).
-/

namespace SqlTypes

open Grammar

namespace Cursor

variable {c : Cursor} {limit d : Nat}

/-- `d` types are open, and there have never been more than the limit allows. -/
structure AtDepth (limit d : Nat) (c : Cursor) : Prop where
  depth : c.depth = d
  le_deepest : d ≤ c.deepest
  deepest_le : c.deepest ≤ limit

/-- More types have been open than the limit allows. -/
def Beyond (limit : Nat) (c : Cursor) : Prop :=
  limit < c.deepest

theorem Beyond.entered (h : c.Beyond limit) : c.entered.Beyond limit :=
  Nat.lt_of_lt_of_le h (Nat.le_max_left c.deepest (c.depth + 1))

theorem AtDepth.entered (h : c.AtDepth limit d) (hd : d < limit) :
    c.entered.AtDepth limit (d + 1) := by
  obtain ⟨h₁, h₂, h₃⟩ := h
  refine ⟨?_, ?_, ?_⟩ <;> simp only [entered_depth, entered_deepest] <;> omega

theorem AtDepth.left (h : c.AtDepth limit (d + 1)) : c.left.AtDepth limit d := by
  obtain ⟨h₁, h₂, h₃⟩ := h
  refine ⟨?_, ?_, h₃⟩ <;> simp only [Cursor.left] <;> omega

/-- One type more than the limit allows. -/
theorem AtDepth.deepest_entered (h : c.AtDepth limit limit) :
    c.entered.deepest = limit + 1 := by
  obtain ⟨h₁, h₂, h₃⟩ := h
  rw [entered_deepest]
  omega

end Cursor

open Cursor (AtDepth Beyond)

namespace Reading

variable {α β γ δ : Type} {V : α → β → Prop} {W : γ → δ → Prop} {limit d d₁ d₂ d₃ : Nat}
  {x : Reading α} {y : Reading β} {f : α → Reading γ} {g : β → Reading δ}
  {inner inner' : Reading DataType} {loader : Loader} {c c' : Cursor}

/-- Once more types have been open than the limit allows, there is no way back. -/
abbrev StaysBeyond (limit : Nat) (x : Reading α) : Prop :=
  Leads (Beyond limit) x (fun _ => Beyond limit) fun _ => Beyond limit

theorem leads_of_alike (hi : StaysBeyond limit inner) (h : Alike Eq Eq inner inner' V x y) :
    Leads (Beyond limit) x (fun a c => Beyond limit c ∧ ∃ b, V a b) fun _ => Beyond limit :=
  h.leads (fun _ _ hc _ => hc) (fun c _ => ⟨c.passed, rfl⟩) (fun _ _ _ hc _ => hc) hi

theorem staysBeyond_of_alike {V : α → α → Prop} (hi : StaysBeyond limit inner)
    (h : Alike Eq Eq inner inner V x x) : StaysBeyond limit x :=
  (leads_of_alike hi h).mono fun _ _ hQ => hQ.1

theorem nothing_staysBeyond : StaysBeyond limit nothing :=
  fun _ hc => hc

theorem nullability_staysBeyond (t : DataType) : StaysBeyond limit (nullability t) :=
  staysBeyond_of_alike nothing_staysBeyond (.nullability t)

theorem base_alike (loader : Loader) (inner inner' : Reading DataType) :
    Alike Eq Eq inner inner' Eq (base loader inner) (base loader inner') :=
  .base (fun _ _ _ _ => rfl) fun _ _ _ _ _ h => by rw [h]

theorem kept_beyond (loader : Loader) (limit : Nat) :
    Kept loader (Beyond limit) fun _ => Beyond limit where
  skip _ _ hc _ := hc
  started _ hc := hc
  entered _ hc := hc.entered
  left _ hc := hc
  tooDeep _ _ _ _ hc := hc.entered
  base _ hi := staysBeyond_of_alike hi (base_alike loader _ _)
  nullability := nullability_staysBeyond

theorem wrapped_staysBeyond (limit' levels : Nat) (t : DataType) :
    StaysBeyond limit (wrapped limit' levels t) :=
  (kept_beyond .refusing limit).wrapped limit' levels t

/-- How the runs of two readings end, of which the second is under a limit: in the same way, or the
second one where the first has gone beyond the limit. -/
inductive Cut (limit d : Nat) (V : α → β → Prop) :
    EStateM.Result Fault Cursor α → EStateM.Result Fault Cursor β → Prop
  | ok {a : α} {b : β} {c : Cursor} : V a b → c.AtDepth limit d → Cut limit d V (.ok a c) (.ok b c)
  | error {e : Fault} {c : Cursor} : c.deepest ≤ limit → Cut limit d V (.error e c) (.error e c)
  | okBeyond {a : α} {b : β} {c c' : Cursor} {n : Nat} : V a b → c.Beyond limit →
      c'.deepest = limit + 1 →
      Cut limit d V (.ok a c) (.error (.problem (.token n) (.nestingTooDeep limit)) c')
  | errorBeyond {e : Fault} {c c' : Cursor} {n : Nat} : c.Beyond limit → c'.deepest = limit + 1 →
      Cut limit d V (.error e c) (.error (.problem (.token n) (.nestingTooDeep limit)) c')

/-- Where `d₁` types are open, `y` does what `x` does, unless that goes beyond the limit. If there
is an end to it, `d₂` types are open then. -/
def Cuts (limit d₁ d₂ : Nat) (V : α → β → Prop) (x : Reading α) (y : Reading β) : Prop :=
  ∀ ⦃c⦄, c.AtDepth limit d₁ → Cut limit d₂ V (x.run c) (y.run c)

theorem Cuts.pure {a : α} {b : β} (h : V a b) : Cuts limit d d V (pure a) (pure b) :=
  fun _ hc => .ok h hc

theorem Cuts.bind (hx : Cuts limit d₁ d₂ V x y)
    (hf : ∀ a b, V a b → Cuts limit d₂ d₃ W (f a) (g b))
    (hbeyond : ∀ a b, V a b →
      Leads (Beyond limit) (f a) (fun a c => Beyond limit c ∧ ∃ b, W a b) fun _ => Beyond limit) :
    Cuts limit d₁ d₃ W (x >>= f) (y >>= g) := by
  intro c hc
  have hx := hx hc
  rw [EStateM.run_bind, EStateM.run_bind]
  rcases hr : x.run c with ⟨a, c₁⟩ | ⟨e, c₁⟩ <;> rcases hr' : y.run c with ⟨b, c₂⟩ | ⟨e', c₂⟩ <;>
    rw [hr, hr'] at hx
  · cases hx with
    | ok hV hc₁ => exact hf a b hV hc₁
  · cases hx with
    | okBeyond hV hc₁ hc₂ =>
      -- `y` has stopped already; what is left of `x` only has to end beyond the limit
      have hend := hbeyond a _ hV hc₁
      dsimp only
      rcases hr'' : (f a).run c₁ with ⟨u, c₃⟩ | ⟨e, c₃⟩ <;> rw [hr''] at hend
      · obtain ⟨hc₃, w, hW⟩ := hend
        exact .okBeyond hW hc₃ hc₂
      · exact .errorBeyond hend hc₂
  · cases hx
  · cases hx with
    | error hc₁ => exact .error hc₁
    | errorBeyond hc₁ hc₂ => exact .errorBeyond hc₁ hc₂

theorem cuts_of_alike (h : Alike Eq Eq inner inner' V x y) (hi : Cuts limit d d Eq inner inner')
    (hbeyond : StaysBeyond limit inner) : Cuts limit d d V x y := by
  induction h with
  | pure hV => exact .pure hV
  | bind _ hf ihx ihf => exact ihx.bind ihf fun a b hV => leads_of_alike hbeyond (hf a b hV)
  | peek => exact fun c hc => .ok rfl hc
  | here => exact fun c hc => .ok rfl hc
  | advance =>
    intro c hc
    rcases advance_cases c with ⟨t, -, hrun⟩ | hrun <;> rw [hrun]
    · exact .ok rfl ⟨hc.depth, hc.le_deepest, hc.deepest_le⟩
    · exact .ok rfl hc
  | rest _ ih => exact fun c hc => ih c.rest hc
  | fault h =>
    intro c hc
    cases h with
    | token h => subst h; exact .error hc.deepest_le
    | endOfInput => exact .error hc.deepest_le
  | outside h =>
    subst h
    exact fun c hc => .error hc.deepest_le
  | inner => exact hi

/-! ## Levels -/

theorem Cuts.bindEq {x y : Reading α} {f : α → Reading γ} {g : α → Reading γ}
    (hx : Cuts limit d₁ d₂ Eq x y) (hf : ∀ a, Cuts limit d₂ d₃ Eq (f a) (g a))
    (hbeyond : ∀ a, StaysBeyond limit (f a)) : Cuts limit d₁ d₃ Eq (x >>= f) (y >>= g) :=
  hx.bind (fun a _ h => h ▸ hf a) fun a _ _ => (hbeyond a).mono fun u _ hc => ⟨hc, u, rfl⟩

theorem nested_cuts {x y : Reading α} (hd : d < limit) (hx : Cuts limit (d + 1) (d + 1) Eq x y)
    (hbeyond : StaysBeyond limit x) : Cuts limit d d Eq (nested x) (nested y) := by
  have henter : Cuts limit d (d + 1) Eq enter enter := fun _ hc => .ok rfl (hc.entered hd)
  have hleave : Cuts limit (d + 1) d Eq leave leave := fun _ hc => .ok rfl hc.left
  have hend : ∀ a : α, StaysBeyond limit (do leave; return a) := fun _ _ hc => hc
  exact henter.bindEq
    (fun _ => hx.bindEq (fun _ => hleave.bindEq (fun _ => .pure rfl) fun _ _ hc => hc) hend)
    fun _ => hbeyond.bind hend

/-- At the limit, to open one more type is too much. -/
theorem enter_cuts {f : Unit → Reading DataType} (n : Nat) (hf : StaysBeyond limit (f ())) :
    Cuts limit limit d Eq (enter >>= f) (tooDeep limit n) := by
  intro c hc
  have hbeyond : c.entered.Beyond limit := by
    rw [Beyond, hc.deepest_entered]
    exact Nat.lt_succ_self limit
  have hend := hf hbeyond
  rw [run_bind_of_ok (run_enter c), tooDeep, run_bind_of_ok (run_enter c)]
  rcases hr : (f ()).run c.entered with ⟨t, c₁⟩ | ⟨e, c₁⟩ <;> rw [hr] at hend
  · exact .okBeyond rfl hend hc.deepest_entered
  · exact .errorBeyond hend hc.deepest_entered

theorem tooDeep_cuts (limit' n : Nat) :
    Cuts limit limit d Eq (tooDeep limit' n) (tooDeep limit n) :=
  enter_cuts n fun _ hc => hc

theorem nested_cuts_tooDeep {x : Reading DataType} (hx : StaysBeyond limit x) (n : Nat) :
    Cuts limit limit d Eq (nested x) (tooDeep limit n) :=
  enter_cuts n (hx.bind fun _ _ hc => hc)

theorem nullability_cuts (t : DataType) : Cuts limit d d Eq (nullability t) (nullability t) :=
  cuts_of_alike (.nullability t) (fun _ hc => .error hc.deepest_le) nothing_staysBeyond

theorem wrapped_cuts (limit' : Nat) : ∀ {levels levels' d : Nat} (t : DataType), levels ≤ levels' →
    limit = d + levels → Cuts limit d d Eq (wrapped limit' levels' t) (wrapped limit levels t) := by
  intro levels levels' d u hle hd c hc
  rcases run_wrapper?_cases c with ⟨k, t, -, hw⟩ | hw
  · have hskip : c.skip.AtDepth limit d := ⟨hc.depth, hc.le_deepest, hc.deepest_le⟩
    rcases levels with _ | levels
    · -- no level is left under the limit, whether the greater limit has one or not
      obtain rfl : limit = d := hd
      rcases levels' with _ | levels'
      · rw [wrapped, wrapped, run_bind_of_ok hw, run_bind_of_ok hw]
        exact tooDeep_cuts limit' c.passed hskip
      · rw [wrapped_succ, wrapped, run_bind_of_ok hw, run_bind_of_ok hw]
        exact nested_cuts_tooDeep
          ((nullability_staysBeyond _).bind (wrapped_staysBeyond limit' levels')) c.passed hskip
    · obtain ⟨levels', rfl⟩ : ∃ n, levels' = n + 1 := ⟨levels' - 1, by omega⟩
      rw [wrapped_succ, wrapped_succ, run_bind_of_ok hw, run_bind_of_ok hw]
      have hmark : Cuts limit (d + 1) (d + 1) Eq _ _ :=
        nullability_cuts { shape := .collection k u }
      have hd : limit = d + 1 + levels := by omega
      have hwrap := fun t => wrapped_cuts limit' t (Nat.le_of_succ_le_succ hle) hd
      exact nested_cuts (by omega) (hmark.bindEq hwrap (wrapped_staysBeyond limit' levels'))
        ((nullability_staysBeyond _).bind (wrapped_staysBeyond limit' levels')) hskip
  · cases levels <;> cases levels' <;>
    · rw [wrapped, wrapped, run_bind_of_ok hw, run_bind_of_ok hw]
      exact .ok rfl hc

/-- What a type expression is, once it is begun. -/
theorem expression_cuts (loader : Loader) {levels levels' : Nat} (limit' : Nat)
    (hi : Cuts limit d d Eq inner inner') (hbeyond : StaysBeyond limit inner)
    (hle : levels ≤ levels') (hd : limit = d + levels) :
    Cuts limit d d Eq
      (do
        let t ← base loader inner
        let t ← nullability t
        wrapped limit' levels' t)
      (do
        let t ← base loader inner'
        let t ← nullability t
        wrapped limit levels t) := by
  have hbase : Cuts limit d d Eq (base loader inner) (base loader inner') :=
    cuts_of_alike (base_alike loader inner inner') hi hbeyond
  refine hbase.bindEq (fun t => ?_) fun t =>
    (nullability_staysBeyond t).bind (wrapped_staysBeyond limit' levels')
  exact (nullability_cuts t).bindEq (fun t => wrapped_cuts limit' t hle hd)
    (wrapped_staysBeyond limit' levels')

theorem typeExpression_cuts (loader : Loader) (limit limit' : Nat) :
    ∀ {levels levels' d : Nat}, levels ≤ levels' → limit = d + levels →
      Cuts limit d d Eq (typeExpression loader limit' levels') (typeExpression loader limit levels)
  | 0, levels', d, _, hd => by
    obtain rfl : limit = d := hd
    intro c hc
    have hc₁ : c.started.AtDepth limit limit := ⟨hc.depth, hc.le_deepest, hc.deepest_le⟩
    rcases levels' with _ | levels'
    · exact tooDeep_cuts limit' c.passed hc₁
    · have hbeyond : StaysBeyond limit (typeExpression loader limit' levels') :=
        (kept_beyond loader limit).typeExpression limit' levels'
      rw [typeExpression_succ]
      have hbeyond := (kept_beyond loader limit).expression hbeyond limit' levels'
      exact nested_cuts_tooDeep hbeyond c.passed hc₁
  | levels + 1, levels' + 1, d, hle, hd => by
    have hbeyond : StaysBeyond limit (typeExpression loader limit' levels') :=
      (kept_beyond loader limit).typeExpression limit' levels'
    have hle : levels ≤ levels' := Nat.le_of_succ_le_succ hle
    have hd : limit = d + 1 + levels := by omega
    have hi := typeExpression_cuts loader limit limit' hle hd
    have hcuts := expression_cuts loader limit' hi hbeyond hle hd
    have hbeyond := (kept_beyond loader limit).expression hbeyond limit' levels'
    intro c hc
    have hc₁ : c.started.AtDepth limit d := ⟨hc.depth, hc.le_deepest, hc.deepest_le⟩
    rw [typeExpression_succ, typeExpression_succ]
    exact nested_cuts (by omega) hcuts hbeyond hc₁

/-- A description is read under a limit as under a greater one, unless more types would be open than
the limit allows. -/
theorem description_cuts (loader : Loader) {limit limit' : Nat} (hle : limit ≤ limit') :
    Cuts limit 0 0 Eq (description loader limit') (description loader limit) := by
  have halike : ∀ t : DataType, Alike Eq Eq nothing nothing Eq (ending t) (ending t) :=
    .ending fun _ _ _ h => by rw [h]
  have hend : ∀ t : DataType, Cuts limit 0 0 Eq (ending t) (ending t) :=
    fun t => cuts_of_alike (halike t) (fun c hc => .error hc.deepest_le) nothing_staysBeyond
  have hbeyond : ∀ t : DataType, StaysBeyond limit (ending t) :=
    fun t => staysBeyond_of_alike nothing_staysBeyond (halike t)
  intro c hc
  rw [run_description, run_description, hc.depth]
  have h := typeExpression_cuts loader limit limit' hle (Nat.zero_add limit).symm
  exact h.bindEq hend hbeyond hc

theorem Cut.cases {r r' : EStateM.Result Fault Cursor α} (h : Cut limit d Eq r r') :
    (finish r).deepest ≤ limit ∧ r' = r ∨
      limit < (finish r).deepest ∧ ∃ n c,
        r' = .error (.problem (.token n) (.nestingTooDeep limit)) c ∧ c.deepest = limit + 1 := by
  cases h with
  | ok hV hc => exact .inl ⟨hc.deepest_le, by rw [hV]⟩
  | error hc => exact .inl ⟨hc, rfl⟩
  | okBeyond _ hc hc' | errorBeyond hc hc' => exact .inr ⟨hc, _, _, rfl, hc'⟩

/-- Any limit against one that is never reached. -/
theorem runOn_limits (loader : Loader) {ts : List Token} (limit : Nat) {large : Nat}
    (hlarge : max 1 ts.length ≤ large) :
    (finish (runOn loader large ts)).deepest ≤ limit ∧
        runOn loader limit ts = runOn loader large ts ∨
      limit < (finish (runOn loader large ts)).deepest ∧ ∃ n c,
        runOn loader limit ts = .error (.problem (.token n) (.nestingTooDeep limit)) c ∧
          c.deepest = limit + 1 := by
  have hstart : ∀ limit, AtDepth limit 0 { rest := ts } :=
    fun limit => ⟨rfl, Nat.le_refl 0, Nat.zero_le limit⟩
  have hinside : Cursor.Inside ts 0 0 { rest := ts } :=
    ⟨⟨rfl, Nat.zero_le _⟩, rfl, Nat.le_refl 0⟩
  rcases Nat.le_total limit large with hle | hle
  · exact (description_cuts loader hle (hstart limit)).cases
  · rcases (description_cuts loader hle (hstart large)).cases
      with ⟨hdeep, hrun⟩ | ⟨-, n, c, hrun, -⟩
    · have hrun : runOn loader large ts = runOn loader limit ts := hrun
      rw [hrun]
      exact .inl ⟨hdeep.trans hle, rfl⟩
    · have hshallow := (description_shallow loader hlarge).error hinside hrun
      cases hshallow

end Reading

theorem Parser.kind_failure_ne (p : Parser) {e : Fault} (he : e.isTooDeep = false) :
    (p.failure e).kind ≠ .nestingTooDeep := by
  cases e with
  | rawRestore => nofun
  | problem place q =>
    cases q with
    | nestingTooDeep => cases he
    | _ => nofun

/-- Let a limit on the nesting be as great as the number of tokens, and one at least, as it is if
the end counts as a token. It is never reached. Any other limit on the nesting gives the same answer
as this, after as many tokens, unless the nesting is deeper, and then a failure that names the
limit, where one more type has been open than it allows. A limit on the length changes nothing at
all if the text is no longer. -/
theorem parse_limits (loader : Loader) (input : String) (large : Limits)
    (hlarge : max 1 (tokensOf input).length ≤ large.maxNestingDepth) :
    let full := (Parser.start ⟨large, loader⟩ input).parse
    (∀ f, full.1 = .error f → f.kind ≠ .nestingTooDeep) ∧
    (∀ small : Limits,
      let cut := (Parser.start ⟨small, loader⟩ input).parse
      (full.2.maxDepth ≤ small.maxNestingDepth →
        cut.1 = full.1 ∧ cut.2.maxDepth = full.2.maxDepth ∧
          cut.2.tokensConsumed = full.2.tokensConsumed) ∧
      (small.maxNestingDepth < full.2.maxDepth →
        (∃ offset, cut.1 = .error (.parse offset .nestingTooDeep
          (Problem.nestingTooDeep small.maxNestingDepth).detail input none)) ∧
        cut.2.maxDepth = small.maxNestingDepth + 1)) ∧
    ∀ small small' : Limits, small.maxNestingDepth = small'.maxNestingDepth →
      input.utf8ByteSize ≤ small.maxInputLength → input.utf8ByteSize ≤ small'.maxInputLength →
        parse ⟨small, loader⟩ input = parse ⟨small', loader⟩ input := by
  intro full
  have hfull : full = _ := Parser.parse_start loader large input
  have hinside : Cursor.Inside (tokensOf input) 0 0 { rest := tokensOf input } :=
    ⟨⟨rfl, Nat.zero_le _⟩, rfl, Nat.le_refl 0⟩
  refine ⟨fun f hf => ?_, ?_, fun small small' hdepth hlen hlen' => ?_⟩
  · rw [hfull] at hf
    rcases hr : Reading.runOn loader large.maxNestingDepth (tokensOf input) with ⟨t, c⟩ | ⟨e, c⟩ <;>
      rw [hr] at hf <;> cases hf
    exact Parser.kind_failure_ne _ ((Reading.description_shallow loader hlarge).error hinside hr)
  · intro small cut
    have hcut : cut = _ := Parser.parse_start loader small input
    have hmax : full.2.maxDepth = (Reading.finish (Reading.runOn loader large.maxNestingDepth
        (tokensOf input))).deepest := by
      rw [hfull, Parser.maxDepth, Parser.cursor_after]
    rw [hmax]
    rcases Reading.runOn_limits loader small.maxNestingDepth hlarge with
      ⟨hdeep, hrun⟩ | ⟨hbeyond, n, c, hrun, hc⟩
    · refine ⟨fun _ => ?_, fun hlt => absurd hdeep (Nat.not_le.2 hlt)⟩
      rw [hfull, hcut, hrun, Parser.maxDepth, Parser.tokensConsumed, Parser.tokensConsumed,
        Parser.cursor_after, Parser.cursor_after]
      exact ⟨Parser.fst_after _ _ _ _, rfl, rfl⟩
    · refine ⟨fun hle => absurd hbeyond (Nat.not_lt.2 hle), fun _ => ?_⟩
      rw [hcut, hrun]
      exact ⟨⟨_, rfl⟩, hc⟩
  · rw [parse_eq hlen, parse_eq hlen', Parser.parse_start, Parser.parse_start, hdepth]
    exact Parser.fst_after _ _ _ _

/-- Two levels are cut at one. -/
theorem parse_limits_arrayOfInt :
    max 1 (tokensOf "ARRAY<INT>").length ≤ 4 ∧
    (Parser.start ⟨{ maxNestingDepth := 4 }, .refusing⟩ "ARRAY<INT>").parse.2.maxDepth = 2 ∧
    (∃ offset, (Parser.start ⟨{ maxNestingDepth := 1 }, .refusing⟩ "ARRAY<INT>").parse.1 =
      .error (.parse offset .nestingTooDeep "Type nesting exceeds the maximum depth of 1."
        "ARRAY<INT>" none)) ∧
    (Parser.start ⟨{ maxNestingDepth := 1 }, .refusing⟩ "ARRAY<INT>").parse.2.maxDepth = 2 := by
  have hlarge : max 1 (tokensOf "ARRAY<INT>").length ≤ 4 := by decide +kernel
  have hdepth : (Parser.start ⟨{ maxNestingDepth := 4 }, .refusing⟩
    "ARRAY<INT>").parse.2.maxDepth = 2 := by decide +kernel
  have h := (parse_limits .refusing "ARRAY<INT>" { maxNestingDepth := 4 } hlarge).2.1
    { maxNestingDepth := 1 }
  have hlt : 1 < (Parser.start ⟨{ maxNestingDepth := 4 }, .refusing⟩
    "ARRAY<INT>").parse.2.maxDepth := hdepth ▸ Nat.lt_succ_self 1
  exact ⟨hlarge, hdepth, h.2 hlt⟩

end SqlTypes
