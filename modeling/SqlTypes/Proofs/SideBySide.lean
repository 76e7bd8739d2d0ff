import SqlTypes.Proofs.Composition

/-!
# Two runs side by side

Where two cursors stand in front of the same tokens and in as many open types, two runs do the same:
they pass the same tokens and give the same values, or stop at the same one with the same fault.
`Reading.InStep` says what else the cursors may have in common, and how the numbers of their tokens
correspond. What a pair of runs preserves when a token is passed, a type is opened or completed, and
where a base is read, it preserves over whole descriptions (`Reading.InStep.description`).
-/

namespace SqlTypes

/-- The same fault at corresponding places. -/
inductive Fault.Same (N : Nat → Nat → Prop) : Fault → Fault → Prop
  | token {m n : Nat} {p : Problem} : N m n →
      Same N (.problem (.token m) p) (.problem (.token n) p)
  | endOfInput {p : Problem} : Same N (.problem .endOfInput p) (.problem .endOfInput p)
  | rawRestore {className snapshot : String} {e : LoadError} :
      Same N (.rawRestore className snapshot e) (.rawRestore className snapshot e)

variable {N : Nat → Nat → Prop}

theorem Fault.Same.of_alike {e e' : Fault} (h : Fault.Alike N e e') : Fault.Same N e e' := by
  cases h with
  | token h => exact .token h
  | endOfInput => exact .endOfInput

/-- Where tokens correspond to themselves, faults do. -/
theorem Fault.Same.eq {e e' : Fault} (h : Fault.Same Eq e e') : e = e' := by
  cases h with
  | token h => rw [h]
  | endOfInput | rawRestore => rfl

namespace Reading

variable {K : Cursor → Cursor → Prop} {α β γ δ : Type} {V : α → β → Prop} {W : γ → δ → Prop}
  {x : Reading α} {y : Reading β} {f : α → Reading γ} {g : β → Reading δ}
  {inner inner' : Reading DataType} {loader loader' : Loader}

variable (N K) in
/-- Both runs end with values as in `V`, or both in the same fault, at cursors as in `K`. -/
inductive Matched (V : α → β → Prop) :
    EStateM.Result Fault Cursor α → EStateM.Result Fault Cursor β → Prop
  | ok {a : α} {b : β} {c c' : Cursor} : V a b → K c c' → Matched V (.ok a c) (.ok b c')
  | error {e e' : Fault} {c c' : Cursor} : Fault.Same N e e' → K c c' →
      Matched V (.error e c) (.error e' c')

variable (N K) in
/-- From cursors as in `K`, the runs of `x` and `y` end alike. -/
def Matches (V : α → β → Prop) (x : Reading α) (y : Reading β) : Prop :=
  ∀ ⦃c c'⦄, K c c' → Matched N K V (x.run c) (y.run c')

theorem Matches.pure {a : α} {b : β} (h : V a b) : Matches N K V (pure a) (pure b) :=
  fun _ _ hc => .ok h hc

theorem Matches.bind (hx : Matches N K V x y) (hf : ∀ a b, V a b → Matches N K W (f a) (g b)) :
    Matches N K W (x >>= f) (y >>= g) := by
  intro c c' hc
  have hx := hx hc
  rw [EStateM.run_bind, EStateM.run_bind]
  generalize x.run c = r at hx ⊢
  generalize y.run c' = r' at hx ⊢
  cases hx with
  | ok hV hc₁ => exact hf _ _ hV hc₁
  | error he hc₁ => exact .error he hc₁

theorem Matches.bindEq {x y : Reading α} {f : α → Reading γ} {g : α → Reading δ}
    (hx : Matches N K Eq x y) (hf : ∀ a, Matches N K W (f a) (g a)) :
    Matches N K W (x >>= f) (y >>= g) :=
  hx.bind fun a _ h => h ▸ hf a

variable (N K) in
/-- Cursors as in `K` stand in front of the same tokens and in as many open types, at tokens that
correspond as `N` says, and stay so when they are moved. -/
structure InStep : Prop where
  rest : ∀ {c c'}, K c c' → c.rest = c'.rest
  depth : ∀ {c c'}, K c c' → c.depth = c'.depth
  passed : ∀ {c c'}, K c c' → N c.passed c'.passed
  skip : ∀ {c c'}, K c c' → K c.skip c'.skip
  started : ∀ {c c'}, K c c' → K c.started c'.started
  entered : ∀ {c c'}, K c c' → K c.entered c'.entered
  left : ∀ {c c'}, K c c' → K c.left c'.left

theorem InStep.advance (h : InStep N K) : Matches N K Eq advance advance := by
  intro c c' hc
  have hrest := h.rest hc
  rcases ht : c.rest.head? with _ | t
  · have hend : c.rest = [] := List.head?_eq_none_iff.1 ht
    have hend' : c'.rest = [] := hrest ▸ hend
    have hrun : Reading.advance.run c = .ok () c := by simp [Reading.advance, hend]
    have hrun' : Reading.advance.run c' = .ok () c' := by simp [Reading.advance, hend']
    rw [hrun, hrun']
    exact .ok rfl hc
  · rw [run_advance ht, run_advance (hrest ▸ ht)]
    exact .ok rfl (h.skip hc)

/-- Readings put together in the same way end alike, if the types inside do. -/
theorem Alike.matches (h : Alike N (Fault.Same N) inner inner' V x y)
    (hK : InStep N K) (hinner : Matches N K Eq inner inner') :
    Matches N K V x y := by
  induction h with
  | pure hV => exact .pure hV
  | bind _ _ ihx ihf => exact ihx.bind ihf
  | peek => exact fun c c' hc => .ok (congrArg List.head? (hK.rest hc)) hc
  | here => exact fun c c' hc => .ok (hK.passed hc) hc
  | advance => exact hK.advance
  | @rest _ _ V f g _ ih =>
    intro c c' hc
    have hg : (do let c ← get; g c.rest : Reading _).run c' = (g c.rest).run c' := by
      rw [hK.rest hc]
      rfl
    rw [hg]
    exact ih c.rest hc
  | fault h => exact fun c c' hc => .error (.of_alike h) hc
  | outside h => exact fun c c' hc => .error h hc
  | inner => exact hinner

/-- The same collection or none, at tokens that correspond. -/
theorem Alike.wrapper? {F : Fault → Fault → Prop} : Alike N F inner inner'
    (Option.Rel fun a b => a.1 = b.1 ∧ N a.2 b.2) wrapper? wrapper? := by
  refine .bind .here fun m n h => .bindEq .peek fun t => ?_
  cases t.bind Token.collection? with
  | none => exact .pure .none
  | some k => exact .bindEq .advance fun _ => .pure (.some ⟨rfl, h⟩)

theorem nothing_matches : Matches N K Eq nothing nothing :=
  fun _ _ hc => .error .endOfInput hc

namespace InStep

variable (h : InStep N K)
include h

theorem nullability (t : DataType) : Matches N K Eq (nullability t) (nullability t) :=
  (Alike.nullability t).matches h nothing_matches

theorem tooDeep {m n : Nat} (limit : Nat) (hmn : N m n) :
    Matches N K Eq (tooDeep limit m) (tooDeep limit n) :=
  fun _ _ hc => .error (.token hmn) (h.entered hc)

theorem nested {x : Reading α} {y : Reading β} (hx : Matches N K V x y) :
    Matches N K V (nested x) (nested y) := by
  have henter : Matches N K Eq enter enter := fun _ _ hc => .ok rfl (h.entered hc)
  have hleave : Matches N K Eq leave leave := fun _ _ hc => .ok rfl (h.left hc)
  exact henter.bindEq fun _ => hx.bind fun _ _ hV => hleave.bindEq fun _ => .pure hV

theorem wrapped (limit levels : Nat) (t : DataType) :
    Matches N K Eq (wrapped limit levels t) (wrapped limit levels t) := by
  have hwrapper := (Alike.wrapper? (N := N) (F := Fault.Same N)).matches h nothing_matches
  induction levels generalizing t with
  | zero =>
    refine hwrapper.bind fun _ _ hw => ?_
    cases hw with
    | none => exact .pure rfl
    | some hw => exact h.tooDeep limit hw.2
  | succ levels ih =>
    rw [wrapped_succ]
    refine hwrapper.bind fun _ _ hw => ?_
    rcases hw with @⟨⟨k, m⟩, ⟨_, n⟩, rfl, -⟩ | _
    · exact h.nested ((h.nullability _).bindEq ih)
    · exact .pure rfl

/-- With the same loader, bases end alike. -/
theorem base (hinner : Matches N K Eq inner inner') :
    Matches N K Eq (base loader inner) (base loader inner') :=
  (Alike.base (fun _ _ _ _ => .rawRestore) fun _ _ _ _ _ => .token).matches h hinner

/-- With any loaders, bases end alike where no loader is asked. -/
theorem base_of_notOutside (hoff : ∀ {c c'}, K c c' → ∀ {k : Keyword},
      c.rest.head? = some (.keyword k) → k.isOutside = false)
    (hinner : Matches N K Eq inner inner') :
    Matches N K Eq (Reading.base loader inner) (Reading.base loader' inner') := by
  have halike : ∀ {x y : Reading DataType}, Alike N (Fault.Same N) inner inner' Eq x y →
      Matches N K Eq x y := fun hxy => hxy.matches h hinner
  have hrefuse : Matches N K Eq (refuse (.tokenExpected .keyword) : Reading DataType)
      (refuse (.tokenExpected .keyword)) := halike (.refuse fun _ => trivial)
  intro c c' hc
  rw [Reading.base, Reading.base, run_bind_of_ok (run_peek c), run_bind_of_ok (run_peek c'),
    ← h.rest hc]
  rcases ht : c.rest.head? with _ | t
  · exact hrefuse hc
  cases t with
  | keyword k =>
    have ht' : c'.rest.head? = some (.keyword k) := h.rest hc ▸ ht
    have hk := hoff hc ht
    have hraw : k ≠ .raw := by
      rintro rfl
      cases hk
    have hlegacy : k ≠ .legacy := by
      rintro rfl
      cases hk
    have hafter : Matches N K Eq (afterKeyword loader inner c.passed k)
        (afterKeyword loader' inner' c'.passed k) :=
      halike (.afterKeyword (h.passed hc) (absurd · hraw) (absurd · hlegacy))
    dsimp only
    rw [run_bind_of_ok (run_here c), run_bind_of_ok (run_here c'), run_bind_of_ok (run_advance ht),
      run_bind_of_ok (run_advance ht')]
    exact hafter (h.skip hc)
  | word | quoted => exact halike .unresolved hc
  | _ => exact hrefuse hc

variable (hbase : ∀ {inner inner'}, Matches N K Eq inner inner' →
  Matches N K Eq (Reading.base loader inner) (Reading.base loader' inner'))
include hbase

theorem typeExpression (limit levels : Nat) :
    Matches N K Eq (typeExpression loader limit levels)
      (typeExpression loader' limit levels) := by
  have hbegin : Matches N K Eq begin begin := fun _ _ hc => .ok rfl (h.started hc)
  induction levels with
  | zero =>
    have hhere : Matches N K N here here := fun _ _ hc => .ok (h.passed hc) hc
    refine hbegin.bindEq fun _ => ?_
    exact hhere.bind fun _ _ => h.tooDeep limit
  | succ levels ih =>
    rw [typeExpression_succ, typeExpression_succ]
    refine hbegin.bindEq fun _ => h.nested ?_
    refine (hbase ih).bindEq fun t => ?_
    exact (h.nullability t).bindEq (h.wrapped limit levels)

/-- Where one run of a description ends, the other one ends alike. -/
theorem description (limit : Nat) :
    Matches N K Eq (description loader limit) (description loader' limit) := by
  have hend : ∀ t : DataType, Matches N K Eq (ending t) (ending t) := fun t =>
    (Alike.ending (fun _ _ _ => .token) t).matches h nothing_matches
  intro c c' hc
  rw [run_description, run_description, h.depth hc]
  exact (h.typeExpression hbase limit _).bindEq hend hc

end InStep

end Reading

end SqlTypes
