import SqlTypes.Proofs.Failures

/-!
# Levels and tokens

Every type that is open has begun with a token of its own, and a type inside another one stands
behind a bracket as well. So a limit of as many levels as there are tokens, and of one at least, is
never reached (`Reading.description_shallow`).
-/

namespace SqlTypes

/-- Whether more types would have been open than the limit allows. -/
def Fault.isTooDeep : Fault → Bool
  | .problem _ (.nestingTooDeep _) => true
  | _ => false

namespace Cursor

/-- The cursor stands in the tokens `ts`, in `d` open types, and behind `n` tokens at least. -/
structure Inside (ts : List Token) (d n : Nat) (c : Cursor) : Prop where
  within : c.Within ts
  depth : c.depth = d
  passed : n ≤ c.passed

variable {ts : List Token} {d n : Nat} {t : Token} {c : Cursor}

theorem Inside.skip (h : c.Inside ts d n) (ht : c.rest.head? = some t) :
    c.skip.Inside ts d (n + 1) :=
  ⟨h.within.skip ht, h.depth, Nat.succ_le_succ h.passed⟩

theorem Inside.of_succ (h : c.Inside ts d (n + 1)) : c.Inside ts d n :=
  ⟨h.within, h.depth, Nat.le_of_succ_le h.passed⟩

theorem Inside.passed_lt (h : c.Inside ts d n) (ht : c.rest.head? = some t) : n < ts.length := by
  have hlen := (h.within.skip ht).passed
  have hn := h.passed
  simp only [Cursor.skip] at hlen
  omega

end Cursor

open Cursor (Inside)

namespace Reading

variable {α : Type} {ts : List Token} {d n limit number : Nat} {x : Reading α}
  {inner : Reading DataType} {loader : Loader}

/-- Behind `m` tokens, `x` passes so many that there are `n` then, and does not go too deep. -/
abbrev Advances (ts : List Token) (d m n : Nat) (x : Reading α) : Prop :=
  Leads (Inside ts d m) x (fun _ => Inside ts d n) fun f _ => f.isTooDeep = false

theorem advances_of_alike {V : α → α → Prop} (hi : Advances ts d n n inner)
    (h : Alike (fun _ _ => True) (fun f _ => f.isTooDeep = false) inner inner V x x) :
    Advances ts d n n x := by
  have hfault : ∀ (c : Cursor) e e', c.Inside ts d n →
      Fault.Alike (fun _ _ => True) e e' ∨ e.isTooDeep = false → e.isTooDeep = false := by
    rintro c e e' - (h | h)
    · cases h with
      | endOfInput => rfl
      | @token _ _ p _ hp =>
        cases p with
        | nestingTooDeep => exact hp.elim
        | _ => rfl
    · exact h
  exact (h.leads (fun c t hc ht => (hc.skip ht).of_succ) (fun _ _ => ⟨0, trivial⟩) hfault hi).mono
    fun _ _ hQ => hQ.1

theorem nothing_advances : Advances ts d n n nothing :=
  fun _ _ => rfl

theorem Advances.of_succ {m : Nat} (hx : Advances ts d m (n + 1) x) : Advances ts d m n x :=
  hx.mono fun _ _ hc => hc.of_succ

theorem Advances.of_passes (hx : Advances ts d n n x)
    (hp : ∀ {c c' a}, x.run c = .ok a c' → ∃ t us, c.Passes (t :: us) 0 c') :
    Advances ts d n (n + 1) x := by
  intro c hc
  have hx := hx hc
  rcases hr : x.run c with ⟨a, c'⟩ | ⟨e, c'⟩ <;> rw [hr] at hx
  · obtain ⟨t, us, hpasses⟩ := hp hr
    refine ⟨hx.within, hx.depth, ?_⟩
    rw [hpasses.passed, List.length_cons]
    exact Nat.succ_le_of_lt (Nat.lt_of_le_of_lt hc.passed (by omega))
  · exact hx

theorem expectSymbol_advances (s : Symbol) : Advances ts d n (n + 1) (expectSymbol s) :=
  (advances_of_alike nothing_advances (.expectSymbol s)).of_passes
    fun h => ⟨_, _, expectSymbol_passes h⟩

theorem openRow_advances : Advances ts d n (n + 1) openRow := by
  refine (advances_of_alike nothing_advances .openRow).of_passes fun h => ?_
  obtain ⟨_, -, hp⟩ := openRow_passes h
  exact ⟨_, _, hp⟩

theorem collection_advances (hi : Advances ts d (n + 1) (n + 1) inner) (k : Collection) :
    Advances ts d n n (collection inner number k) := by
  refine (expectSymbol_advances _).bind fun _ => ?_
  refine Advances.of_succ (advances_of_alike (V := Eq) hi ?_)
  refine .bindEq .inner fun element => ?_
  refine .bindEq (.expectSymbol _) fun _ => ?_
  exact .make trivial _

theorem map_advances (hi : Advances ts d (n + 1) (n + 1) inner) :
    Advances ts d n n (map inner number) := by
  refine (expectSymbol_advances _).bind fun _ => ?_
  refine Advances.of_succ (advances_of_alike (V := Eq) hi ?_)
  refine .bindEq .inner fun key => ?_
  refine .bindEq (.expectSymbol _) fun _ => ?_
  refine .bindEq .inner fun value => ?_
  refine .bindEq (.expectSymbol _) fun _ => ?_
  exact .make trivial _

theorem row_advances (hi : Advances ts d (n + 1) (n + 1) inner) :
    Advances ts d n n (row inner number) := by
  refine openRow_advances.bind fun close => ?_
  refine Advances.of_succ (advances_of_alike (V := Eq) hi ?_)
  refine .bindEq (.fields _) fun fields => ?_
  refine .bindEq (.expectSymbol _) fun _ => ?_
  exact .make trivial _

theorem structured_advances (hi : Advances ts d (n + 1) (n + 1) inner) :
    Advances ts d n n (structured inner number) := by
  refine (expectSymbol_advances _).bind fun _ => ?_
  refine Advances.of_succ (advances_of_alike (V := Eq) hi ?_)
  refine .bindEq .string fun className => ?_
  refine .bindEq (.membersAfter _) fun attributes => ?_
  refine .bindEq (.expectSymbol _) fun _ => ?_
  exact .make trivial _

theorem afterKeyword_advances (hi : Advances ts d (n + 1) (n + 1) inner) (k : Keyword) :
    Advances ts d n n (afterKeyword loader inner number k) := by
  cases k with
  | array | multiset => exact collection_advances hi _
  | map => exact map_advances hi
  | row => exact row_advances hi
  | structured => exact structured_advances hi
  | raw => exact advances_of_alike nothing_advances (.raw trivial fun _ _ _ _ => rfl)
  | legacy => exact advances_of_alike nothing_advances (.legacy fun _ _ _ => rfl)
  | _ => exact advances_of_alike nothing_advances (.atomKeyword trivial rfl rfl)

/-- A base has a token of its own. -/
theorem base_advances (hi : Advances ts d (n + 2) (n + 2) inner) :
    Advances ts d n (n + 1) (base loader inner) := by
  have hrefuse : Advances ts d n n (refuse (.tokenExpected .keyword) : Reading DataType) :=
    advances_of_alike (V := Eq) nothing_advances (.refuse fun _ => trivial)
  have hrefuse := hrefuse.of_passes fun h => absurd h run_refuse_ne_ok
  have hunresolved : Advances ts d n (n + 1) unresolved := by
    refine (advances_of_alike nothing_advances .unresolved).of_passes fun h => ?_
    obtain ⟨a, -, hp⟩ := unresolved_passes loader h
    obtain ⟨t, us, hts⟩ := List.exists_cons_of_ne_nil (Grammar.AtomPhrase.tokens_ne_nil a)
    exact ⟨t, us, hts ▸ hp⟩
  intro c hc
  rcases run_base_cases c with ⟨k, ht, hrun⟩ | ⟨_, -, hrun⟩ | hrun <;> rw [hrun]
  · exact afterKeyword_advances hi k (hc.skip ht)
  · exact hunresolved hc
  · exact hrefuse hc

theorem nested_advances {m : Nat} (hx : Advances ts (d + 1) m n x) :
    Advances ts d m n (nested x) := by
  refine .nested (fun c hc => ?_) hx fun _ c hc => ?_
  · exact ⟨⟨hc.within.rest, hc.within.passed⟩, by rw [Cursor.entered_depth, hc.depth], hc.passed⟩
  · exact ⟨⟨hc.within.rest, hc.within.passed⟩, congrArg (· - 1) hc.depth, hc.passed⟩

theorem nullability_advances (t : DataType) : Advances ts d n n (nullability t) :=
  advances_of_alike nothing_advances (.nullability t)

theorem wrapped_advances (hlimit : ts.length ≤ limit) : ∀ (levels : Nat) {d n : Nat} (t : DataType),
    limit ≤ d + levels → d ≤ n → Advances ts d n n (wrapped limit levels t)
  | 0, d, n, u, hlevels, hd => by
    intro c hc
    rcases run_wrapper?_cases c with ⟨k, t, ht, hw⟩ | hw
    · have hlt := hc.passed_lt ht
      omega
    · rw [wrapped, run_bind_of_ok hw]
      exact hc
  | levels + 1, d, n, u, hlevels, hd => by
    intro c hc
    rcases run_wrapper?_cases c with ⟨k, t, ht, hw⟩ | hw <;> rw [wrapped_succ, run_bind_of_ok hw]
    · have hlevels : limit ≤ d + 1 + levels := by omega
      have hwrapped := fun t => wrapped_advances hlimit levels t hlevels (Nat.succ_le_succ hd)
      have h := nested_advances ((nullability_advances { shape := .collection k u }).bind hwrapped)
      exact h.of_succ (hc.skip ht)
    · exact hc

/-- A type expression is begun at the start of the tokens, or behind a keyword and a bracket. -/
theorem typeExpression_advances (loader : Loader) (hlimit : ts.length ≤ limit) :
    ∀ (levels : Nat) {d n : Nat}, limit ≤ d + levels → d ≤ n → (0 < levels ∨ d < n) →
      Advances ts d n (n + 1) (typeExpression loader limit levels)
  | 0, d, n, hlevels, _, hn => by
    -- more tokens would be passed than there are types open, and so more than there are at all
    intro c hc
    have := hc.within.passed
    have := hc.passed
    omega
  | levels + 1, d, n, hlevels, hd, _ => by
    have hlevels : limit ≤ d + 1 + levels := by omega
    have hi := typeExpression_advances loader hlimit levels (n := n + 2) hlevels (by omega)
      (.inr (by omega))
    have hbegin : Advances ts d n n begin :=
      fun c hc => ⟨⟨hc.within.rest, hc.within.passed⟩, hc.depth, hc.passed⟩
    rw [typeExpression_succ]
    refine hbegin.bind fun _ => nested_advances ?_
    refine (base_advances hi.of_succ).bind fun t => ?_
    refine (nullability_advances t).bind fun t => ?_
    exact wrapped_advances hlimit levels t hlevels (Nat.succ_le_succ hd)

/-- As many levels as there are tokens, and one at least, are never too few. -/
theorem description_shallow (loader : Loader) (hlimit : max 1 ts.length ≤ limit) :
    Leads (Inside ts 0 0) (description loader limit) (fun _ _ => True)
      fun f _ => f.isTooDeep = false := by
  obtain ⟨hpos, hlen⟩ := Nat.max_le.1 hlimit
  have hexpression := typeExpression_advances (d := 0) (n := 0) loader hlen limit (by omega)
    (Nat.le_refl 0) (.inl hpos)
  have hend : ∀ t : DataType, Advances ts 0 1 1 (ending t) :=
    fun t => advances_of_alike nothing_advances (.ending (fun _ _ _ _ => rfl) t)
  intro c hc
  rw [run_description, hc.depth]
  exact ((hexpression.bind hend).mono fun _ _ _ => trivial) hc

end Reading

end SqlTypes
