import SqlTypes.Proofs.Acceptance
import SqlTypes.Proofs.Lookahead

/-!
# Tokens bound the recursion

The recursion of a type expression is on the levels that are left below the limit, and the limit may
be as great as one likes. It is the tokens that keep the recursion short: each type inside another
one begins behind a token that the outer one has passed, and so does each collection behind its
element and each member behind another one. With a bound greater than the number of tokens left,
the recursion may as well be on the bound, and the limit only be compared with the depth. What
would be thrown where the bound is used up makes no difference (`Reading.descriptionWithin_eq`,
`Reading.membersWithin_eq`).
-/

namespace SqlTypes

namespace Cursor

variable {ts : List Token} {c c' : Cursor} {t : Token} {d bound h : Nat}

/-- `d` types are open, and fewer tokens than `bound` are left. -/
structure Remaining (d bound : Nat) (c : Cursor) : Prop where
  depth : c.depth = d
  rest : c.rest.length < bound

theorem Remaining.of_passes (hc : c.Remaining d bound) (hp : c.Passes ts h c') :
    c'.Remaining d bound := by
  have hlen := congrArg List.length hp.rest
  rw [List.length_append] at hlen
  exact ⟨hp.depth.trans hc.depth, Nat.lt_of_le_of_lt (by omega) hc.rest⟩

/-- A token is passed, so that a smaller bound will do. -/
theorem Remaining.skip (hc : c.Remaining d (bound + 1)) (ht : c.rest.head? = some t) :
    c.skip.Remaining d bound := by
  have hlen := congrArg List.length (Passes.single ht).rest
  have hrest := hc.rest
  rw [List.length_append, List.length_singleton] at hlen
  exact ⟨hc.depth, by omega⟩

theorem Remaining.mono {bound' : Nat} (hc : c.Remaining d bound) (hle : bound ≤ bound') :
    c.Remaining d bound' :=
  ⟨hc.depth, Nat.lt_of_lt_of_le hc.rest hle⟩

theorem Remaining.entered (hc : c.Remaining d bound) : c.entered.Remaining (d + 1) bound :=
  ⟨congrArg (· + 1) hc.depth, hc.rest⟩

end Cursor

open Cursor (Remaining)

namespace Reading

/-- One more type is open, which may be one too many. -/
def descend (limit number : Nat) : Reading Unit := do
  enter
  if limit < (← get).depth then
    failAt (.token number) (.nestingTooDeep limit)

/-- Collections written behind their element. Where the bound is used up, it stops with `e`. -/
def wrappedWithin (e : Fault) (limit : Nat) : (bound : Nat) → DataType → Reading DataType
  | 0, _ => throw e
  | bound + 1, t => do
    match ← wrapper? with
    | some (c, start) =>
      descend limit start
      let t ← nullability { shape := .collection c t }
      let t ← wrappedWithin e limit bound t
      leave
      return t
    | none => return t

/-- A type expression. Where the bound is used up, it stops with `e`. -/
def typeExpressionWithin (e : Fault) (loader : Loader) (limit : Nat) :
    (bound : Nat) → Reading DataType
  | 0 => throw e
  | bound + 1 => do
    begin
    descend limit (← here)
    let t ← base loader (typeExpressionWithin e loader limit bound)
    let t ← nullability t
    let t ← wrappedWithin e limit (bound + 1) t
    leave
    return t

/-- A description, bounded by the tokens that are left and the end behind them. -/
def descriptionWithin (e : Fault) (loader : Loader) (limit : Nat) : Reading DataType := do
  let t ← typeExpressionWithin e loader limit ((← get).rest.length + 1)
  ending t

/-- Members that each follow a comma, behind those in `before` reversed. Where the bound is used up,
it stops with `e`. -/
def moreMembersWithin (e : Fault) (inner : Reading DataType) (before : List (Member DataType)) :
    (bound : Nat) → Reading (List (Member DataType))
  | 0 => throw e
  | bound + 1 => do
    if ← accept (.symbol .comma) then
      let m ← member inner
      moreMembersWithin e inner (m :: before) bound
    else
      return before.reverse

/-- All that follows a comma, bounded by the tokens that are left and the end behind them. -/
def membersWithin (e : Fault) (inner : Reading DataType) (before : List (Member DataType)) :
    Reading (List (Member DataType)) := do
  moreMembersWithin e inner before ((← get).rest.length + 1)

variable {α β γ δ : Type} {V : α → β → Prop} {W : γ → δ → Prop} {I : Cursor → Prop}
  {inner inner' : Reading DataType} {loader : Loader} {c : Cursor} {d limit bound number : Nat}

/-- The same run, with values as in `V`. If there are any, it ends at a cursor as in `I`. -/
inductive Same (I : Cursor → Prop) (V : α → β → Prop) :
    EStateM.Result Fault Cursor α → EStateM.Result Fault Cursor β → Prop
  | ok {a : α} {b : β} {c : Cursor} : V a b → I c → Same I V (.ok a c) (.ok b c)
  | error {e : Fault} {c : Cursor} : Same I V (.error e c) (.error e c)

theorem Same.eq {r r' : EStateM.Result Fault Cursor α} (h : Same I Eq r r') : r = r' := by
  cases h with
  | ok hV => rw [hV]
  | error => rfl

theorem Same.bind {x : Reading α} {y : Reading β} {f : α → Reading γ} {g : β → Reading δ}
    (hx : Same I V (x.run c) (y.run c))
    (hf : ∀ a b, V a b → ∀ c, I c → Same I W ((f a).run c) ((g b).run c)) :
    Same I W ((x >>= f).run c) ((y >>= g).run c) := by
  rw [EStateM.run_bind, EStateM.run_bind]
  generalize x.run c = r at hx ⊢
  generalize y.run c = r' at hx ⊢
  cases hx with
  | ok hV hc => exact hf _ _ hV _ hc
  | error => exact .error

/-- Readings put together in the same way run alike from where the types inside do. -/
theorem Alike.same {x : Reading α} {y : Reading β} (h : Alike Eq Eq inner inner' V x y)
    (hskip : ∀ c t, I c → c.rest.head? = some t → I c.skip)
    (hinner : ∀ c, I c → Same I Eq (inner.run c) (inner'.run c)) :
    ∀ c, I c → Same I V (x.run c) (y.run c) := by
  induction h with
  | pure hV => exact fun c hc => .ok hV hc
  | bind _ _ ihx ihf => exact fun c hc => (ihx c hc).bind ihf
  | peek => exact fun c hc => .ok rfl hc
  | here => exact fun c hc => .ok rfl hc
  | advance =>
    intro c hc
    rcases advance_cases c with ⟨t, ht, hrun⟩ | hrun <;> rw [hrun]
    · exact .ok rfl (hskip c t hc ht)
    · exact .ok rfl hc
  | rest _ ih => exact fun c hc => ih c.rest c hc
  | fault h =>
    intro c hc
    cases h with
    | token h => subst h; exact .error
    | endOfInput => exact .error
  | outside h =>
    subst h
    exact fun c hc => .error
  | inner => exact hinner

/-- With fewer tokens left than `bound`, types inside are read alike where `d` types are open. -/
abbrev ReadAlike (d bound : Nat) (inner inner' : Reading DataType) : Prop :=
  ∀ c, Remaining d bound c → Same (Remaining d bound) Eq (inner.run c) (inner'.run c)

/-- The base passes a token before any type inside it is read. -/
theorem run_base_congr (hi : ReadAlike d bound inner inner') (hc : c.Remaining d (bound + 1)) :
    (base loader inner).run c = (base loader inner').run c := by
  rcases run_base_cases c with ⟨k, ht, hrun⟩ | ⟨_, -, hrun⟩ | hrun <;> rw [hrun, hrun]
  have hafter : Alike Eq Eq inner inner' Eq (afterKeyword loader inner c.passed k)
      (afterKeyword loader inner' c.passed k) :=
    .afterKeyword rfl (fun _ => .raw rfl fun _ _ _ _ => rfl) fun _ => .legacy fun _ _ _ => rfl
  exact (hafter.same (fun c t hc ht => (hc.mono (Nat.le_succ _)).skip ht) hi _ (hc.skip ht)).eq

theorem run_descend (limit number : Nat) (c : Cursor) :
    (descend limit number).run c =
      if limit < c.depth + 1 then
        .error (.problem (.token number) (.nestingTooDeep limit)) c.entered
      else .ok () c.entered := by
  rw [descend, run_bind_of_ok (run_enter c)]
  split_ifs with hd <;> simp [hd, failAt]

theorem run_descend_of_lt (hd : c.depth < limit) :
    (descend limit number).run c = .ok () c.entered := by
  rw [run_descend, if_neg (Nat.not_lt.2 hd)]

theorem run_descend_of_le {f : Unit → Reading DataType} (hd : limit ≤ c.depth) :
    (descend limit number >>= f).run c = (tooDeep limit number).run c := by
  rw [EStateM.run_bind, run_descend, if_pos (Nat.lt_succ_of_le hd)]
  rfl

theorem wrappedWithin_eq (e : Fault) (limit : Nat) : ∀ (bound : Nat) {d : Nat} (t : DataType)
    (c : Cursor), c.Remaining d bound →
      (wrappedWithin e limit bound t).run c = (wrapped limit (limit - d) t).run c
  | 0, _, _, _, hc => absurd hc.rest (Nat.not_lt_zero _)
  | bound + 1, d, t, c, hc => by
    rcases run_wrapper?_cases c with ⟨k, u, hu, hw⟩ | hw
    · have hskip := hc.skip hu
      rw [wrappedWithin, run_bind_of_ok hw]
      rcases hlevels : limit - d with _ | levels
      · rw [wrapped, run_bind_of_ok hw]
        exact run_descend_of_le (hskip.depth ▸ by omega)
      · have hd : c.skip.depth < limit := hskip.depth ▸ by omega
        have hlevels : levels = limit - (d + 1) := by omega
        rw [wrapped, run_bind_of_ok hw]
        dsimp only
        rw [run_bind_of_ok (run_descend_of_lt hd), run_bind_of_ok (run_enter _), hlevels]
        refine run_bind_congr rfl fun v c₁ hv => ?_
        obtain ⟨_, -, hp⟩ := nullability_passes hv
        exact run_bind_congr
          (wrappedWithin_eq e limit bound v c₁ (hskip.entered.of_passes hp)) fun _ _ _ => rfl
    · rw [wrappedWithin, run_bind_of_ok hw]
      cases limit - d <;>
      · rw [wrapped, run_bind_of_ok hw]

theorem typeExpressionWithin_eq (e : Fault) (loader : Loader) (limit : Nat) : ∀ (bound : Nat)
    {d : Nat} (c : Cursor), c.Remaining d bound →
      (typeExpressionWithin e loader limit bound).run c =
        (typeExpression loader limit (limit - d)).run c
  | 0, _, _, hc => absurd hc.rest (Nat.not_lt_zero _)
  | bound + 1, d, c, hc => by
    have hstarted : c.started.Remaining d (bound + 1) := ⟨hc.depth, hc.rest⟩
    rw [typeExpressionWithin, run_bind_of_ok (run_begin c), run_bind_of_ok (run_here _)]
    rcases hlevels : limit - d with _ | levels
    · rw [typeExpression, run_bind_of_ok (run_begin c), run_bind_of_ok (run_here _)]
      exact run_descend_of_le (hstarted.depth ▸ by omega)
    · have hd : c.started.depth < limit := hstarted.depth ▸ by omega
      have hlevels : levels = limit - (d + 1) := by omega
      -- behind the first token of the base, a smaller bound is enough for the types inside
      have hi : ReadAlike (d + 1) bound (typeExpressionWithin e loader limit bound)
          (typeExpression loader limit levels) := by
        intro c₁ hc₁
        rw [typeExpressionWithin_eq e loader limit bound c₁ hc₁, ← hlevels]
        rcases hr : (typeExpression loader limit levels).run c₁ with ⟨t, c₂⟩ | ⟨f, c₂⟩
        · obtain ⟨_, -, -, hp⟩ := typeExpression_passes loader limit levels hr
          exact .ok rfl (hc₁.of_passes hp)
        · exact .error
      rw [typeExpression, run_bind_of_ok (run_begin c), run_bind_of_ok (run_descend_of_lt hd),
        run_bind_of_ok (run_enter _)]
      refine run_bind_congr (run_base_congr hi hstarted.entered) fun t c₁ ht => ?_
      refine run_bind_congr rfl fun u c₂ hu => ?_
      obtain ⟨_, -, -, hbase⟩ := base_passes (typeExpression_passes loader limit levels) ht
      obtain ⟨_, -, hmark⟩ := nullability_passes hu
      have hc₂ := (hstarted.entered.of_passes hbase).of_passes hmark
      rw [hlevels]
      exact run_bind_congr (wrappedWithin_eq e limit _ u c₂ hc₂) fun _ _ _ => rfl

/-- A description is read with no more recursion than there are tokens, whatever the limit is. -/
theorem descriptionWithin_eq (e : Fault) (loader : Loader) (limit : Nat) :
    descriptionWithin e loader limit = description loader limit := by
  have hruns : ∀ c : Cursor, (descriptionWithin e loader limit).run c =
      (description loader limit).run c := by
    intro c
    have hc : c.Remaining c.depth (c.rest.length + 1) := ⟨rfl, Nat.lt_succ_self _⟩
    rw [run_description, descriptionWithin, run_bind_of_ok run_get]
    exact run_bind_congr (typeExpressionWithin_eq e loader limit _ c hc) fun _ _ _ => rfl
  exact funext hruns

theorem moreMembersWithin_eq (e : Fault) {levels : Nat} (hi : ReadsPhrase loader levels inner) :
    ∀ (bound : Nat) (ts : List Token) {before : List (Member DataType)} {c : Cursor},
      c.rest.length < bound → c.rest.length ≤ ts.length →
        (moreMembersWithin e inner before bound).run c = (moreMembers inner before ts).run c
  | 0, _, _, _, h, _ => absurd h (Nat.not_lt_zero _)
  | bound + 1, [], before, c, _, h => by
    have hc : c.rest = [] := List.length_eq_zero_iff.1 (Nat.le_zero.1 h)
    rw [moreMembersWithin, moreMembers, run_bind_of_ok (run_accept_nil hc)]
    rfl
  | bound + 1, _ :: ts, before, c, h, h' => by
    rw [moreMembersWithin, moreMembers]
    refine run_bind_congr rfl fun b c₁ ha => ?_
    cases b with
    | false => rfl
    | true =>
      refine run_bind_congr rfl fun m c₂ hm => ?_
      obtain ⟨_, _, -, -, -, hp⟩ := member_passes hi hm
      have hlen := congrArg List.length ((accept_passes ha).trans hp).rest
      simp only [List.length_append, List.length_cons] at hlen h h'
      exact moreMembersWithin_eq e hi bound ts (by omega) (by omega)

/-- Members are read with no more recursion than there are tokens, whatever types they have. -/
theorem membersWithin_eq (e : Fault) {levels : Nat} (hi : ReadsPhrase loader levels inner)
    (before : List (Member DataType)) :
    membersWithin e inner before = membersAfter inner before := by
  have hruns : ∀ c : Cursor, (membersWithin e inner before).run c =
      (membersAfter inner before).run c := by
    intro c
    rw [membersWithin, membersAfter, run_bind_of_ok run_get, run_bind_of_ok run_get]
    exact moreMembersWithin_eq e hi _ _ (Nat.lt_succ_self _) (Nat.le_refl _)
  exact funext hruns

end Reading

end SqlTypes
