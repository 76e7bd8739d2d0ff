import SqlTypes.Proofs.Composition

/-!
# Completing types all at once

A type expression completes the collections around its base one by one, the outermost first. It may
as well leave them open, count them, and complete them at its end together with itself. Then there
are always as many types open as are to be completed: what is done where there are too few makes no
difference (`Reading.descriptionAtOnce_eq`).
-/

namespace SqlTypes

open Grammar

namespace Reading

/-- Completes `n` types at once. Where fewer are open, it stops with `e`. -/
def leaveAll (e : Fault) (n : Nat) : Reading Unit := do
  if (← get).depth < n then
    throw e
  else
    modify fun c => { c with depth := c.depth - n }

/-- Collections written behind their element, which stay open, and how many they are. -/
def wraps (limit : Nat) : (levels : Nat) → DataType → Reading (DataType × Nat)
  | 0, t => do
    match ← wrapper? with
    | some (_, start) => return (← tooDeep limit start, 0)
    | none => return (t, 0)
  | levels + 1, t => do
    match ← wrapper? with
    | some (c, _) =>
      enter
      let t ← nullability { shape := .collection c t }
      let (t, n) ← wraps limit levels t
      return (t, n + 1)
    | none => return (t, 0)

/-- A type expression that completes all that it has opened at once. -/
def typeExpressionAtOnce (e : Fault) (loader : Loader) (limit : Nat) :
    (levels : Nat) → Reading DataType
  | 0 => do
    begin
    tooDeep limit (← here)
  | levels + 1 => do
    begin
    enter
    let t ← base loader (typeExpressionAtOnce e loader limit levels)
    let t ← nullability t
    let (t, n) ← wraps limit levels t
    leaveAll e (1 + n)
    return t

/-- A description, with all that is opened completed at once. -/
def descriptionAtOnce (e : Fault) (loader : Loader) (limit : Nat) : Reading DataType := do
  let t ← typeExpressionAtOnce e loader limit (limit - (← get).depth)
  ending t

/-- The first run completes what the second leaves open, and ends with `d` types open; faults are
the same. -/
inductive Closes (d : Nat) :
    EStateM.Result Fault Cursor DataType → EStateM.Result Fault Cursor (DataType × Nat) → Prop
  | ok {t : DataType} {n : Nat} {c : Cursor} : c.depth = d + n →
      Closes d (.ok t { c with depth := d }) (.ok (t, n) c)
  | error {e : Fault} {c : Cursor} : Closes d (.error e c) (.error e c)

theorem wrapped_closes (limit : Nat) : ∀ (levels : Nat) (t : DataType) (c : Cursor),
    Closes c.depth ((wrapped limit levels t).run c) ((wraps limit levels t).run c)
  | 0, t, c => by
    rcases run_wrapper?_cases c with ⟨k, u, -, hw⟩ | hw <;>
      rw [wrapped, wraps, run_bind_of_ok hw, run_bind_of_ok hw]
    · exact .error
    · exact .ok rfl
  | levels + 1, t, c => by
    rcases run_wrapper?_cases c with ⟨k, u, -, hw⟩ | hw <;>
      rw [wrapped, wraps, run_bind_of_ok hw, run_bind_of_ok hw]
    · simp only [run_bind_of_ok (run_enter c.skip)]
      rw [EStateM.run_bind, EStateM.run_bind]
      rcases hn : (nullability { shape := .collection k t }).run c.skip.entered with
        ⟨v, c₁⟩ | ⟨f, c₁⟩
      · obtain ⟨_, -, hpasses⟩ := nullability_passes hn
        have hdepth : c₁.depth = c.depth + 1 := hpasses.depth
        have hinside := wrapped_closes limit levels v c₁
        dsimp only
        rw [EStateM.run_bind, EStateM.run_bind]
        generalize (wrapped limit levels v).run c₁ = r at hinside ⊢
        generalize (wraps limit levels v).run c₁ = r' at hinside ⊢
        cases hinside with
        | error => exact .error
        | @ok w n c₂ hd =>
          have hleft : Cursor.left { c₂ with depth := c₁.depth } =
              { c₂ with depth := c.depth } := by
            rw [hdepth]
            rfl
          dsimp only
          rw [run_bind_of_ok (run_leave _), hleft]
          exact .ok (by omega)
      · exact .error
    · exact .ok rfl

theorem run_leaveAll {e : Fault} {c : Cursor} {d n : Nat} (hd : c.depth = d + n) :
    (leaveAll e n).run c = .ok () { c with depth := d } := by
  have hrun : (leaveAll e n).run c =
      if c.depth < n then .error e c else .ok () { c with depth := c.depth - n } := by
    rw [leaveAll]
    split_ifs with h <;> simp [h]
  rw [hrun, if_neg (by omega), hd, Nat.add_sub_cancel]

/-- There are always as many types open as are completed. -/
theorem typeExpressionAtOnce_eq (e : Fault) (loader : Loader) (limit : Nat) : ∀ levels : Nat,
    typeExpressionAtOnce e loader limit levels = typeExpression loader limit levels
  | 0 => rfl
  | levels + 1 => by
    have hexpression : ∀ c : Cursor, (typeExpressionAtOnce e loader limit (levels + 1)).run c =
        (typeExpression loader limit (levels + 1)).run c := by
      intro c
      rw [typeExpressionAtOnce, typeExpression, typeExpressionAtOnce_eq e loader limit levels,
        run_bind_of_ok (run_begin c), run_bind_of_ok (run_begin c), run_bind_of_ok (run_enter _),
        run_bind_of_ok (run_enter _), EStateM.run_bind, EStateM.run_bind]
      rcases hb : (base loader (typeExpression loader limit levels)).run c.started.entered with
        ⟨t, c₁⟩ | ⟨f, c₁⟩
      · obtain ⟨_, -, -, hbase⟩ := base_passes (typeExpression_passes loader limit levels) hb
        dsimp only
        rw [EStateM.run_bind, EStateM.run_bind]
        rcases hn : (nullability t).run c₁ with ⟨u, c₂⟩ | ⟨f, c₂⟩
        · obtain ⟨_, -, hmark⟩ := nullability_passes hn
          have hdepth : c₂.depth = c.depth + 1 := hmark.depth.trans hbase.depth
          have hwrapped := wrapped_closes limit levels u c₂
          dsimp only
          rw [EStateM.run_bind, EStateM.run_bind]
          generalize (wrapped limit levels u).run c₂ = r at hwrapped ⊢
          generalize (wraps limit levels u).run c₂ = r' at hwrapped ⊢
          cases hwrapped with
          | error => rfl
          | @ok v n c₃ hd =>
            have hall : c₃.depth = c.depth + (1 + n) := by omega
            dsimp only
            rw [run_bind_of_ok (run_leaveAll hall), run_bind_of_ok (run_leave _), Cursor.left,
              hdepth]
            rfl
        · rfl
      · rfl
    exact funext hexpression

theorem descriptionAtOnce_eq (e : Fault) (loader : Loader) (limit : Nat) :
    descriptionAtOnce e loader limit = description loader limit := by
  simp only [descriptionAtOnce, typeExpressionAtOnce_eq]
  rfl

end Reading

end SqlTypes
