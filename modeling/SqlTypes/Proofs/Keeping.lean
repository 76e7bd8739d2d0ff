import SqlTypes.Proofs.Cutting

/-!
# What whole descriptions keep

What passing a token keeps, and beginning, opening and completing a type, every reading of a
description keeps, whatever comes of it (`Reading.Steady.description`). So a cursor stays in the
tokens and does not go back, and never more types are open than the most that ever were
(`Reading.description_advances`).

If no type expression is read to its end, a type stays open (`Reading.typeExpression_opens`), and
there are no more of them than the levels allow, and one too many.
-/

namespace SqlTypes

namespace Cursor

variable {ts : List Token} {c c' : Cursor}

/-- `c'` stands in the tokens `ts`, not before `c`, and counts what has been open. -/
structure Advanced (ts : List Token) (c c' : Cursor) : Prop where
  within : c'.Within ts
  passed : c.passed ≤ c'.passed
  deepest : c.deepest ≤ c'.deepest
  depth : c'.depth ≤ c'.deepest

theorem Advanced.refl (hc : c.Within ts) (hd : c.depth ≤ c.deepest) : c.Advanced ts c :=
  ⟨hc, Nat.le_refl _, Nat.le_refl _, hd⟩

end Cursor

open Cursor (Advanced AtDepth)

namespace Reading

variable {α β : Type} {loader : Loader} {limit : Nat}

/-- Whatever moves a cursor keeps it as in `I`. -/
structure Steady (I : Cursor → Prop) : Prop where
  skip : ∀ c t, I c → c.rest.head? = some t → I c.skip
  started : ∀ c, I c → I c.started
  entered : ∀ c, I c → I c.entered
  left : ∀ c, I c → I c.left

namespace Steady

variable {I : Cursor → Prop} (h : Steady I)
include h

theorem of_alike {V : α → α → Prop} {x : Reading α} {inner : Reading DataType}
    (hi : Leads I inner (fun _ => I) fun _ => I)
    (hx : Alike (fun _ _ => True) (fun _ _ => True) inner inner V x x) :
    Leads I x (fun _ => I) fun _ => I :=
  (hx.leads h.skip (fun _ _ => ⟨0, trivial⟩) (fun _ _ _ hc _ => hc) hi).mono fun _ _ hQ => hQ.1

omit h in
theorem nothing_keeps : Leads I nothing (fun _ => I) fun _ => I :=
  fun _ hc => hc

theorem kept (loader : Loader) : Kept loader I fun _ => I where
  skip := h.skip
  started := h.started
  entered := h.entered
  left := h.left
  tooDeep _ _ c' _ hc' := h.entered c' hc'
  base _ hi := h.of_alike hi (.base (fun _ _ _ _ => trivial) fun _ _ _ _ _ _ => trivial)
  nullability t := h.of_alike nothing_keeps (.nullability t)

/-- What moving a cursor keeps, all descriptions keep. -/
theorem description (loader : Loader) (limit : Nat) :
    Leads I (description loader limit) (fun _ => I) fun _ => I := by
  have hend : ∀ t, Leads I (ending t) (fun _ => I) fun _ => I := fun t =>
    h.of_alike nothing_keeps (.ending (fun _ _ _ _ => trivial) t)
  intro c hc
  rw [run_description]
  exact ((h.kept loader).typeExpression limit _).bind hend hc

end Steady

theorem steady_advanced (ts : List Token) (c₀ : Cursor) : Steady (Advanced ts c₀) where
  skip _ _ hc ht := ⟨hc.within.skip ht, Nat.le_succ_of_le hc.passed, hc.deepest, hc.depth⟩
  started _ hc := ⟨⟨hc.within.rest, hc.within.passed⟩, hc.passed, hc.deepest, hc.depth⟩
  entered c hc := ⟨⟨hc.within.rest, hc.within.passed⟩, hc.passed,
    hc.deepest.trans (Nat.le_max_left c.deepest _), Nat.le_max_right _ (c.depth + 1)⟩
  left _ hc := ⟨⟨hc.within.rest, hc.within.passed⟩, hc.passed, hc.deepest,
    (Nat.sub_le _ 1).trans hc.depth⟩

/-- A description goes on from where it begins, whatever comes of it. -/
theorem description_advances {ts : List Token} {c : Cursor} (hc : c.Within ts)
    (hd : c.depth ≤ c.deepest) : c.Advanced ts (finish ((description loader limit).run c)) := by
  have hleads := (steady_advanced ts c).description loader limit (.refl hc hd)
  rcases hr : (description loader limit).run c with ⟨t, c'⟩ | ⟨e, c'⟩ <;> rw [hr] at hleads <;>
    exact hleads

variable {d e b : Nat} {x : Reading α} {inner : Reading DataType}

/-- Where `e` types are open, `x` leaves just as many open, or stops with more than `d`. -/
abbrev Opens (d e b : Nat) (x : Reading α) : Prop :=
  Leads (AtDepth b e) x (fun _ => AtDepth b e) fun _ c => d < c.depth ∧ c.deepest ≤ b

theorem Opens.of_lt (hx : Opens e e b x) (hd : d ≤ e) : Opens d e b x := by
  intro c hc
  have hx := hx hc
  rcases hr : x.run c with ⟨a, c'⟩ | ⟨f, c'⟩ <;> rw [hr] at hx
  · exact hx
  · exact ⟨Nat.lt_of_le_of_lt hd hx.1, hx.2⟩

theorem opens_of_alike {V : α → α → Prop} (hd : d < e) (hi : Opens d e b inner)
    (hx : Alike (fun _ _ => True) (fun _ _ => True) inner inner V x x) : Opens d e b x := by
  have hleads := hx.leads (I := AtDepth b e) (E := fun _ c => d < c.depth ∧ c.deepest ≤ b)
    (fun _ _ hc _ => ⟨hc.depth, hc.le_deepest, hc.deepest_le⟩) (fun _ _ => ⟨0, trivial⟩)
    (fun c _ _ hc _ => ⟨hc.depth ▸ hd, hc.deepest_le⟩) hi
  exact hleads.mono fun _ _ hQ => hQ.1

theorem tooDeep_opens (limit n : Nat) (hb : e < b) : Opens e e b (tooDeep limit n) :=
  fun _ hc => ⟨(hc.entered hb).depth ▸ Nat.lt_succ_self e, (hc.entered hb).deepest_le⟩

theorem nested_opens (hb : d < b) (hx : Opens d (d + 1) b x) : Opens d d b (nested x) :=
  Leads.nested (fun _ hc => hc.entered hb) hx fun _ _ hc => hc.left

theorem nothing_opens (hd : d < e) : Opens d e b nothing :=
  fun _ hc => ⟨hc.depth ▸ hd, hc.deepest_le⟩

theorem nullability_opens (hd : d < e) (t : DataType) : Opens d e b (nullability t) :=
  opens_of_alike hd (nothing_opens hd) (.nullability t)

theorem wrapped_opens (limit : Nat) : ∀ (levels : Nat) {e : Nat} (t : DataType),
    e + levels < b → Opens e e b (wrapped limit levels t)
  | 0, e, u, hb => by
    intro c hc
    rcases run_wrapper?_cases c with ⟨k, t, -, hw⟩ | hw <;> rw [wrapped, run_bind_of_ok hw]
    · have hskip : c.skip.AtDepth b e := ⟨hc.depth, hc.le_deepest, hc.deepest_le⟩
      exact tooDeep_opens limit c.passed hb hskip
    · exact hc
  | levels + 1, e, u, hb => by
    intro c hc
    rcases run_wrapper?_cases c with ⟨k, t, -, hw⟩ | hw <;> rw [wrapped_succ, run_bind_of_ok hw]
    · have hwrapped := fun t => (wrapped_opens limit levels (e := e + 1) t (by omega)).of_lt
        (Nat.le_succ e)
      have hmark := nullability_opens (b := b) (Nat.lt_succ_self e) { shape := .collection k u }
      have hskip : c.skip.AtDepth b e := ⟨hc.depth, hc.le_deepest, hc.deepest_le⟩
      exact nested_opens (by omega) (hmark.bind hwrapped) hskip
    · exact hc

/-- A type expression leaves as many types open as it found, or stops with one more at least. -/
theorem typeExpression_opens (loader : Loader) (limit : Nat) : ∀ (levels : Nat) {d : Nat},
    d + levels < b → Opens d d b (typeExpression loader limit levels)
  | 0, d, hb => by
    intro c hc
    have hstarted : c.started.AtDepth b d := ⟨hc.depth, hc.le_deepest, hc.deepest_le⟩
    exact tooDeep_opens limit c.passed hb hstarted
  | levels + 1, d, hb => by
    have hlevels : d + 1 + levels < b := by omega
    have hi := (typeExpression_opens loader limit levels hlevels).of_lt (Nat.le_succ d)
    have hbase : Opens d (d + 1) b (base loader (typeExpression loader limit levels)) :=
      opens_of_alike (Nat.lt_succ_self d) hi
        (.base (fun _ _ _ _ => trivial) fun _ _ _ _ _ _ => trivial)
    have hbegin : Opens d d b begin := fun _ hc => ⟨hc.depth, hc.le_deepest, hc.deepest_le⟩
    rw [typeExpression_succ]
    refine hbegin.bind fun _ => nested_opens (by omega) (hbase.bind fun t => ?_)
    exact (nullability_opens (Nat.lt_succ_self d) t).bind fun t =>
      (wrapped_opens limit levels t hlevels).of_lt (Nat.le_succ d)

end Reading

end SqlTypes
