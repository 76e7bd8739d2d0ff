import Mathlib.Tactic.Common
import SqlTypes.DataType.Construction

/-!
# Valid types

Types are made by `DataType.new` from the shape of types already made, and by changing nullability.
What can be made so is valid at every node, and all that is valid can be made
(`DataType.obtainable_iff`).
-/

namespace SqlTypes

theorem Parameter.check_eq_ok_iff {p : Parameter} {n : Nat} : p.check n = .ok () ↔ p.InRange n := by
  rw [check]
  split_ifs with h <;> simp [h]

theorem Parameter.check_bind_eq_ok_iff {p : Parameter} {n : Nat} {e : Except BadParameter Unit} :
    (do p.check n; e) = .ok () ↔ p.InRange n ∧ e = .ok () := by
  rw [← check_eq_ok_iff]
  cases p.check n with
  | error b => simp [bind, Except.bind]
  | ok u => simp [bind, Except.bind]

theorem Parameter.greatest_le : ∀ p : Parameter, p.greatest ≤ largestInteger
  | .length _ => Nat.le_refl _
  | .precision _ => by simp [greatest, largestInteger]
  | .decimalPrecision | .yearPrecision | .dayPrecision | .fractionPrecision => by decide

/-- No parameter in range is too large to be written down. -/
theorem Parameter.InRange.le_largest {p : Parameter} {n : Nat} (h : p.InRange n) :
    n ≤ largestInteger :=
  Nat.le_trans h.2 p.greatest_le

theorem Parameter.le_of_check {p : Parameter} {n : Nat} (h : p.check n = .ok ()) :
    n ≤ largestInteger :=
  (check_eq_ok_iff.1 h).le_largest

theorem Atom.normalized_normalized (a : Atom) : a.normalized.normalized = a.normalized := by
  cases a <;> simp only [normalized] <;> split_ifs <;> rfl

namespace Shape

theorem normalized_normalized {τ : Type} (s : Shape τ) :
    s.normalized.normalized = s.normalized := by
  cases s with
  | atom a => rw [normalized, normalized, a.normalized_normalized]
  | collection | map | row | structured => rfl

theorem parts_normalized {τ : Type} (s : Shape τ) : s.normalized.parts = s.parts := by
  cases s <;> rfl

end Shape

namespace DataType

variable {t u : DataType} {s : Shape DataType}

/-- The types that can be made. -/
inductive Obtainable : DataType → Prop where
  | new {s : Shape DataType} {t : DataType} : (∀ u ∈ s.parts, Obtainable u) →
      DataType.new s = .ok t → Obtainable t
  | withNullability {t u : DataType} {nullable : Bool} : Obtainable t →
      t.withNullability nullable = .ok u → Obtainable u

/-- The outermost layer is as `DataType.new` leaves it, and the null type is nullable. -/
structure ValidNode (t : DataType) : Prop where
  normalized : t.shape.normalized = t.shape
  check : t.shape.check = .ok ()
  nullable : t.shape = .atom (.plain .null) → t.nullable = true

/-- Every node is valid. -/
inductive Valid : DataType → Prop where
  | intro {t : DataType} : ValidNode t → (∀ u ∈ t.shape.parts, Valid u) → Valid t

theorem new_eq_ok_iff :
    DataType.new s = .ok t ↔ s.normalized.check = .ok () ∧ t = { shape := s.normalized } := by
  rw [DataType.new]
  cases s.normalized.check with
  | error e => simp [bind, Except.bind]
  | ok v => simp [bind, Except.bind, eq_comm]

theorem withNullability_eq_ok_iff {nullable : Bool} :
    t.withNullability nullable = .ok u ↔
      u = { t with nullable } ∧ (t.shape = .atom (.plain .null) → nullable = true) := by
  rw [withNullability]
  split_ifs with h
  · simp [h.1, h.2]
  · cases nullable <;> simp_all [eq_comm]

theorem Obtainable.valid (h : Obtainable t) : Valid t := by
  induction h with
  | @new s t hparts hnew ih =>
    obtain ⟨hcheck, rfl⟩ := new_eq_ok_iff.1 hnew
    exact .intro ⟨s.normalized_normalized, hcheck, fun _ => rfl⟩ (s.parts_normalized ▸ ih)
  | withNullability _ hn ih =>
    obtain ⟨rfl, hnull⟩ := withNullability_eq_ok_iff.1 hn
    obtain ⟨hnode, hparts⟩ := ih
    exact .intro ⟨hnode.normalized, hnode.check, hnull⟩ hparts

theorem Valid.obtainable (h : Valid t) : Obtainable t := by
  induction h with
  | @intro t hnode _ ih =>
    obtain ⟨s, nullable⟩ := t
    have hnew : DataType.new s = .ok { shape := s } := by
      rw [new_eq_ok_iff, hnode.normalized]
      exact ⟨hnode.check, rfl⟩
    have hmark : DataType.withNullability { shape := s } nullable = .ok { shape := s, nullable } :=
      withNullability_eq_ok_iff.2 ⟨rfl, hnode.nullable⟩
    exact .withNullability (.new ih hnew) hmark

/-- What can be made is what is valid at every node. -/
theorem obtainable_iff : Obtainable t ↔ Valid t :=
  ⟨Obtainable.valid, Valid.obtainable⟩

end DataType

end SqlTypes
