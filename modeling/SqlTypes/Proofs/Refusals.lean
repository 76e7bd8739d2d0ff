import SqlTypes.Proofs.Failures

/-!
# Descriptions of one base

A description of a single atom has the type that the atom means (`parse_of_meaning?`). A reading
fails where a reading in it fails, behind what is read before that (`Reading.Fails`), so that a
description is refused with what comes of its first keyword (`parse_of_fails`).
-/

namespace SqlTypes

open Grammar

/-- Where there is a value as `P` says, a run gives one. -/
theorem Outcome.exists_ok {α : Type} {x : Reading α} {c : Cursor} {ts : List Token} {h : Nat}
    {P : α → Prop} {a : α} (ho : Outcome c ts h P (x.run c)) (ha : P a) :
    ∃ a' c', x.run c = .ok a' c' ∧ P a' ∧ c.Passes ts h c' := by
  rcases hr : x.run c with ⟨a', c'⟩ | ⟨f, c'⟩ <;> rw [hr] at ho
  · exact ⟨a', c', rfl, ho⟩
  · exact absurd ha (ho.2 a)

namespace Reading

variable {α β : Type} {x : Reading α} {g : α → Reading β} {c c₁ : Cursor} {f : Fault} {a : α}
  {loader : Loader} {rest : List Token} {limit levels start : Nat}

/-- From here on, the reading stops with this fault. -/
def Fails (x : Reading α) (c : Cursor) (f : Fault) : Prop :=
  ∃ c', x.run c = .error f c'

theorem Fails.bind (h : Fails x c f) (g : α → Reading β) : Fails (x >>= g) c f := by
  obtain ⟨c', h⟩ := h
  exact ⟨c', by rw [EStateM.run_bind, h]⟩

theorem Fails.of_ok (hx : x.run c = .ok a c₁) (h : Fails (g a) c₁ f) : Fails (x >>= g) c f := by
  obtain ⟨c', h⟩ := h
  exact ⟨c', (run_bind_of_ok hx).trans h⟩

theorem fails_make {s : Shape DataType} {b : BadParameter} (hb : DataType.new s = .error b)
    (start : Nat) (c : Cursor) :
    Fails (make start s) c (.problem (.token start) (.invalidParameter b)) := by
  rw [make, hb]
  exact ⟨c, rfl⟩

/-- Where what follows its first keyword cannot be read, neither can be the description. -/
theorem runOn_of_afterKeyword {k : Keyword} (hlimit : limit = levels + 1)
    (h : ∀ c : Cursor, c.rest = rest → c.passed = 1 →
      Fails (afterKeyword loader (typeExpression loader limit levels) 0 k) c f) :
    ∃ c', runOn loader limit (.keyword k :: rest) = .error f c' := by
  subst hlimit
  let c : Cursor := { rest := .keyword k :: rest }
  obtain ⟨c', hr⟩ := h c.started.entered.skip rfl rfl
  have hbase := (run_base_keyword (c := c.started.entered) rfl).trans hr
  refine ⟨c', ?_⟩
  rw [runOn, run_description, EStateM.run_bind, Nat.sub_zero, typeExpression_succ,
    run_bind_of_ok (run_begin c), nested, run_bind_of_ok (run_enter _), EStateM.run_bind,
    EStateM.run_bind, hbase]

end Reading

variable {context : Context} {input : String}
  (hlen : input.utf8ByteSize ≤ context.limits.maxInputLength)
include hlen

/-- Within the limits, a description of an atom has the type that this means. -/
theorem parse_of_meaning? {a : AtomPhrase} {t : DataType}
    (hdepth : 1 ≤ context.limits.maxNestingDepth) (htokens : a.tokens = tokensOf input)
    (h : a.meaning? context.loader = some t) : parse context input = .ok t := by
  let p : Phrase := ⟨.atom a, .unmarked, []⟩
  have hp : p.tokens = a.tokens := by
    simp [p, Phrase.tokens, Phrase.baseTokens, Nullability.tokens, wrapperTokens]
  have hread : p.reading? context.loader = some t := by
    rw [Phrase.reading?, Phrase.type?, Phrase.baseType?, h]
    rfl
  exact parse_of_reading? (hp.trans htokens) hread hlen hdepth

/-- Within the limits, a description is refused with what comes of its first keyword. -/
theorem parse_of_fails {k : Keyword} {rest : List Token} {f : Fault} {levels : Nat}
    (hdepth : context.limits.maxNestingDepth = levels + 1)
    (htokens : tokensOf input = .keyword k :: rest)
    (h : ∀ c : Cursor, c.rest = rest → c.passed = 1 → Reading.Fails
      (Reading.afterKeyword context.loader
        (Reading.typeExpression context.loader context.limits.maxNestingDepth levels) 0 k) c f) :
    parse context input = .error ((Parser.start context input).failure f) := by
  obtain ⟨c, hrun⟩ := Reading.runOn_of_afterKeyword hdepth h
  rw [parse_eq hlen, Parser.parse_start, htokens, hrun]
  rfl

end SqlTypes
