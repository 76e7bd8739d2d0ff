import Mathlib.Tactic.Common
import SqlTypes.Grammar
import SqlTypes.Reading.TypeExpression

/-!
# Passing tokens

A reading that succeeds has passed some tokens, and has opened and closed some levels of types on
the way (`Cursor.Passes`). For the readings of single tokens, what they pass is said here.

A run over the tokens of a phrase ends behind them with the value of the phrase, or in a fault of
meaning if the phrase has no value (`Outcome`). Runs one after the other combine (`Outcome.bind`).
-/

namespace SqlTypes

namespace Cursor

variable {c c₁ c₂ : Cursor} {t : Token} {ts us rest : List Token} {h k : Nat}

/-- The cursor behind the next token. -/
def skip (c : Cursor) : Cursor :=
  { c with rest := c.rest.tail, passed := c.passed + 1 }

/-- The deepest nesting so far, once `h` more levels have been open. -/
def reach (c : Cursor) (h : Nat) : Nat :=
  if h = 0 then c.deepest else max c.deepest (c.depth + h)

/-- `c'` stands behind the tokens `ts`, and `h` levels were opened and closed on the way. -/
structure Passes (c : Cursor) (ts : List Token) (h : Nat) (c' : Cursor) : Prop where
  rest : c.rest = ts ++ c'.rest
  passed : c'.passed = c.passed + ts.length
  depth : c'.depth = c.depth
  deepest : c'.deepest = c.reach h

namespace Passes

theorem refl (c : Cursor) : c.Passes [] 0 c :=
  ⟨rfl, rfl, rfl, rfl⟩

theorem single (ht : c.rest.head? = some t) : c.Passes [t] 0 c.skip := by
  obtain ⟨rest, hr⟩ := List.head?_eq_some_iff.1 ht
  exact ⟨by simp [skip, hr], rfl, rfl, rfl⟩

theorem trans (h₁ : c.Passes ts h c₁) (h₂ : c₁.Passes us k c₂) :
    c.Passes (ts ++ us) (max h k) c₂ := by
  refine ⟨by rw [h₁.rest, h₂.rest, List.append_assoc], ?_, by rw [h₂.depth, h₁.depth], ?_⟩
  · rw [h₂.passed, h₁.passed, List.length_append]
    omega
  · rw [h₂.deepest]
    simp only [reach, h₁.deepest, h₁.depth]
    split_ifs <;> omega

theorem cons (ht : c.rest.head? = some t) (h₂ : c.skip.Passes us k c₂) :
    c.Passes (t :: us) k c₂ := by
  simpa using (single ht).trans h₂

theorem rest_eq (hp : c.Passes ts h c₁) (hc : c.rest = ts ++ rest) : c₁.rest = rest :=
  List.append_cancel_left (hp.rest.symm.trans hc)

end Passes

theorem head?_of_rest (hc : c.rest = t :: rest) : c.rest.head? = some t := by
  rw [hc, List.head?_cons]

theorem skip_rest (hc : c.rest = t :: rest) : c.skip.rest = rest := by
  rw [skip, hc, List.tail_cons]

end Cursor

open Cursor (Passes head?_of_rest skip_rest)

/-- A fault of what a phrase stands for rather than of how it is made up. -/
def Fault.OfMeaning : Fault → Prop
  | .problem _ (.invalidInteger) | .problem _ (.invalidParameter _)
  | .problem _ (.legacyRestore ..) | .rawRestore .. => True
  | _ => False

/-- How a run from `c` over the tokens `ts` ends: behind them with a value as `P` says, or in a
fault of meaning if there is no such value. -/
def Outcome {α : Type} (c : Cursor) (ts : List Token) (h : Nat) (P : α → Prop) :
    EStateM.Result Fault Cursor α → Prop
  | .ok a c' => P a ∧ c.Passes ts h c'
  | .error f _ => f.OfMeaning ∧ ∀ a, ¬ P a

namespace Outcome

variable {α β : Type} {c c₁ : Cursor} {ts us : List Token} {t : Token} {h k : Nat}
  {P : α → Prop} {Q : β → Prop} {res : EStateM.Result Fault Cursor α}

theorem of_passes (h₁ : c.Passes ts h c₁) (h₂ : Outcome c₁ us k P res) :
    Outcome c (ts ++ us) (max h k) P res :=
  match res, h₂ with
  | .ok _ _, ⟨ha, h₂⟩ => ⟨ha, h₁.trans h₂⟩
  | .error _ _, hf => hf

theorem of_skip {rest : List Token} (hc : c.rest = t :: rest) (h₂ : Outcome c.skip us k P res) :
    Outcome c (t :: us) k P res := by
  simpa using of_passes (.single (head?_of_rest hc)) h₂

theorem mono {R : α → Prop} (hPR : ∀ a, P a ↔ R a) (h₁ : Outcome c ts h P res) :
    Outcome c ts h R res := by
  obtain rfl : P = R := funext fun a => propext (hPR a)
  exact h₁

theorem bind {x : Reading α} {f : α → Reading β} (hx : Outcome c ts h P (x.run c))
    (hQ : ∀ b, Q b → ∃ a, P a)
    (hf : ∀ a c₁, P a → c.Passes ts h c₁ → Outcome c₁ us k Q ((f a).run c₁)) :
    Outcome c (ts ++ us) (max h k) Q ((x >>= f).run c) := by
  rw [EStateM.run_bind]
  rcases hr : x.run c with ⟨a, c₁⟩ | ⟨e, c₁⟩ <;> rw [hr] at hx
  · exact of_passes hx.2 (hf a c₁ hx.1 hx.2)
  · refine ⟨hx.1, fun b hb => ?_⟩
    obtain ⟨a, ha⟩ := hQ b hb
    exact hx.2 a ha

/-- A run that does nothing to the cursor after a value. -/
theorem map {x : Reading α} {f : α → Reading β} (hx : Outcome c ts h P (x.run c))
    (hQ : ∀ b, Q b → ∃ a, P a)
    (hf : ∀ a c₁, P a → c.Passes ts h c₁ → Outcome c₁ [] 0 Q ((f a).run c₁)) :
    Outcome c ts h Q ((x >>= f).run c) := by
  simpa using hx.bind hQ hf

end Outcome

section Bind

variable {α β : Type} {x : Option α} {f : α → Option β} {b : β}

theorem exists_of_bind_eq_some (h : (x >>= f) = some b) : ∃ a, x = some a := by
  obtain ⟨a, ha, -⟩ := Option.bind_eq_some_iff.1 h
  exact ⟨a, ha⟩

theorem exists_numeral_of_bind_eq_some {x : Option Nat} {f : Nat → Option β}
    (h : (x >>= f) = some b) : ∃ n : Numeral, x = some n.value := by
  obtain ⟨value, hv, -⟩ := Option.bind_eq_some_iff.1 h
  exact ⟨⟨value, 0⟩, hv⟩

end Bind

namespace Reading

variable {α β : Type} {c c' : Cursor} {t : Token} {ts rest : List Token}

theorem run_bind_ok {x : Reading α} {f : α → Reading β} {b : β} :
    (x >>= f).run c = .ok b c' ↔ ∃ a c₁, x.run c = .ok a c₁ ∧ (f a).run c₁ = .ok b c' := by
  rw [EStateM.run_bind]
  rcases x.run c with ⟨a, c₁⟩ | ⟨e, c₁⟩
  · simp only [EStateM.Result.ok.injEq]
    exact ⟨fun h => ⟨a, c₁, ⟨rfl, rfl⟩, h⟩, fun ⟨_, _, ⟨rfl, rfl⟩, h⟩ => h⟩
  · simp

theorem run_bind_of_ok {x : Reading α} {f : α → Reading β} {a : α} {c₁ : Cursor}
    (hx : x.run c = .ok a c₁) : (x >>= f).run c = (f a).run c₁ := by
  rw [EStateM.run_bind, hx]

theorem run_bind_congr {x y : Reading α} {f g : α → Reading β} (hx : x.run c = y.run c)
    (hf : ∀ a c', y.run c = .ok a c' → (f a).run c' = (g a).run c') :
    (x >>= f).run c = (y >>= g).run c := by
  rw [EStateM.run_bind, EStateM.run_bind, hx]
  rcases hr : y.run c with ⟨a, c'⟩ | ⟨e, c'⟩
  · exact hf a c' hr
  · rfl

theorem run_pure_ok {a b : α} : (pure a : Reading α).run c = .ok b c' ↔ a = b ∧ c = c' := by
  rw [EStateM.run_pure, EStateM.Result.ok.injEq]

@[simp] theorem run_peek (c : Cursor) : peek.run c = .ok c.rest.head? c := rfl

@[simp] theorem run_here (c : Cursor) : here.run c = .ok c.passed c := rfl

theorem run_advance (ht : c.rest.head? = some t) : advance.run c = .ok () c.skip := by
  obtain ⟨rest, hr⟩ := List.head?_eq_some_iff.1 ht
  simp [advance, Cursor.skip, hr]

theorem run_failAt_ne_ok {place : Place} {p : Problem} {a : α} :
    (failAt place p).run c ≠ .ok a c' :=
  nofun

theorem run_refuse (p : Token → Problem) (c : Cursor) :
    ∃ e, (refuse p : Reading α).run c = .error e c := by
  rw [refuse, run_bind_of_ok (run_peek c)]
  rcases c.rest.head? with _ | t
  · exact ⟨_, rfl⟩
  · cases t <;> exact ⟨_, rfl⟩

theorem run_refuse_ne_ok {p : Token → Problem} {a : α} : (refuse p).run c ≠ .ok a c' := by
  obtain ⟨e, he⟩ := run_refuse (α := α) p c
  rw [he]
  nofun

theorem run_orFailAt_ok {number : Nat} {e : Except BadParameter α} {a : α} :
    (orFailAt number e).run c = .ok a c' ↔ e = .ok a ∧ c = c' := by
  cases e with
  | ok b => rw [orFailAt, run_pure_ok, Except.ok.injEq]
  | error b => simp [orFailAt, run_failAt_ne_ok]

theorem orFailAt_outcome (number : Nat) (e : Except BadParameter α) :
    Outcome c [] 0 (e.toOption = some ·) ((orFailAt number e).run c) := by
  cases e with
  | ok a => exact ⟨rfl, .refl c⟩
  | error b => exact ⟨trivial, nofun⟩

theorem run_accept (t : Token) (c : Cursor) :
    (accept t).run c = if c.rest.head? = some t then .ok true c.skip else .ok false c := by
  simp only [accept, EStateM.run_bind, run_peek]
  split
  · rename_i ht
    rw [run_bind_of_ok (run_advance ht)]
    rfl
  · rfl

theorem run_accept_self (hc : c.rest = t :: rest) : (accept t).run c = .ok true c.skip := by
  rw [run_accept, if_pos (head?_of_rest hc)]

theorem run_accept_other (hc : c.rest = rest) (ht : rest.head? ≠ some t) :
    (accept t).run c = .ok false c := by
  rw [run_accept, hc, if_neg ht]

theorem accept_passes {b : Bool} (h : (accept t).run c = .ok b c') :
    c.Passes (if b then [t] else []) 0 c' := by
  rw [run_accept] at h
  split_ifs at h with ht <;> cases h
  · exact .single ht
  · exact .refl c

theorem expectSymbol_passes {s : Symbol} {u : Unit} (h : (expectSymbol s).run c = .ok u c') :
    c.Passes [.symbol s] 0 c' := by
  obtain ⟨b, c₁, ha, h⟩ := run_bind_ok.1 h
  cases b with
  | true =>
    obtain ⟨-, rfl⟩ := run_pure_ok.1 h
    exact accept_passes ha
  | false => exact absurd h run_refuse_ne_ok

theorem run_expectSymbol {s : Symbol} (hc : c.rest = .symbol s :: rest) :
    (expectSymbol s).run c = .ok () c.skip := by
  rw [expectSymbol, run_bind_of_ok (run_accept_self hc)]
  rfl

theorem expectKeyword_passes {k : Keyword} {u : Unit} (h : (expectKeyword k).run c = .ok u c') :
    c.Passes [.keyword k] 0 c' := by
  obtain ⟨b, c₁, ha, h⟩ := run_bind_ok.1 h
  cases b with
  | true =>
    obtain ⟨-, rfl⟩ := run_pure_ok.1 h
    exact accept_passes ha
  | false => exact absurd h run_refuse_ne_ok

theorem run_expectKeyword {k : Keyword} (hc : c.rest = .keyword k :: rest) :
    (expectKeyword k).run c = .ok () c.skip := by
  rw [expectKeyword, acceptKeyword, run_bind_of_ok (run_accept_self hc)]
  rfl

theorem string?_passes {s : Option String} (h : string?.run c = .ok s c') :
    c.Passes (s.map Token.string).toList 0 c' := by
  simp only [string?, EStateM.run_bind, run_peek] at h
  split at h
  · rename_i content ht
    rw [run_bind_of_ok (run_advance ht)] at h
    cases h
    exact .single ht
  · cases h
    exact .refl c

theorem run_string? {s : String} (hc : c.rest = .string s :: rest) :
    string?.run c = .ok (some s) c.skip := by
  have ht := head?_of_rest hc
  simp only [string?, EStateM.run_bind, run_peek, ht, run_advance ht]
  rfl

theorem run_string?_none (hc : c.rest = rest) (ht : ∀ s, rest.head? ≠ some (.string s)) :
    string?.run c = .ok none c := by
  simp only [string?, EStateM.run_bind, run_peek, hc]
  rfl

theorem string_passes {s : String} (h : string.run c = .ok s c') :
    c.Passes [.string s] 0 c' := by
  obtain ⟨s?, c₁, hs, h⟩ := run_bind_ok.1 h
  cases s? with
  | some s' =>
    obtain ⟨rfl, rfl⟩ := run_pure_ok.1 h
    exact string?_passes hs
  | none => exact absurd h run_refuse_ne_ok

theorem run_string {s : String} (hc : c.rest = .string s :: rest) :
    string.run c = .ok s c.skip := by
  rw [string, run_bind_of_ok (run_string? hc)]
  rfl

theorem name_passes {s : String} (h : name.run c = .ok s c') :
    ∃ n : Grammar.Name, n.text = s ∧ c.Passes [n.token] 0 c' := by
  simp only [name, EStateM.run_bind, run_peek] at h
  split at h
  · rename_i s' ht
    rw [run_bind_of_ok (run_advance ht)] at h
    cases h
    exact ⟨.word _, rfl, .single ht⟩
  · rename_i s' ht
    rw [run_bind_of_ok (run_advance ht)] at h
    cases h
    exact ⟨.quoted _, rfl, .single ht⟩
  · exact absurd h run_refuse_ne_ok

theorem run_name {n : Grammar.Name} (hc : c.rest = n.token :: rest) :
    name.run c = .ok n.text c.skip := by
  have ht := head?_of_rest hc
  cases n <;>
  · simp only [Grammar.Name.token] at ht
    simp only [name, EStateM.run_bind, run_peek, ht, run_advance ht]
    rfl

theorem number?_eq (digits : String) :
    Grammar.number? digits = Text.numberUpTo? largestInteger digits.toList :=
  (Text.numberUpTo?_eq _ _).symm

theorem integer_passes {n : Numeral} (h : integer.run c = .ok n c') :
    ∃ digits, Grammar.number? digits = some n.value ∧ c.Passes [.integer digits] 0 c' := by
  simp only [integer, EStateM.run_bind, run_peek] at h
  split at h
  · rename_i digits ht
    simp only [EStateM.run_bind, run_here] at h
    split at h
    · rename_i value hv
      rw [run_bind_of_ok (run_advance ht)] at h
      cases h
      exact ⟨digits, (number?_eq _).trans hv, .single ht⟩
    · exact absurd h run_failAt_ne_ok
  · exact absurd h run_refuse_ne_ok

theorem integer_outcome {digits : String} (hc : c.rest = .integer digits :: rest) :
    Outcome c [.integer digits] 0 (fun n => Grammar.number? digits = some n.value)
      (integer.run c) := by
  have ht := head?_of_rest hc
  simp only [integer, EStateM.run_bind, run_peek, ht, run_here, number?_eq]
  split
  · rename_i value hv
    rw [run_bind_of_ok (run_advance ht)]
    exact ⟨hv, .single ht⟩
  · rename_i hv
    exact ⟨trivial, fun n hn => by simp [hv] at hn⟩

end Reading

/-- Whether a token may stand behind a type that is complete. -/
def Token.endsType : Token → Bool
  | .symbol .comma | .symbol .closeAngle | .symbol .closeParen | .string _ => true
  | _ => false

/-- Whether a token may stand behind a base that is complete. -/
def Token.endsBase : Token → Bool
  | .keyword .not | .keyword .null | .keyword .array | .keyword .multiset => true
  | t => t.endsType

/-- What follows does not go on with the base before it. -/
def EndsBase (rest : List Token) : Prop :=
  ∀ t, rest.head? = some t → t.endsBase

/-- What follows does not go on with the type before it. -/
def EndsType (rest : List Token) : Prop :=
  ∀ t, rest.head? = some t → t.endsType

theorem EndsBase.head?_ne {rest : List Token} {t : Token} (h : EndsBase rest)
    (ht : t.endsBase = false) : rest.head? ≠ some t := by
  intro hr
  rw [h t hr] at ht
  cases ht

theorem EndsType.head?_ne {rest : List Token} {t : Token} (h : EndsType rest)
    (ht : t.endsType = false) : rest.head? ≠ some t := by
  intro hr
  rw [h t hr] at ht
  cases ht

theorem EndsType.endsBase {rest : List Token} (h : EndsType rest) : EndsBase rest := by
  intro t ht
  have := h t ht
  unfold Token.endsBase
  split <;> simp_all

end SqlTypes
