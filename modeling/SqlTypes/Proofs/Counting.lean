import Mathlib.Algebra.Ring.Nat
import Mathlib.Data.List.DropRight
import SqlTypes.Metrics
import SqlTypes.Proofs.Calls

/-!
# What the metrics count

In a session, texts are parsed and the metrics are reset now and then. After any session the
counters are those of the calls since the last reset, modulo 2^64 (`Metrics.after_eq`): how many
calls, how many of them failed, and how many tokens they looked at. A call looks at all lexemes of
its text if it succeeds, and at none if the text is too long. If it fails in between, it looks at
those up to where its parser stands (`Call.accounted`).
-/

namespace SqlTypes

/-- A text to be parsed in a context. -/
structure Call where
  context : Context
  input : String

namespace Call

def result (c : Call) : Except Failure DataType :=
  parse c.context c.input

def failed (c : Call) : Bool :=
  !c.result.isOk

/-- The tokens that it looks at. -/
def tokens (c : Call) : Nat :=
  (report c.context c.input).tokens

end Call

inductive Request where
  | parse (c : Call)
  | reset

/-- The call that a request makes, if it makes one. -/
def Request.call? : Request → Option Call
  | .parse c => some c
  | .reset => none

/-- The calls behind the last reset. -/
def sinceReset (session : List Request) : List Call :=
  (session.rtakeWhile (·.call?.isSome)).filterMap (·.call?)

theorem sinceReset_parse (session : List Request) (c : Call) :
    sinceReset (session ++ [.parse c]) = sinceReset session ++ [c] := by
  rw [sinceReset, List.rtakeWhile_concat_pos _ _ _ rfl, List.filterMap_append]
  rfl

theorem sinceReset_reset (session : List Request) : sinceReset (session ++ [.reset]) = [] := by
  rw [sinceReset, List.rtakeWhile_concat_neg _ _ _ Bool.false_ne_true]
  rfl

namespace Metrics

/-- What a request makes of the metrics. -/
def serve (m : Metrics) : Request → Metrics
  | .parse c =>
    match (parseCounting c.context c.input).run m with
    | .ok _ m => m
    | .error _ m => m
  | .reset => {}

/-- The metrics after a session. -/
def after (session : List Request) : Metrics :=
  session.foldl serve {}

/-- The counters of some calls. -/
def ofCalls (calls : List Call) : Metrics where
  parses := .ofNat calls.length
  errors := .ofNat (calls.countP (·.failed))
  tokens := .ofNat (calls.map (·.tokens)).sum

theorem run_parseCounting (c : Call) (m : Metrics) :
    (parseCounting c.context c.input).run m =
      match c.result with
      | .ok t => .ok t (m.record (report c.context c.input))
      | .error f => .error f (m.record (report c.context c.input)) := by
  rw [parseCounting, Call.result, parse]
  cases (report c.context c.input).result <;> rfl

theorem serve_parse (c : Call) (m : Metrics) :
    m.serve (.parse c) = m.record (report c.context c.input) := by
  rw [serve, run_parseCounting]
  cases c.result <;> rfl

/-- One more call counts as one more. -/
theorem record_ofCalls (calls : List Call) (c : Call) :
    (ofCalls calls).record (report c.context c.input) = ofCalls (calls ++ [c]) := by
  have hfailed : (report c.context c.input).result.isOk = !c.failed := by
    rw [Call.failed, Bool.not_not]
    rfl
  rw [record, hfailed, ofCalls, ofCalls, List.length_append, List.countP_append, List.map_append,
    List.sum_append, List.countP_singleton, List.map_singleton, List.sum_singleton, Call.tokens]
  cases c.failed <;> simp [UInt64.ofNat_add]

theorem after_eq (session : List Request) : after session = ofCalls (sinceReset session) := by
  induction session using List.reverseRecOn with
  | nil => rfl
  | append_singleton session q ih =>
    rw [after, List.foldl_append, ← after, List.foldl_cons, List.foldl_nil, ih]
    cases q with
    | parse c => rw [serve_parse, record_ofCalls, sinceReset_parse]
    | reset =>
      rw [sinceReset_reset]
      rfl

end Metrics

namespace Call

/-- What a call contributes to the tokens. -/
structure Accounted (c : Call) : Prop where
  tooLong : ∀ f, c.result = .error f → f.kind = .inputTooLong → c.tokens = 0
  accepted : ∀ t, c.result = .ok t → c.tokens = (tokenize c.input).length
  /-- The last lexeme looked at is the one that the parser stands in front of. -/
  refused : ∀ f, c.result = .error f → f.kind ≠ .inputTooLong →
    let p := (Parser.start c.context c.input).parse.2
    (1 ≤ c.tokens ∧ c.tokens ≤ (tokenize c.input).length) ∧ c.tokens = p.tokensConsumed ∧
      ∃ l, p.StandsAt c.input l

theorem accounted_of_tooLong {c : Call}
    (h : c.context.limits.maxInputLength < c.input.utf8ByteSize) : c.Accounted := by
  have hresult : c.result =
      .error (.inputTooLong c.input.utf8ByteSize c.context.limits.maxInputLength) := by
    rw [result, parse, report, if_pos h]
  have htokens : c.tokens = 0 := by rw [tokens, report, if_pos h]
  refine ⟨fun _ _ _ => htokens, fun t ht => ?_, fun f hf hkind => ?_⟩
  · rw [hresult] at ht
    cases ht
  · rw [hresult] at hf
    cases hf
    exact absurd rfl hkind

theorem accounted_of_le {c : Call}
    (h : c.input.utf8ByteSize ≤ c.context.limits.maxInputLength) : c.Accounted := by
  have hp : (Parser.start c.context c.input).parse.2.Standing c.context c.input :=
    Parser.standing_start.parse
  have hresult : c.result = (Parser.start c.context c.input).parse.1 := parse_eq h
  have htokens : c.tokens = (Parser.start c.context c.input).parse.2.tokensConsumed := by
    rw [tokens, report, if_neg (Nat.not_lt.2 h)]
  refine ⟨fun f hf hkind => ?_, fun t ht => ?_, fun f hf hkind => ?_⟩
  · exact absurd hkind (Parser.kind_parse_ne (hresult.symm.trans hf))
  · rw [htokens]
    exact hp.tokensConsumed_of_atEnd (Parser.rest_of_parse_ok (hresult.symm.trans ht))
  · rw [htokens]
    exact ⟨hp.tokensConsumed_le, rfl, hp.exists_standsAt⟩

theorem accounted (c : Call) : c.Accounted :=
  (Nat.lt_or_ge _ _).elim accounted_of_tooLong accounted_of_le

end Call

/-- After any session, the counters are modulo 2^64 those of the calls since the last reset. -/
theorem metrics_account (session : List Request) :
    let m := Metrics.after session
    let calls := sinceReset session
    m.parses.toNat = calls.length % 2 ^ 64 ∧
      m.errors.toNat = calls.countP (·.failed) % 2 ^ 64 ∧
      m.tokens.toNat = (calls.map (·.tokens)).sum % 2 ^ 64 ∧
      (calls.length < 2 ^ 64 → m.errors ≤ m.parses) ∧ ∀ c ∈ calls, c.Accounted := by
  intro m calls
  have hm : m = .ofCalls calls := Metrics.after_eq session
  have hparses : m.parses.toNat = calls.length % 2 ^ 64 := by
    rw [hm]
    exact UInt64.toNat_ofNat'
  have herrors : m.errors.toNat = calls.countP (·.failed) % 2 ^ 64 := by
    rw [hm]
    exact UInt64.toNat_ofNat'
  have htokens : m.tokens.toNat = (calls.map (·.tokens)).sum % 2 ^ 64 := by
    rw [hm]
    exact UInt64.toNat_ofNat'
  refine ⟨hparses, herrors, htokens, fun hlt => ?_, fun c _ => c.accounted⟩
  have hle : calls.countP (·.failed) ≤ calls.length := List.countP_le_length
  rw [UInt64.le_iff_toNat_le, hparses, herrors, Nat.mod_eq_of_lt hlt,
    Nat.mod_eq_of_lt (hle.trans_lt hlt)]
  exact hle

/-- Two calls are made after the reset, one of which is refused. -/
def resetOnce : List Request :=
  [.parse ⟨{}, "INT"⟩, .reset, .parse ⟨{}, "INT ARRAY"⟩, .parse ⟨{}, "CHAR(x)"⟩]

theorem metrics_account_resetOnce :
    let m := Metrics.after resetOnce
    m.parses.toNat = 2 ∧ m.errors.toNat = 1 ∧ m.tokens.toNat = 6 ∧ m.errors ≤ m.parses := by
  intro m
  have hcalls : sinceReset resetOnce = [⟨{}, "INT ARRAY"⟩, ⟨{}, "CHAR(x)"⟩] := rfl
  obtain ⟨hparses, herrors, htokens, hle, -⟩ := metrics_account resetOnce
  rw [hcalls] at hparses herrors htokens hle
  have hfailed : [(⟨{}, "INT ARRAY"⟩ : Call), ⟨{}, "CHAR(x)"⟩].countP (·.failed) = 1 := by
    decide +kernel
  have hsum : ([(⟨{}, "INT ARRAY"⟩ : Call), ⟨{}, "CHAR(x)"⟩].map (·.tokens)).sum = 6 := by
    decide +kernel
  exact ⟨hparses, herrors.trans (congrArg (· % 2 ^ 64) hfailed),
    htokens.trans (congrArg (· % 2 ^ 64) hsum), hle (by decide)⟩

end SqlTypes
