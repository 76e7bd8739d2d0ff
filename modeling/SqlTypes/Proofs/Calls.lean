import SqlTypes.Proofs.Completing
import SqlTypes.Proofs.Keeping
import SqlTypes.Proofs.Lookahead
import SqlTypes.Proofs.Resuming

/-!
# Calling a parser again and again

A parser may be called as often as one likes, whatever came of the calls before. It always stands in
front of a lexeme of its text, and does not go back (`Parser.Standing.parse`). A call that reads no
type to its end leaves types open, so every call may add one level to the deepest nesting. Once a
call has given a type, the parser stands at the end of its text for good
(`Parser.parse_of_atEnd`). `Parser.afterCalls_sound` puts this together.
-/

namespace SqlTypes

namespace Reading

variable {c : Cursor}

/-- What is behind a type is looked at and not passed. -/
theorem finish_ending (t : DataType) (c : Cursor) : finish ((ending t).run c) = c := by
  rw [ending, run_bind_of_ok (run_peek c)]
  rcases hu : c.rest.head? with _ | u
  · rfl
  · obtain ⟨e, he⟩ := run_refuse (α := DataType) .unexpectedToken c
    dsimp only
    rw [he]
    rfl

/-- At the end of the input, there is no type to be read, and nothing to be passed. -/
theorem description_atEnd (loader : Loader) (limit : Nat) (hc : c.rest = []) : ∃ e c',
    (description loader limit).run c = .error e c' ∧ c'.rest = [] ∧ c'.passed = c.passed ∧
      (e = .problem .endOfInput .unexpectedEnd ∨
        e = .problem (.token c.passed) (.nestingTooDeep limit)) := by
  rw [run_description, EStateM.run_bind]
  cases limit - c.depth with
  | zero => exact ⟨_, _, rfl, hc, rfl, .inr rfl⟩
  | succ levels =>
    have hend : c.started.entered.rest = [] := hc
    rw [typeExpression_succ, run_bind_of_ok (run_begin c), nested, run_bind_of_ok (run_enter _),
      EStateM.run_bind, EStateM.run_bind, base, run_bind_of_ok (run_peek _), hend]
    dsimp only [List.head?_nil]
    rw [run_refuse_nil hend]
    exact ⟨_, _, rfl, hc, rfl, .inl rfl⟩

end Reading

namespace Parser

variable {context : Context} {s : String} {p : Parser} {l : Lexeme} {n : Nat}

/-- What comes of a type expression from where the parser stands. -/
def expression (p : Parser) : EStateM.Result Fault Cursor DataType :=
  let limit := p.context.limits.maxNestingDepth
  (Reading.typeExpression p.context.loader limit (limit - p.cursor.depth)).run p.cursor

/-- The next call reads a type to its end, whatever comes behind it. -/
def CompletesType (p : Parser) : Prop :=
  ∃ t c, p.expression = .ok t c

theorem parse_of_completesType {t : DataType} {c : Cursor} (h : p.expression = .ok t c) :
    p.parse = p.after ((Reading.ending t).run c) := by
  rw [parse_eq_after, Reading.run_description, EStateM.run_bind, ← expression, h]

theorem parse_of_interrupted {e : Fault} {c : Cursor} (h : p.expression = .error e c) :
    p.parse = (.error (p.failure e), { p with cursor := c }) := by
  rw [parse_eq_after, Reading.run_description, EStateM.run_bind, ← expression, h]
  rfl

/-- A parser stays behind the type that it has read, and where it was interrupted. -/
theorem cursor_parse (p : Parser) : p.parse.2.cursor = Reading.finish p.expression := by
  rcases h : p.expression with ⟨t, c⟩ | ⟨e, c⟩
  · rw [parse_of_completesType h, cursor_after, Reading.finish_ending]
    rfl
  · rw [parse_of_interrupted h]
    rfl

/-- The parser stands in front of the lexeme `l` of the text `s`, which is the last one that it has
looked at. -/
structure StandsAt (s : String) (l : Lexeme) (p : Parser) : Prop where
  lexeme : (tokenize s)[p.tokensConsumed - 1]? = some l
  token : p.cursor.rest.head? = l.token
  offset : p.offset (.token p.cursor.passed) = l.start

/-- A parser of the text `s`, wherever it stands, in whatever open types. -/
structure Standing (context : Context) (s : String) (p : Parser) : Prop where
  context : p.context = context
  input : p.input = s
  lexemes : p.lexemes = tokenize s
  within : p.cursor.Within (tokensOf s)
  depth : p.cursor.depth ≤ p.maxDepth

theorem standing_start : (start context s).Standing context s :=
  ⟨rfl, rfl, rfl, ⟨rfl, Nat.zero_le _⟩, Nat.le_refl 0⟩

theorem Standing.advanced (hp : p.Standing context s) :
    p.cursor.Advanced (tokensOf s) p.parse.2.cursor := by
  rw [parse_eq_after, cursor_after]
  exact Reading.description_advances hp.within hp.depth

theorem Standing.parse (hp : p.Standing context s) : p.parse.2.Standing context s := by
  obtain ⟨hwithin, -, -, hdepth⟩ := hp.advanced
  rw [parse_eq_after] at hwithin hdepth ⊢
  generalize (Reading.description _ _).run p.cursor = r at hwithin hdepth ⊢
  cases r <;> exact ⟨hp.context, hp.input, hp.lexemes, hwithin, hdepth⟩

theorem Standing.tokensConsumed_le (hp : p.Standing context s) :
    1 ≤ p.tokensConsumed ∧ p.tokensConsumed ≤ (tokenize s).length :=
  ⟨Nat.le_add_left 1 _, length_tokenize s ▸ Nat.succ_le_succ hp.within.passed⟩

theorem Standing.exists_standsAt (hp : p.Standing context s) : ∃ l, p.StandsAt s l := by
  obtain ⟨l, hl⟩ := exists_getElem?_tokenize hp.within.passed
  refine ⟨l, hl, ?_, ?_⟩
  · rw [token_of_getElem?_tokenize hl, hp.within.rest, List.head?_drop]
  · simp only [offset, hp.lexemes, hl]

/-- What a call makes of the depth, where at most `b` types were ever open before. -/
theorem Standing.opens {b : Nat} (hp : p.Standing context s) (hb : p.maxDepth ≤ b)
    (hlimit : context.limits.maxNestingDepth ≤ b) :
    p.parse.2.maxDepth ≤ b + 1 ∧
      (p.CompletesType → p.parse.2.cursor.depth = p.cursor.depth) ∧
      (¬p.CompletesType → p.cursor.depth < p.parse.2.cursor.depth) := by
  have hdepth := hp.depth
  have hlevels : p.cursor.depth + (context.limits.maxNestingDepth - p.cursor.depth) < b + 1 := by
    omega
  have hopens := Reading.typeExpression_opens context.loader context.limits.maxNestingDepth _
    hlevels ⟨rfl, hp.depth, Nat.le_succ_of_le hb⟩
  rw [← hp.context, ← expression] at hopens
  rw [maxDepth, cursor_parse]
  rcases h : p.expression with ⟨t, c⟩ | ⟨e, c⟩ <;> rw [h] at hopens
  · exact ⟨hopens.deepest_le, fun _ => hopens.depth, fun hn => absurd ⟨t, c, h⟩ hn⟩
  · obtain ⟨hlt, hdeepest⟩ := hopens
    have hn : ¬p.CompletesType := by
      rintro ⟨t, c, hc⟩
      rw [h] at hc
      cases hc
    exact ⟨hdeepest, fun hcompletes => absurd hcompletes hn, fun _ => hlt⟩

/-- The parser after so many calls, whatever came of them. -/
def afterCalls (p : Parser) : Nat → Parser
  | 0 => p
  | n + 1 => (p.afterCalls n).parse.2

theorem afterCalls_parse (p : Parser) : ∀ n : Nat, p.parse.2.afterCalls n = p.afterCalls (n + 1)
  | 0 => rfl
  | n + 1 => congrArg (·.parse.2) (afterCalls_parse p n)

/-- `parseTimes` makes one such call after the other. -/
theorem parseTimes_eq : ∀ (n : Nat) (p : Parser),
    parseTimes n p = (List.range n).map fun i => (p.afterCalls i).parse
  | 0, _ => rfl
  | n + 1, p => by
    rw [parseTimes, parseTimes_eq n, List.range_succ_eq_map, List.map_cons, List.map_map]
    simp only [afterCalls_parse]
    rfl

theorem Standing.afterCalls (hp : p.Standing context s) :
    ∀ n : Nat, (p.afterCalls n).Standing context s
  | 0 => hp
  | n + 1 => (hp.afterCalls n).parse

/-- Every call goes at most one level deeper than those before it, or than the limit. -/
theorem maxDepth_afterCalls (context : Context) (s : String) : ∀ n : Nat,
    ((start context s).afterCalls n).maxDepth ≤ context.limits.maxNestingDepth + n
  | 0 => Nat.zero_le _
  | n + 1 => ((standing_start.afterCalls n).opens (maxDepth_afterCalls context s n)
      (Nat.le_add_right _ n)).1

/-! ## After a type -/

theorem Standing.tokensConsumed_of_atEnd (hp : p.Standing context s) (hend : p.cursor.rest = []) :
    p.tokensConsumed = (tokenize s).length := by
  have hlen := List.drop_eq_nil_iff.1 (hp.within.rest.symm.trans hend)
  rw [length_tokenize, tokensConsumed, Nat.le_antisymm hp.within.passed hlen]

/-- A call that has given a type leaves nothing of the text. -/
theorem rest_of_parse_ok {t : DataType} (h : p.parse.1 = .ok t) : p.parse.2.cursor.rest = [] := by
  rw [parse_eq_after] at h ⊢
  rcases hr : (Reading.description p.context.loader p.context.limits.maxNestingDepth).run p.cursor
    with ⟨u, c⟩ | ⟨e, c⟩ <;> rw [hr] at h
  · obtain ⟨q, htokens, -, -, hpasses⟩ := Reading.description_passes hr
    have hrest := hpasses.rest
    rw [htokens] at hrest
    exact List.append_right_eq_self.1 hrest.symm
  · cases h

/-- No parser refuses a text for its length. -/
theorem kind_parse_ne {f : Failure} (h : p.parse.1 = .error f) : f.kind ≠ .inputTooLong := by
  rw [parse_eq_after] at h
  rcases hr : (Reading.description p.context.loader p.context.limits.maxNestingDepth).run p.cursor
    with ⟨t, c⟩ | ⟨e, c⟩ <;> rw [hr] at h
  · cases h
  · obtain rfl := Except.error.inj h
    cases e with
    | rawRestore => nofun
    | problem place b => exact b.kind_ne.2

/-- At the end of the text, a call fails and leaves the parser there. -/
theorem parse_of_atEnd (h : p.cursor.rest = []) :
    p.parse.2.cursor.rest = [] ∧ p.parse.2.tokensConsumed = p.tokensConsumed ∧
      ∃ f, p.parse.1 = .error f ∧ (f.kind = .unexpectedEnd ∨ f.kind = .nestingTooDeep) := by
  obtain ⟨e, c, hr, hrest, hpassed, he⟩ := Reading.description_atEnd p.context.loader
    p.context.limits.maxNestingDepth h
  rw [parse_eq_after, hr]
  refine ⟨hrest, congrArg (· + 1) hpassed, _, rfl, ?_⟩
  rcases he with rfl | rfl
  · exact .inl rfl
  · exact .inr rfl

theorem rest_afterCalls {m : Nat} (h : (p.afterCalls m).cursor.rest = []) (hn : m ≤ n) :
    (p.afterCalls n).cursor.rest = [] := by
  induction n, hn using Nat.le_induction with
  | base => exact h
  | succ n _ ih => exact (parse_of_atEnd ih).1

/-- A parser of the text `s` after `n` calls. -/
structure AfterCalls (context : Context) (s : String) (n : Nat) (p : Parser) : Prop where
  /-- The token in hand is that of the last lexeme looked at. -/
  standsAt : ∃ l, p.StandsAt s l
  consumed : 1 ≤ p.tokensConsumed ∧ p.tokensConsumed ≤ (tokenize s).length
  depth : p.cursor.depth ≤ p.maxDepth
  deepest : p.maxDepth ≤ context.limits.maxNestingDepth + n

/-- What one more call changes. -/
structure NextCall (p : Parser) : Prop where
  consumed : p.tokensConsumed ≤ p.parse.2.tokensConsumed
  deepest : p.maxDepth ≤ p.parse.2.maxDepth
  completes : p.parse.1.isOk → p.CompletesType
  completed : p.CompletesType → p.parse.2.cursor.depth = p.cursor.depth
  interrupted : ¬p.CompletesType → p.cursor.depth < p.parse.2.cursor.depth
  /-- Whatever would be thrown, there are never fewer types open than are completed at once. -/
  atOnce : ∀ e : Fault,
    (Reading.descriptionAtOnce e p.context.loader p.context.limits.maxNestingDepth).run p.cursor =
      (Reading.description p.context.loader p.context.limits.maxNestingDepth).run p.cursor

theorem Standing.after (hp : p.Standing context s)
    (hdeepest : p.maxDepth ≤ context.limits.maxNestingDepth + n) : p.AfterCalls context s n where
  standsAt := hp.exists_standsAt
  consumed := hp.tokensConsumed_le
  depth := hp.depth
  deepest := hdeepest

theorem Standing.next (hp : p.Standing context s)
    (hdeepest : p.maxDepth ≤ context.limits.maxNestingDepth + n) : p.NextCall := by
  obtain ⟨-, hcompleted, hinterrupted⟩ := hp.opens hdeepest (Nat.le_add_right _ n)
  refine ⟨Nat.succ_le_succ hp.advanced.passed, hp.advanced.deepest, fun hok => ?_, hcompleted,
    hinterrupted, fun e => by rw [Reading.descriptionAtOnce_eq]⟩
  rcases h : p.expression with ⟨t, c⟩ | ⟨e, c⟩
  · exact ⟨t, c, h⟩
  · rw [parse_of_interrupted h] at hok
    cases hok

/-- A parser of any text is called any number of times. It always stands in front of a lexeme, the
number of lexemes looked at and the deepest nesting do not decrease, and a call that reads no type
to its end leaves more types open than there were. A call that gives a type looks at the end of the
text, and all calls after it fail there. -/
theorem afterCalls_sound (context : Context) (s : String) (n : Nat) :
    let p := (start context s).afterCalls n
    p.AfterCalls context s n ∧ p.NextCall ∧
      ∀ t, p.parse.1 = .ok t → p.parse.2.tokensConsumed = (tokenize s).length ∧
        ∀ m > n, let q := (start context s).afterCalls m
          (∃ f, q.parse.1 = .error f ∧ (f.kind = .unexpectedEnd ∨ f.kind = .nestingTooDeep)) ∧
            q.parse.2.tokensConsumed = q.tokensConsumed := by
  intro p
  have hp : p.Standing context s := standing_start.afterCalls n
  have hdeepest : p.maxDepth ≤ context.limits.maxNestingDepth + n := maxDepth_afterCalls context s n
  refine ⟨hp.after hdeepest, hp.next hdeepest, fun t ht => ?_⟩
  have hend : ((start context s).afterCalls (n + 1)).cursor.rest = [] := rest_of_parse_ok ht
  refine ⟨hp.parse.tokensConsumed_of_atEnd hend, fun m hm => ?_⟩
  obtain ⟨-, hconsumed, hfails⟩ := parse_of_atEnd (rest_afterCalls hend hm)
  exact ⟨hfails, hconsumed⟩

/-- The second call reads the second `INT`, and the third one fails. -/
theorem afterCalls_sound_secondInt :
    let p := (start {} "INT INT").afterCalls 1
    p.parse.1 = .ok { shape := .atom (.plain .int) } ∧ p.parse.2.tokensConsumed = 3 ∧
      ∃ f, p.parse.2.parse.1 = .error f ∧ (f.kind = .unexpectedEnd ∨ f.kind = .nestingTooDeep) := by
  intro p
  have hp : p.parse.1 = .ok { shape := .atom (.plain .int) } := by decide +kernel
  have hlen : (tokenize "INT INT").length = 3 := by decide +kernel
  obtain ⟨-, -, hok⟩ := afterCalls_sound {} "INT INT" 1
  obtain ⟨hconsumed, hlater⟩ := hok _ hp
  obtain ⟨hfails, -⟩ := hlater 2 (Nat.lt_succ_self 1)
  exact ⟨hp, hconsumed.trans hlen, hfails⟩

end Parser

end SqlTypes
