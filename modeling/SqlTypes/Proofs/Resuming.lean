import SqlTypes.Proofs.Concatenation
import SqlTypes.Proofs.SideBySide

/-!
# Going on with a parser

A parser that has met with an unexpected token has read a whole type before it and stands in front
of it (`Parser.Ready.of_parse`), however often it was asked before (`Parser.Ready.of_parseTimes`).
From there it reads what is left of the text like a new parser that is given only this
(`Parser.parse_resumed`): token by token the two runs are the same, further on in the one text than
in the other.
-/

namespace SqlTypes

/-- Something is left behind a whole type. -/
def Fault.isLeftover : Fault → Bool
  | .problem _ (.unexpectedToken _) => true
  | _ => false

namespace Reading

variable {α : Type} {x : Reading α} {inner : Reading DataType} {loader : Loader}

/-- Whatever `x` reads, it does not complain of what is left behind a type. -/
abbrev MindsItself (x : Reading α) : Prop :=
  Leads (fun _ => True) x (fun _ _ => True) fun f _ => f.isLeftover = false

theorem mindsItself_of_alike {V : α → α → Prop} (hi : MindsItself inner)
    (h : Alike (fun _ _ => True) (fun f _ => f.isLeftover = false) inner inner V x x) :
    MindsItself x := by
  have hfault : ∀ (c : Cursor) e e', True →
      Fault.Alike (fun _ _ => True) e e' ∨ e.isLeftover = false → e.isLeftover = false := by
    rintro c e e' - (h | h)
    · cases h with
      | endOfInput => rfl
      | @token _ _ p _ hp =>
        cases p with
        | unexpectedToken => exact hp.elim
        | _ => rfl
    · exact h
  exact (h.leads (fun _ _ _ _ => trivial) (fun _ _ => ⟨0, trivial⟩) hfault hi).mono
    fun _ _ _ => trivial

theorem nothing_mindsItself : MindsItself nothing :=
  fun _ _ => rfl

theorem kept_mindsItself (loader : Loader) :
    Kept loader (fun _ => True) fun f _ => f.isLeftover = false where
  skip _ _ _ _ := trivial
  started _ _ := trivial
  entered _ _ := trivial
  left _ _ := trivial
  tooDeep _ _ _ _ _ := rfl
  base _ hi := mindsItself_of_alike hi (.base (fun _ _ _ _ => rfl) fun _ _ _ _ _ _ => rfl)
  nullability t := mindsItself_of_alike nothing_mindsItself (.nullability t)

/-- What is left behind a type is found at the next token. -/
theorem eq_of_ending {t : DataType} {c c' : Cursor} {e : Fault}
    (h : (ending t).run c = .error e c') (he : e.isLeftover = true) :
    c' = c ∧ ∃ u, c.rest.head? = some u ∧ e = .problem (.token c.passed) (.unexpectedToken u) := by
  rw [ending, run_bind_of_ok (run_peek c)] at h
  rcases hu : c.rest.head? with _ | u <;> rw [hu] at h
  · cases h
  · dsimp only at h
    rw [refuse, run_bind_of_ok (run_peek c), hu] at h
    cases u with
    | unterminated | stray =>
      cases h
      cases he
    | _ =>
      cases h
      exact ⟨rfl, _, rfl, rfl⟩

/-- Where something is left behind a type, the run ends in front of it, with no type open. -/
theorem stands_of_leftover {limit : Nat} {ts : List Token} {c c' : Cursor} {e : Fault}
    (hc : c.Within ts) (h : (description loader limit).run c = .error e c')
    (he : e.isLeftover = true) :
    c'.Within ts ∧ c'.depth = c.depth ∧ c'.passed < ts.length ∧
      ∃ u, e = .problem (.token c'.passed) (.unexpectedToken u) := by
  have hwithin := (kept_sound loader ts).typeExpression limit (limit - c.depth) hc
  have hminds : MindsItself (typeExpression loader limit (limit - c.depth)) :=
    (kept_mindsItself loader).typeExpression limit _
  rw [run_description, EStateM.run_bind] at h
  rcases ht : (typeExpression loader limit (limit - c.depth)).run c with ⟨t, c₁⟩ | ⟨e₁, c₁⟩ <;>
    rw [ht] at h hwithin
  · obtain ⟨_, -, -, hpasses⟩ := typeExpression_passes _ _ _ ht
    obtain ⟨rfl, u, hu, rfl⟩ := eq_of_ending h he
    obtain ⟨rest, hrest⟩ := List.head?_eq_some_iff.1 hu
    have hlen := congrArg List.length (hwithin.rest.symm.trans hrest)
    rw [List.length_drop, List.length_cons] at hlen
    exact ⟨hwithin, hpasses.depth, by omega, u, rfl⟩
  · cases h
    rw [hminds.error trivial ht] at he
    cases he

end Reading

/-- The same failure in a longer text `s` that has so many bytes more before it. -/
def Failure.behind (s : String) (offset : Nat) : Failure → Failure
  | .parse place kind detail _ cause => .parse (offset + place) kind detail s cause
  | f => f

namespace Parser

variable {context : Context} {s : String} {p q : Parser} {f : Failure}

/-- The parser stands somewhere in the text `s`, and no type is open. -/
structure Ready (context : Context) (s : String) (p : Parser) : Prop where
  context : p.context = context
  input : p.input = s
  lexemes : p.lexemes = tokenize s
  within : p.cursor.Within (tokensOf s)
  depth : p.cursor.depth = 0

theorem ready_start : (start context s).Ready context s :=
  ⟨rfl, rfl, rfl, ⟨rfl, Nat.zero_le _⟩, rfl⟩

theorem isLeftover_of_kind {e : Fault} (h : (p.failure e).kind = .unexpectedToken) :
    e.isLeftover = true := by
  cases e with
  | rawRestore => cases h
  | problem place b =>
    cases b with
    | unexpectedToken => rfl
    | _ => cases h

/-- The parser stands in front of the token at this byte offset, and no type is open. -/
structure StoppedAt (context : Context) (s : String) (offset : Nat) (p : Parser) : Prop
    extends Ready context s p where
  lt : p.cursor.passed < (tokensOf s).length
  offset : p.offset (.token p.cursor.passed) = offset

/-- A parser that has met with an unexpected token stands in front of it. -/
theorem Ready.of_parse (hp : p.Ready context s) (h : p.parse = (.error f, q))
    (hf : f.kind = .unexpectedToken) {offset : Nat} (ho : f.offset? = some offset) :
    q.StoppedAt context s offset := by
  rw [parse] at h
  split at h
  · cases h
  rename_i e c hr
  cases h
  obtain ⟨hwithin, hdepth, hlt, u, rfl⟩ :=
    Reading.stands_of_leftover hp.within hr (isLeftover_of_kind hf)
  exact ⟨⟨hp.context, hp.input, hp.lexemes, hwithin, hdepth.trans hp.depth⟩, hlt,
    Option.some.inj ho⟩

/-- So does one that has met with nothing but unexpected tokens. -/
theorem Ready.of_parseTimes {offset : Nat} : ∀ {n : Nat} {p : Parser}, p.Ready context s →
    (∀ answer ∈ parseTimes n p, ∃ f, answer.1 = .error f ∧ f.kind = .unexpectedToken) →
    (parseTimes n p).getLast? = some (.error f, q) → f.offset? = some offset →
      q.StoppedAt context s offset
  | 0, _, _, _, hlast, _ => nomatch hlast
  | n + 1, p, hp, hrun, hlast, ho => by
    obtain ⟨⟨f₁, hf₁, hkind⟩, hrun⟩ := List.forall_mem_cons.1 hrun
    have hparse : p.parse = (.error f₁, p.parse.2) := Prod.ext hf₁ rfl
    rw [parseTimes, List.getLast?_cons, Option.some.injEq] at hlast
    rcases hn : (parseTimes n p.parse.2).getLast? with _ | answer <;> rw [hn] at hlast
    · have hlast : p.parse = (.error f, q) := hlast
      rw [hlast] at hf₁
      cases hf₁
      exact hp.of_parse hlast hkind ho
    · obtain ⟨o, ho₁⟩ : ∃ o, f₁.offset? = some o := by
        cases f₁ with
        | parse o => exact ⟨o, rfl⟩
        | _ => cases hkind
      have hnext := (hp.of_parse hparse hkind ho₁).toReady
      exact hnext.of_parseTimes hrun (hn.trans (congrArg some hlast)) ho

end Parser

/-- `c` stands in front of the same tokens as `c'` and in as many open types, `n` tokens further on,
and `d` types were open before. -/
structure Cursor.Further (n d : Nat) (c c' : Cursor) : Prop where
  rest : c.rest = c'.rest
  passed : c.passed = n + c'.passed
  depth : c.depth = c'.depth
  deepest : c.deepest = max d c'.deepest

theorem Reading.inStep_further (n d : Nat) :
    InStep (fun m m' => m = n + m') (Cursor.Further n d) where
  rest h := h.rest
  depth h := h.depth
  passed h := h.passed
  skip h := ⟨congrArg List.tail h.rest, congrArg (· + 1) h.passed, h.depth, h.deepest⟩
  started h := ⟨h.rest, h.passed, h.depth, h.deepest⟩
  entered h := by
    refine ⟨h.rest, h.passed, congrArg (· + 1) h.depth, ?_⟩
    rw [Cursor.entered_deepest, Cursor.entered_deepest, h.deepest, h.depth, Nat.max_assoc]
  left h := ⟨h.rest, h.passed, congrArg (· - 1) h.depth, h.deepest⟩

namespace Parser

variable {context : Context} {s before after : String} {p q : Parser} {n : Nat} {l : Lexeme}

/-- The places in what is left of a text are those in the whole text further on. -/
theorem offset_behind (hp : p.Ready context s) (hs : s = before ++ after)
    (hl : (tokenize s).drop n = (tokenize after).map (Lexeme.behind before.utf8ByteSize))
    (m : Nat) :
    p.offset (.token (n + m)) =
      before.utf8ByteSize + (start context after).offset (.token m) := by
  have hget : (tokenize s)[n + m]? =
      ((tokenize after)[m]?).map (Lexeme.behind before.utf8ByteSize) := by
    rw [← List.getElem?_drop, hl, List.getElem?_map]
  have hsize : s.utf8ByteSize = before.utf8ByteSize + after.utf8ByteSize := by
    rw [hs, String.utf8ByteSize_append]
  simp only [offset, start, hp.lexemes, hp.input, hget]
  cases (tokenize after)[m]? with
  | none => exact hsize
  | some l => rfl

theorem failure_behind (hp : p.Ready context s) (hs : s = before ++ after)
    (hl : (tokenize s).drop n = (tokenize after).map (Lexeme.behind before.utf8ByteSize))
    {e e' : Fault} (he : Fault.Same (fun m m' => m = n + m') e e') :
    p.failure e = ((start context after).failure e').behind s before.utf8ByteSize := by
  cases he with
  | @token m m' b hm =>
    rw [hm, failure, failure, offset_behind hp hs hl, Failure.behind, hp.input]
  | endOfInput =>
    have hsize : s.utf8ByteSize = before.utf8ByteSize + after.utf8ByteSize := by
      rw [hs, String.utf8ByteSize_append]
    simp only [failure, offset, Failure.behind, start, hp.input, hsize]
  | rawRestore => rfl

theorem parse_eq_after (p : Parser) : p.parse = p.after ((Reading.description p.context.loader
    p.context.limits.maxNestingDepth).run p.cursor) := rfl

/-- From a token on, a parser answers like a new one that is given only what is left of the text. -/
theorem parse_behind (hp : p.Ready context s) (hs : s = before ++ after)
    (htokens : tokensOf after = (tokensOf s).drop p.cursor.passed)
    (hl : (tokenize s).drop p.cursor.passed =
      (tokenize after).map (Lexeme.behind before.utf8ByteSize)) :
    let fresh := (start context after).parse
    p.parse.1 = fresh.1.mapError (Failure.behind s before.utf8ByteSize) ∧
      p.parse.2.tokensConsumed + 1 = p.tokensConsumed + fresh.2.tokensConsumed ∧
      p.parse.2.maxDepth = max p.maxDepth fresh.2.maxDepth := by
  have hfurther : Cursor.Further p.cursor.passed p.maxDepth p.cursor (start context after).cursor :=
    ⟨hp.within.rest.trans htokens.symm, rfl, hp.depth, (Nat.max_zero _).symm⟩
  have hin := Reading.inStep_further p.cursor.passed p.maxDepth
  have hmatched : Reading.Matched _ _ Eq
      ((Reading.description context.loader context.limits.maxNestingDepth).run p.cursor)
      ((Reading.description context.loader context.limits.maxNestingDepth).run
        (start context after).cursor) := hin.description hin.base _ hfurther
  intro fresh
  have hfresh : fresh = (start context after).after ((Reading.description context.loader
    context.limits.maxNestingDepth).run (start context after).cursor) := rfl
  rw [hfresh, parse_eq_after, hp.context]
  generalize (Reading.description _ _).run p.cursor = r at hmatched ⊢
  generalize (Reading.description _ _).run (start context after).cursor = r' at hmatched ⊢
  have hcursor : ∀ {c c' : Cursor}, Cursor.Further p.cursor.passed p.maxDepth c c' →
      (c.passed + 1) + 1 = p.tokensConsumed + (c'.passed + 1) ∧
        c.deepest = max p.maxDepth c'.deepest := by
    intro c c' hc
    refine ⟨?_, hc.deepest⟩
    rw [hc.passed, tokensConsumed]
    omega
  cases hmatched with
  | ok ht hc => exact ⟨by rw [ht]; rfl, hcursor hc⟩
  | error he hc => exact ⟨congrArg Except.error (failure_behind hp hs hl he), hcursor hc⟩

/-- Let a parser of the text `s` have been asked a number of times, and have met with nothing but
unexpected tokens, with the last one at a byte offset. Asked again, it gives the answer of a new
parser of what is left of the text from there on, with all offsets so many bytes further on and with
`s` in failures. It looks at as many more tokens as the new one looks at, but for the one it stands
in front of, and its depth is the greater one of its own and that of the new parser. -/
theorem parse_resumed {context : Context} {s : String} {times : Nat} {f : Failure} {p : Parser}
    {offset : Nat}
    (hrun : ∀ answer ∈ parseTimes times (start context s),
      ∃ f, answer.1 = .error f ∧ f.kind = .unexpectedToken)
    (hlast : (parseTimes times (start context s)).getLast? = some (.error f, p))
    (ho : f.offset? = some offset) :
    ∃ before after, s = before ++ after ∧ before.utf8ByteSize = offset ∧
      let fresh := (start context after).parse
      p.parse.1 = fresh.1.mapError (Failure.behind s offset) ∧
        p.parse.2.tokensConsumed + 1 = p.tokensConsumed + fresh.2.tokensConsumed ∧
        p.parse.2.maxDepth = max p.maxDepth fresh.2.maxDepth := by
  obtain ⟨hp, hlt, rfl⟩ := ready_start.of_parseTimes hrun hlast ho
  obtain ⟨l, hl⟩ := exists_getElem?_tokenize hlt.le
  obtain ⟨before, after, hs, hbefore, htokens, hlexemes⟩ := exists_rest hlt hl
  have hoffset : p.offset (.token p.cursor.passed) = before.utf8ByteSize := by
    simp only [offset, hp.lexemes, hl, hbefore]
  rw [← hbefore] at hlexemes
  rw [hoffset]
  exact ⟨before, after, hs, rfl, parse_behind hp hs htokens hlexemes⟩

/-- `INT` and `ü ARRAY` are read before `VARCHAR(5)`. -/
theorem parse_resumed_varchar :
    let p := (start {} "INT ü ARRAY VARCHAR(5)").parse.2.parse.2
    p.maxDepth = 2 ∧
      ∃ before after, "INT ü ARRAY VARCHAR(5)" = before ++ after ∧ before.utf8ByteSize = 13 ∧
        let fresh := (start {} after).parse
        p.parse.1 = fresh.1.mapError (Failure.behind "INT ü ARRAY VARCHAR(5)" 13) ∧
          p.parse.2.tokensConsumed + 1 = p.tokensConsumed + fresh.2.tokensConsumed ∧
          p.parse.2.maxDepth = max p.maxDepth fresh.2.maxDepth := by
  let input := "INT ü ARRAY VARCHAR(5)"
  have h₁ : (start {} input).parse.1 =
      .error (.parse 4 .unexpectedToken "Unexpected token: ü." input none) := by
    decide +kernel
  have h₂ : (start {} input).parse.2.parse.1 =
      .error (.parse 13 .unexpectedToken "Unexpected token: VARCHAR." input none) := by
    decide +kernel
  have hrun : ∀ answer ∈ parseTimes 2 (start {} input),
      ∃ f, answer.1 = .error f ∧ f.kind = .unexpectedToken :=
    List.forall_mem_cons.2 ⟨⟨_, h₁, rfl⟩, List.forall_mem_cons.2 ⟨⟨_, h₂, rfl⟩, nofun⟩⟩
  have hlast : (parseTimes 2 (start {} input)).getLast? =
      some (.error (.parse 13 .unexpectedToken "Unexpected token: VARCHAR." input none),
        (start {} input).parse.2.parse.2) :=
    congrArg some (Prod.ext h₂ rfl)
  exact ⟨by decide +kernel, parse_resumed hrun hlast rfl⟩

end Parser

end SqlTypes
