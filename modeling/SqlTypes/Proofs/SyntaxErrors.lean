import SqlTypes.Proofs.Cutting
import SqlTypes.Proofs.Truncation
import SqlTypes.Proofs.Viability

/-!
# What syntax errors tell

A token that is blamed because it cannot stand where it does is the first one that no sentence of
the grammar has there: some sentence begins with the tokens before it, and none with these and the
token itself (`parse_blames`). A description that ends too early can be continued, unless it ends
with `INTERVAL SECOND TO` (`goesOn_iff_of_parse`).
-/

namespace SqlTypes

open Grammar

theorem Fault.OfMeaning.not_ofSyntax {place : Place} {p : Problem}
    (h : (Fault.problem place p).OfMeaning) : ¬ p.kind.OfSyntax := by
  cases p <;> first | exact h.elim | exact id

namespace Reading

variable {loader : Loader} {limit n : Nat} {ts : List Token} {p : Problem} {c : Cursor}

theorem runOn_sound {f : Fault} (h : runOn loader limit ts = .error f c) : f.Sound loader ts :=
  (description_sound loader limit ts).error ⟨rfl, Nat.zero_le _⟩ h

/-- What a token is blamed for has nothing to do with the limit. -/
theorem runOn_of_ofSyntax (h : runOn loader limit ts = .error (.problem (.token n) p) c)
    (hp : p.kind.OfSyntax) {large : Nat} (hlarge : max 1 ts.length ≤ large) :
    runOn loader large ts = .error (.problem (.token n) p) c := by
  rcases runOn_limits loader limit hlarge with ⟨-, hrun⟩ | ⟨-, m, c', hrun, -⟩
  · exact hrun.symm.trans h
  · cases hrun.symm.trans h
    exact hp.elim

/-- No sentence begins with the tokens up to the one that is blamed, with this one included: its
run would go the same way, but no run over a sentence ends like this. -/
theorem not_begins_of_runOn (h : runOn loader limit ts = .error (.problem (.token n) p) c)
    (hp : p.kind.OfSyntax) : ¬ Begins (ts.take (n + 1)) := by
  intro hbegins
  obtain ⟨hn, -, hprogress⟩ := runOn_viable h hp
  obtain ⟨rest, q, hq⟩ := begins_iff.1 hbegins
  -- a limit that stops neither the run at hand nor the one over the sentence
  let large := max (max 1 ts.length) q.height
  have hrun : runOn loader large ts = .error (.problem (.token n) p) c :=
    runOn_of_ofSyntax h hp (Nat.le_max_left _ _)
  have hsentence : Outcome { rest := q.tokens } q.tokens q.height (q.reading? loader = some ·)
      (runOn loader large q.tokens) :=
    description_outcome rfl (Nat.le_max_right _ _)
  have hagree := runOn_agree loader large (ts.take (n + 1)) (ts.drop (n + 1)) rest
  rw [List.take_append_drop, hrun, ← hq, List.length_take_of_le hn] at hagree
  generalize runOn loader large q.tokens = y at hagree hsentence
  cases hagree with
  | error => exact hsentence.1.not_ofSyntax hp
  | apart hle =>
    rw [progress, hprogress] at hle
    omega

end Reading

section Parsing

variable {context : Context} {s input : String} {offset : Nat} {kind : ErrorKind} {detail : String}
  {cause : Option LoadError}

/-- A failure with a place comes from a problem that the run over the tokens ends with. -/
theorem exists_problem_of_parse
    (h : parse context s = .error (.parse offset kind detail input cause)) :
    ∃ place p c,
      Reading.runOn context.loader context.limits.maxNestingDepth (tokensOf s) =
        .error (.problem place p) c ∧
      p.kind = kind ∧ (Parser.start context s).offset place = offset := by
  have hlen : s.utf8ByteSize ≤ context.limits.maxInputLength := length_le_of_parse h nofun
  rw [parse_eq hlen, Parser.parse_start] at h
  rcases hr : Reading.runOn context.loader context.limits.maxNestingDepth (tokensOf s)
    with ⟨t, c⟩ | ⟨f, c⟩ <;> rw [hr] at h
  · cases h
  · cases f with
    | rawRestore => cases h
    | problem place p =>
      cases h
      exact ⟨place, p, c, rfl, rfl, rfl⟩

theorem token_take_lexemes : ∀ (n : Nat) (ps : List Piece) (offset : Nat),
    ((Piece.lexemes offset ps).take n).filterMap (·.token) = (ps.map (·.token)).take n
  | 0, _, _ | _ + 1, [], _ => rfl
  | n + 1, p :: ps, _ => congrArg (p.token :: ·) (token_take_lexemes n ps _)

/-- The lexeme of the token number `n` has the tokens before it on its left. -/
theorem exists_lexeme_of_lt {n : Nat} (hn : n < (tokensOf s).length) :
    ∃ before l after, tokenize s = before ++ l :: after ∧ (tokenize s)[n]? = some l ∧
      before.filterMap (·.token) = (tokensOf s).take n ∧ l.token = some (tokensOf s)[n] := by
  obtain ⟨l, hl⟩ := exists_getElem?_tokenize hn.le
  obtain ⟨hlt, hget⟩ := List.getElem?_eq_some_iff.1 hl
  refine ⟨(tokenize s).take n, l, (tokenize s).drop (n + 1), ?_, hl, ?_, ?_⟩
  · rw [← hget, List.getElem_cons_drop, List.take_append_drop]
  · obtain ⟨ps, tail, hof⟩ := Piece.exists_of s
    rw [hof.tokensOf_eq, List.length_map] at hn
    rw [hof.lexemes, hof.tokensOf_eq,
      List.take_append_of_le_length (hn.le.trans (Piece.length_lexemes ps 0).ge),
      token_take_lexemes]
  · rw [token_of_getElem?_tokenize hl, List.getElem?_eq_getElem hn]

/-- A token that is blamed because it cannot stand where it does is the first one that cannot: some
sentence begins with the tokens before it, but none goes on with this token. -/
theorem parse_blames (hkind : kind.OfSyntax)
    (h : parse context s = .error (.parse offset kind detail input cause)) :
    ∃ before l after t, tokenize s = before ++ l :: after ∧ l.start = offset ∧ l.token = some t ∧
      Begins (before.filterMap (·.token)) ∧ ¬ Begins (before.filterMap (·.token) ++ [t]) := by
  obtain ⟨place, p, c, hrun, rfl, rfl⟩ := exists_problem_of_parse h
  cases place with
  | endOfInput =>
    obtain rfl : p = .unexpectedEnd := Reading.runOn_sound hrun
    exact hkind.elim
  | token n =>
    obtain ⟨hn, hbegins, -⟩ := Reading.runOn_viable hrun hkind
    obtain ⟨before, l, after, hsplit, hl, hbefore, ht⟩ := exists_lexeme_of_lt hn
    refine ⟨before, l, after, _, hsplit, (Parser.offset_token hl).symm, ht, ?_, ?_⟩
    · rwa [hbefore]
    · rw [hbefore, List.take_append_getElem]
      exact Reading.not_begins_of_runOn hrun hkind

/-- A second field needs a comma before it. -/
theorem parse_blames_secondField :
    ErrorKind.tokenExpected.OfSyntax ∧
    parse {} "ROW<a INT b STRING>" = .error (.parse 10 .tokenExpected
      "<END_SUBTYPE> expected but was <IDENTIFIER>." "ROW<a INT b STRING>" none) ∧
    ∃ before l after t, tokenize "ROW<a INT b STRING>" = before ++ l :: after ∧ l.start = 10 ∧
      l.token = some t ∧ Begins (before.filterMap (·.token)) ∧
        ¬ Begins (before.filterMap (·.token) ++ [t]) := by
  have hkind : ErrorKind.tokenExpected.OfSyntax := trivial
  have h : parse {} "ROW<a INT b STRING>" = .error (.parse 10 .tokenExpected
    "<END_SUBTYPE> expected but was <IDENTIFIER>." "ROW<a INT b STRING>" none) := by decide +kernel
  exact ⟨hkind, h, parse_blames hkind h⟩

/-- A description without an open quote that ends too early can be continued, just if it does not
end with `TO` behind an interval of seconds. -/
theorem goesOn_iff_of_parse (hquotes : .unterminated ∉ tokensOf s)
    (h : parse context s = .error (.parse offset .unexpectedEnd detail input cause)) :
    GoesOn (tokensOf s) ↔
      ¬ [.keyword .interval, .keyword .second, .keyword .to] <:+ tokensOf s := by
  obtain ⟨place, p, c, hrun, hkind, -⟩ := exists_problem_of_parse h
  have hsound := Reading.runOn_sound hrun
  cases place with
  | token n => exact absurd hkind hsound.2.kind_ne
  | endOfInput =>
    have hunfinished : Unfinished (tokensOf s) := (Reading.runOn_viable hrun).resolve_left hquotes
    refine ⟨fun hgoesOn hto => ?_, hunfinished.resolve_right⟩
    exact not_begins_secondTo ((List.suffix_cons _ _).trans hto) hgoesOn.begins

/-- There is no unit that an interval of seconds could go up to, but one is waited for. -/
theorem not_goesOn_secondTo :
    Token.unterminated ∉ tokensOf "INTERVAL SECOND TO" ∧
    parse {} "INTERVAL SECOND TO" =
      .error (.parse 18 .unexpectedEnd "Unexpected end." "INTERVAL SECOND TO" none) ∧
    ¬ GoesOn (tokensOf "INTERVAL SECOND TO") := by
  have hquotes : Token.unterminated ∉ tokensOf "INTERVAL SECOND TO" := by decide +kernel
  have h : parse {} "INTERVAL SECOND TO" =
    .error (.parse 18 .unexpectedEnd "Unexpected end." "INTERVAL SECOND TO" none) := by
      decide +kernel
  have hto : [.keyword .interval, .keyword .second, .keyword .to] <:+
    tokensOf "INTERVAL SECOND TO" := by decide +kernel
  exact ⟨hquotes, h, fun hgoesOn => (goesOn_iff_of_parse hquotes h).1 hgoesOn hto⟩

end Parsing

end SqlTypes
