import SqlTypes.Proofs.Agreement
import SqlTypes.Proofs.Calls
import SqlTypes.Proofs.Places

/-!
# What follows a failure

A failure does not depend on what is behind the last token that was looked at. Where this token is
not the last one, runs agree up to there over whatever follows (`Reading.runOn_of_error`); and where
it is the end of the text, nothing can follow. As faults are at tokens that were looked at, they are
at the same bytes of both texts (`parse_followed`).
-/

namespace SqlTypes

theorem Reading.progressTo_le {c : Cursor} {e : Fault} (he : e.PlacedAt c) :
    progressTo c e ≤ c.passed := by
  unfold progressTo
  split
  · exact he.1
  · exact Nat.le_refl _

/-- A run that fails before it has looked behind the tokens that both runs are over. -/
theorem Reading.Agree.of_error {α : Type} {V : α → α → Prop} {k : Nat} {r r' : List Token}
    {e : Fault} {c : Cursor} {y : EStateM.Result Fault Cursor α}
    (h : Agree k r r' V (.error e c) y) (hk : progressTo c e < k) :
    ∃ c', y = .error e c' ∧ c'.passed = c.passed ∧ c'.deepest = c.deepest := by
  generalize hx : EStateM.Result.error e c = x at h
  cases h with
  | ok => cases hx
  | error =>
    cases hx
    exact ⟨_, rfl, rfl, rfl⟩
  | apart hprogress =>
    rw [← hx, progress] at hprogress
    exact absurd hk (Nat.not_lt.2 hprogress)

/-- Over all tokens that begin with those that were looked at, a run ends in the same fault. -/
theorem Reading.runOn_of_error {loader : Loader} {limit : Nat} {ts ts' : List Token} {e : Fault}
    {c : Cursor} (h : runOn loader limit ts = .error e c)
    (hts : ∀ n ≤ c.passed, ts'[n]? = ts[n]?) :
    ∃ c', runOn loader limit ts' = .error e c' ∧ c'.passed = c.passed ∧ c'.deepest = c.deepest := by
  have hplaced := (Placed.description loader limit).error (Nat.zero_le _) h
  rcases Nat.lt_or_ge c.passed ts.length with hlt | hge
  · let us := ts.take (c.passed + 1)
    have hlen : us.length = c.passed + 1 := List.length_take_of_le hlt
    have hus' : ts'.take (c.passed + 1) = us := by
      refine List.ext_getElem? fun n => ?_
      rw [List.getElem?_take, List.getElem?_take]
      split_ifs with hn
      · exact hts n (Nat.le_of_lt_succ hn)
      · rfl
    have hagree := runOn_agree loader limit us (ts.drop (c.passed + 1)) (ts'.drop (c.passed + 1))
    rw [List.take_append_drop, h, ← hus', List.take_append_drop, hus', hlen] at hagree
    exact hagree.of_error (Nat.lt_succ_of_le (progressTo_le hplaced))
  · have hend : ts[c.passed]? = none := List.getElem?_eq_none hge
    have hge' : ts'.length ≤ c.passed :=
      List.getElem?_eq_none_iff.1 ((hts _ (Nat.le_refl _)).trans hend)
    obtain rfl : ts' = ts := by
      refine List.ext_getElem? fun n => ?_
      rcases Nat.le_total n c.passed with hn | hn
      · exact hts n hn
      · rw [List.getElem?_eq_none (hge'.trans hn), List.getElem?_eq_none (hge.trans hn)]
    exact ⟨c, h, rfl, rfl⟩

/-- Nothing is behind the end of a text, or behind a quote that is not closed. -/
theorem Lexeme.stop_eq {s : String} {n : Nat} {l : Lexeme} (hl : (tokenize s)[n]? = some l)
    (ht : l.token = none ∨ l.token = some .unterminated) : l.stop = s.utf8ByteSize := by
  obtain ⟨ps, tail, hjoin, hcut⟩ := Piece.exists_cut s.toList
  have hmem := List.mem_of_getElem? hl
  rw [Piece.tokenize_eq hjoin hcut, List.mem_append, List.mem_singleton] at hmem
  have hlossless := Piece.lossless hjoin hcut
  rcases hmem with hmem | rfl
  · rcases ht with ht | ht
    · obtain ⟨t, -, -, hsome, -⟩ := hlossless.shows l hmem
      rw [ht] at hsome
      cases hsome
    · obtain ⟨ls₁, ls₂, hls⟩ := List.append_of_mem hmem
      exact (hlossless.unterminated ls₁ l ls₂ hls ht).2
  · rfl

/-- The same failure in another text. -/
def Failure.about (s : String) : Failure → Failure
  | .parse offset kind detail _ cause => .parse offset kind detail s cause
  | f => f

namespace Parser

variable {context : Context} {s s' : String} {e : Fault} {c : Cursor}

/-- A fault is at the same bytes of texts that agree on the tokens looked at. -/
theorem failure_about (hc : c.Within (tokensOf s)) (he : e.PlacedAt c)
    (hs : ∀ n ≤ c.passed, (tokenize s')[n]? = (tokenize s)[n]?) :
    (start context s').failure e = ((start context s).failure e).about s' := by
  cases e with
  | rawRestore => rfl
  | problem place p =>
    cases place with
    | token n =>
      have hoffset : (start context s').offset (.token n) =
          (start context s).offset (.token n) := by
        obtain ⟨l, hl⟩ := exists_getElem?_tokenize (he.1.trans hc.passed)
        rw [offset_token hl, offset_token ((hs n he.1).trans hl)]
      rw [failure, hoffset]
      rfl
    | endOfInput =>
      obtain ⟨-, hlast⟩ := he
      obtain ⟨l, hl⟩ := exists_getElem?_tokenize hc.passed
      have ht : l.token = none ∨ l.token = some .unterminated := by
        rw [token_of_getElem?_tokenize hl, ← List.head?_drop, ← hc.rest]
        exact hlast.imp_left List.head?_eq_none_iff.2
      have hsize : s'.utf8ByteSize = s.utf8ByteSize :=
        (Lexeme.stop_eq ((hs _ (Nat.le_refl _)).trans hl) ht).symm.trans (Lexeme.stop_eq hl ht)
      simp only [failure, offset, start, hsize]
      rfl

/-- What is wrong with a token is at the last one looked at. -/
theorem offset?_failure (hc : c.Within (tokensOf s)) (he : e.PlacedAt c)
    (hkind : ((start context s).failure e).kind.OfToken) :
    ∃ l, (tokenize s)[c.passed]? = some l ∧
      ((start context s).failure e).offset? = some l.start := by
  obtain ⟨l, hl⟩ := exists_getElem?_tokenize hc.passed
  refine ⟨l, hl, ?_⟩
  cases e with
  | rawRestore => exact hkind.elim
  | problem place p =>
    cases place with
    | token n =>
      obtain rfl := he.2 hkind
      rw [failure, offset_token hl]
      rfl
    | endOfInput =>
      obtain ⟨rfl, -⟩ := he
      exact hkind.elim

end Parser

/-- A text is refused, and another one begins with the tokens that were looked at, at the same
bytes. Then it is refused in the same way, after as many tokens and as deep. What is wrong with a
token is found at the last one that was looked at. -/
theorem parse_followed {context : Context} {s s' : String} {f : Failure} {p : Parser}
    (h : (Parser.start context s).parse = (.error f, p))
    (hs : (tokenize s').take p.tokensConsumed = (tokenize s).take p.tokensConsumed) :
    (∃ q, (Parser.start context s').parse = (.error (f.about s'), q) ∧
      q.tokensConsumed = p.tokensConsumed ∧ q.maxDepth = p.maxDepth) ∧
    (f.kind.OfToken → ∃ l, (tokenize s)[p.tokensConsumed - 1]? = some l ∧
      f.offset? = some l.start) := by
  have hp : (Parser.start context s).parse.2.Standing context s := Parser.standing_start.parse
  rw [h] at hp
  obtain ⟨limits, loader⟩ := context
  rw [Parser.parse_start] at h
  rcases hr : Reading.runOn loader limits.maxNestingDepth (tokensOf s) with ⟨t, c⟩ | ⟨e, c⟩ <;>
    rw [hr] at h <;> cases h
  have hplaced := (Reading.Placed.description loader _).error (Nat.zero_le _) hr
  have hwithin : c.Within (tokensOf s) := hp.within
  have hlexemes : ∀ n ≤ c.passed, (tokenize s')[n]? = (tokenize s)[n]? := by
    intro n hn
    have hget := congrArg (·[n]?) hs
    have hlt : n < c.passed + 1 := Nat.lt_succ_of_le hn
    simpa only [Parser.tokensConsumed, List.getElem?_take, if_pos hlt] using hget
  have htokens : ∀ n ≤ c.passed, (tokensOf s')[n]? = (tokensOf s)[n]? := by
    intro n hn
    obtain ⟨l, hl⟩ := exists_getElem?_tokenize (hn.trans hwithin.passed)
    rw [← token_of_getElem?_tokenize hl, ← token_of_getElem?_tokenize ((hlexemes n hn).trans hl)]
  obtain ⟨c', hr', hpassed, hdeepest⟩ := Reading.runOn_of_error hr htokens
  let q : Parser := { Parser.start ⟨limits, loader⟩ s' with cursor := c' }
  refine ⟨⟨q, ?_, congrArg (· + 1) hpassed, hdeepest⟩, Parser.offset?_failure hwithin hplaced⟩
  rw [Parser.parse_start, hr', ← Parser.failure_about hwithin hplaced hlexemes]
  rfl

/-- `INT` stands where a bracket should close, whatever comes then. -/
theorem parse_followed_openBracket :
    let p := (Parser.start {} "VARCHAR(5 INT").parse.2
    let f := fun s =>
      Failure.parse 10 .tokenExpected "<END_PARAMETER> expected but was <KEYWORD>." s none
    (Parser.start {} "VARCHAR(5 INT").parse = (.error (f "VARCHAR(5 INT"), p) ∧
      (tokenize "VARCHAR(5 INT, 'a").take p.tokensConsumed =
        (tokenize "VARCHAR(5 INT").take p.tokensConsumed ∧
      (∃ q, (Parser.start {} "VARCHAR(5 INT, 'a").parse = (.error (f "VARCHAR(5 INT, 'a"), q) ∧
        q.tokensConsumed = p.tokensConsumed ∧ q.maxDepth = p.maxDepth) ∧
      ∃ l, (tokenize "VARCHAR(5 INT")[p.tokensConsumed - 1]? = some l ∧ some 10 = some l.start := by
  intro p f
  have hfails : (Parser.start {} "VARCHAR(5 INT").parse.1 = .error (f "VARCHAR(5 INT") := by
    decide +kernel
  have hparse : (Parser.start {} "VARCHAR(5 INT").parse = (.error (f "VARCHAR(5 INT"), p) :=
    Prod.ext hfails rfl
  have hs : (tokenize "VARCHAR(5 INT, 'a").take p.tokensConsumed =
      (tokenize "VARCHAR(5 INT").take p.tokensConsumed := by decide +kernel
  obtain ⟨hsame, hat⟩ := parse_followed hparse hs
  exact ⟨hparse, hs, hsame, hat trivial⟩

end SqlTypes
