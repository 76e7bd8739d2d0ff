import SqlTypes.Proofs.Failures

/-!
# Other layouts of a text

A text may be laid out anew: with other separators between its tokens, as long as tokens that stood
apart still do, and with its keywords in other letters (`Relaid`). It has the same tokens then
(`Piece.Relaid.cut`). Since parsing looks at nothing but the tokens, the answer is the same, and a
problem is at the same token (`parse_relaid`).
-/

namespace SqlTypes

open Text

theorem Text.eq_nil_of_byteLength {cs : List Char} (h : byteLength cs = 0) : cs = [] := by
  rcases cs with _ | ⟨c, cs⟩
  · rfl
  · have := c.utf8Size_pos
    rw [byteLength_cons] at h
    omega

theorem Text.append_inj_of_byteLength {as bs cs ds : List Char} (h : as ++ bs = cs ++ ds)
    (hlen : byteLength as = byteLength cs) : as = cs ∧ bs = ds := by
  rcases List.append_eq_append_iff.1 h with ⟨v, rfl, rfl⟩ | ⟨v, rfl, rfl⟩
  all_goals
    rw [byteLength_append] at hlen
    obtain rfl : v = [] := eq_nil_of_byteLength (by omega)
    simp

namespace Piece

variable {p q : Piece} {ps qs : List Piece} {tail tail' : List Char} {s : String}

/-- The pieces that `s` is made of, with `tail` behind them: one for each lexeme. -/
structure Of (s : String) (ps : List Piece) (tail : List Char) : Prop where
  join : join ps tail = s.toList
  lexemes : tokenize s = lexemes 0 ps ++ [.endAt s.utf8ByteSize]

theorem eq_of_lexemes_eq : ∀ {ps qs : List Piece} {offset : Nat},
    Piece.join ps tail = Piece.join qs tail' → Piece.lexemes offset ps = Piece.lexemes offset qs →
      ps = qs ∧ tail = tail'
  | [], [], _, h, _ => ⟨rfl, h⟩
  | [], _ :: _, _, _, h | _ :: _, [], _, _, h => by simp [Piece.lexemes] at h
  | ⟨g, t, w⟩ :: ps, ⟨g', t', w'⟩ :: qs, offset, h, hls => by
    simp only [Piece.lexemes, List.cons.injEq, Lexeme.mk.injEq, Option.some.injEq] at hls
    obtain ⟨⟨rfl, hstart, hstop⟩, hls⟩ := hls
    have h : g ++ (w ++ Piece.join ps tail) = g' ++ (w' ++ Piece.join qs tail') := h
    obtain ⟨rfl, hrest⟩ := append_inj_of_byteLength h (Nat.add_left_cancel hstart)
    obtain ⟨rfl, hjoin⟩ := append_inj_of_byteLength hrest (Nat.add_left_cancel hstop)
    obtain ⟨rfl, rfl⟩ := eq_of_lexemes_eq hjoin hls
    exact ⟨rfl, rfl⟩

theorem exists_of (s : String) : ∃ ps tail, Of s ps tail := by
  obtain ⟨ps, tail, hs, hcut⟩ := exists_cut s.toList
  exact ⟨ps, tail, hs, tokenize_eq hs hcut⟩

/-- There are no other pieces of a text than those that a scanner cuts off. -/
theorem Of.cut (h : Of s ps tail) : Cut ps tail := by
  obtain ⟨qs, tail', hs, hcut⟩ := exists_cut s.toList
  have hls := h.lexemes.symm.trans (tokenize_eq hs hcut)
  obtain ⟨rfl, rfl⟩ := eq_of_lexemes_eq (h.join.trans hs.symm) (List.append_cancel_right hls)
  exact hcut

theorem Of.tokensOf_eq (h : Of s ps tail) : tokensOf s = ps.map (·.token) :=
  Piece.tokensOf_eq h.join h.cut

/-- The same token behind some separators, and in other letters if it is a keyword. -/
structure Recast (p q : Piece) : Prop where
  token : q.token = p.token
  gap : Separators q.gap
  text : q.text = p.text ∨
    (∃ k, p.token = .keyword k) ∧ q.text.map Char.toUpper = p.text.map Char.toUpper

/-- The same tokens in another layout, with `tail` behind them. Tokens that stand apart still do,
and nothing comes behind an open quote. -/
structure Relaid (ps qs : List Piece) (tail : List Char) : Prop where
  recast : List.Forall₂ Recast ps qs
  apart : List.Forall₂ (fun p q => p.gap ≠ [] → q.gap ≠ []) ps.tail qs.tail
  separators : Separators tail
  openQuote : (∃ p ∈ ps, p.token = .unterminated) → tail = []

theorem Recast.isText (h : p.Recast q) (hp : p.token.IsText p.text) : q.token.IsText q.text := by
  obtain ⟨htoken, -, htext | ⟨⟨k, hk⟩, htext⟩⟩ := h
  · rwa [htoken, htext]
  · rw [hk] at hp
    rw [htoken, hk]
    exact htext.trans hp

/-- Whether a token goes on is seen from the next character. -/
theorem closedBy_cons {t : Token} {c : Char} {cs ds : List Char} (h : t.ClosedBy (c :: cs)) :
    t.ClosedBy (c :: ds) := by
  cases t with
  | unterminated => cases h
  | keyword | word | integer | quoted | string => exact h
  | symbol | stray => trivial

/-- No letter goes on with a token that another letter does not go on with. -/
theorem closedBy_wordStart {t : Token} {c d : Char} {cs ds : List Char} (hc : isWordStart c)
    (hd : isWordStart d) (h : t.ClosedBy (c :: cs)) : t.ClosedBy (d :: ds) := by
  obtain ⟨h₁, h₂, h₃, -⟩ := Token.isWordStart_plain hd
  cases t with
  | unterminated => cases h
  | keyword | word =>
    have hpart := h c rfl
    rw [isWordPart_of_isWordStart hc] at hpart
    cases hpart
  | integer =>
    rintro _ ⟨rfl⟩
    exact h₃
  | quoted => simpa [Token.ClosedBy, Token.EndedBy, NotNext] using h₁
  | string => simpa [Token.ClosedBy, Token.EndedBy, NotNext] using h₂
  | symbol | stray => trivial

theorem closedBy_separators {t : Token} {g : List Char} (ht : t ≠ .unterminated)
    (hg : Separators g) (hne : g ≠ []) (cs : List Char) : t.ClosedBy (g ++ cs) := by
  obtain ⟨c, g, rfl⟩ := List.exists_cons_of_ne_nil hne
  have hc : isSeparator c := hg c List.mem_cons_self
  have hdigit : c.isDigit = false := by
    by_contra hd
    rw [Token.isSeparator_of_isDigit (by simpa using hd)] at hc
    cases hc
  have hends : Token.EndsTokens c := ⟨isWordPart_of_isSeparator hc, hdigit,
    isSeparator_ne hc (by decide), isSeparator_ne hc (by decide)⟩
  exact Token.closedBy_of_endsTokens ht hends

theorem closedBy_nil (t : Token) : t.ClosedBy [] := by
  have h : t.EndedBy [] := Token.endedBy_nil t
  cases t with
  | unterminated => rfl
  | word => exact nofun
  | _ => exact h

/-- What does not go on with a token does not so in another layout either. -/
theorem closedBy_join {t : Token} (h : t.ClosedBy (Piece.join (p :: ps) tail))
    (hcut : Cut (p :: ps) tail) (hpq : Recast p q) (hgap : p.gap ≠ [] → q.gap ≠ []) :
    t.ClosedBy (Piece.join (q :: qs) tail') := by
  by_cases hq : q.gap = []
  · -- the two have stood together before, so what closes the token is the next one's first letter
    obtain ⟨-, htext, hclosed, -⟩ := hcut
    have hp : p.gap = [] := by
      by_contra hp
      exact hgap hp hq
    obtain ⟨c, cs, hc, -⟩ := Token.take_of_isText htext hclosed
    rw [Piece.join, hp, List.nil_append, hc, List.cons_append] at h
    rw [Piece.join, hq, List.nil_append]
    rcases hpq.text with heq | ⟨⟨k, hk⟩, heq⟩
    · rw [heq, hc, List.cons_append]
      exact closedBy_cons h
    · rw [hk] at htext
      obtain ⟨⟨c', cs', hc', hstart, -⟩, -⟩ := Token.isWord_of_keyword htext
      obtain ⟨⟨d, ds, hd, hstart', -⟩, -⟩ := Token.isWord_of_keyword (heq.trans htext)
      rw [hc, List.cons.injEq] at hc'
      rw [hd, List.cons_append]
      exact closedBy_wordStart (hc'.1 ▸ hstart) hstart' h
  · refine closedBy_separators ?_ hpq.gap hq _
    rintro rfl
    exact join_ne_nil hcut h

/-- The pieces of another layout are those that a scanner cuts off. -/
theorem Relaid.cut : ∀ {ps qs : List Piece}, Cut ps tail → Relaid ps qs tail' → Cut qs tail'
  | [], [], _, h => h.separators
  | [p], [q], ⟨_, htext, _, _⟩, h => by
    obtain ⟨hrecast, -, hsep, hquote⟩ := h
    obtain ⟨hpq, -⟩ := List.forall₂_cons.1 hrecast
    refine ⟨hpq.gap, hpq.isText htext, ?_, hsep⟩
    rw [hpq.token]
    by_cases htail : tail' = []
    · rw [htail]
      exact closedBy_nil p.token
    · have hp : p.token ≠ .unterminated := fun hp => htail (hquote ⟨p, by simp, hp⟩)
      have hclosed := closedBy_separators hp hsep htail []
      rwa [List.append_nil] at hclosed
  | p :: p' :: ps, q :: q' :: qs, ⟨_, htext, hclosed, hcut⟩, h => by
    obtain ⟨hrecast, hapart, hsep, hquote⟩ := h
    obtain ⟨hpq, hrecast⟩ := List.forall₂_cons.1 hrecast
    obtain ⟨hgap, hapart'⟩ := List.forall₂_cons.1 hapart
    obtain ⟨hpq', -⟩ := List.forall₂_cons.1 hrecast
    refine ⟨hpq.gap, hpq.isText htext, ?_, ?_⟩
    · rw [hpq.token]
      exact closedBy_join hclosed hcut hpq' hgap
    · exact Relaid.cut hcut ⟨hrecast, hapart', hsep, fun ⟨r, hr, h⟩ =>
        hquote ⟨r, List.mem_cons_of_mem p hr, h⟩⟩
  | [], _ :: _, _, h | _ :: _, [], _, h => nomatch h.recast
  | [_], _ :: _ :: _, _, h | _ :: _ :: _, [_], _, h => nomatch (List.forall₂_cons.1 h.recast).2

theorem Relaid.tokens (h : Relaid ps qs tail) : qs.map (·.token) = ps.map (·.token) := by
  have htokens : List.Forall₂ Eq (qs.map (·.token)) (ps.map (·.token)) := by
    rw [List.forall₂_map_left_iff, List.forall₂_map_right_iff]
    exact h.recast.flip.imp fun _ _ hpq => hpq.token
  rwa [List.forall₂_eq_eq_eq] at htokens

end Piece

/-- The text `s'` is `s` in another layout. -/
def Relaid (s s' : String) : Prop :=
  ∃ ps tail qs tail', Piece.Of s ps tail ∧ s'.toList = Piece.join qs tail' ∧
    Piece.Relaid ps qs tail'

variable {s s' : String}

theorem Relaid.tokensOf_eq (h : Relaid s s') : tokensOf s' = tokensOf s := by
  obtain ⟨ps, tail, qs, tail', hof, hs', hrelaid⟩ := h
  rw [Piece.tokensOf_eq hs'.symm (hrelaid.cut hof.cut), hrelaid.tokens, hof.tokensOf_eq]

/-! ## Answers -/

theorem token_of_getElem?_lexemes {size : Nat} {l : Lexeme} :
    ∀ {n : Nat} (ps : List Piece) {offset : Nat},
      (Piece.lexemes offset ps ++ [.endAt size])[n]? = some l → l.token = (ps.map (·.token))[n]?
  | 0, [], _, rfl | 0, _ :: _, _, rfl => rfl
  | _ + 1, [], _, h => nomatch h
  | _ + 1, _ :: ps, _, h => token_of_getElem?_lexemes ps h

theorem token_of_getElem?_tokenize {n : Nat} {l : Lexeme} (h : (tokenize s)[n]? = some l) :
    l.token = (tokensOf s)[n]? := by
  obtain ⟨ps, tail, hof⟩ := Piece.exists_of s
  rw [hof.lexemes] at h
  rw [hof.tokensOf_eq]
  exact token_of_getElem?_lexemes ps h

theorem token_eq_of_tokensOf_eq {n : Nat} {l l' : Lexeme} (h : tokensOf s' = tokensOf s)
    (hl : (tokenize s)[n]? = some l) (hl' : (tokenize s')[n]? = some l') : l'.token = l.token := by
  rw [token_of_getElem?_tokenize hl, token_of_getElem?_tokenize hl', h]

/-- The same answer to `s` and to `s'`: the same type, or the same fault. A problem is at the same
token of both, or at the end of both. -/
inductive AnsweredAlike (s s' : String) :
    Except Failure DataType → Except Failure DataType → Prop where
  | type (t : DataType) : AnsweredAlike s s' (.ok t) (.ok t)
  | rawRestore (className snapshot : String) (e : LoadError) :
    AnsweredAlike s s' (.error (.rawRestore className snapshot e))
      (.error (.rawRestore className snapshot e))
  | problem {n : Nat} {l l' : Lexeme} {kind : ErrorKind} (detail : String)
    (cause : Option LoadError) (lexeme : (tokenize s)[n]? = some l)
    (lexeme' : (tokenize s')[n]? = some l') (token : l'.token = l.token)
    (atEnd : kind = .unexpectedEnd → l.start = s.utf8ByteSize ∧ l'.start = s'.utf8ByteSize) :
    AnsweredAlike s s' (.error (.parse l.start kind detail s cause))
      (.error (.parse l'.start kind detail s' cause))

theorem Parser.failure_alike {context : Context} (h : tokensOf s' = tokensOf s) {f : Fault}
    (hf : f.Sound context.loader (tokensOf s)) :
    AnsweredAlike s s' (.error ((start context s).failure f))
      (.error ((start context s').failure f)) := by
  cases f with
  | rawRestore => exact .rawRestore _ _ _
  | problem place p =>
    cases place with
    | endOfInput =>
      have hl := getElem?_tokenize_length (s := s)
      have hl' := getElem?_tokenize_length (s := s')
      rw [h] at hl'
      exact .problem _ _ hl hl' (token_eq_of_tokensOf_eq h hl hl') fun _ => ⟨rfl, rfl⟩
    | token n =>
      obtain ⟨hn, hp⟩ := hf
      obtain ⟨l, hl⟩ := exists_getElem?_tokenize hn
      obtain ⟨l', hl'⟩ := exists_getElem?_tokenize (h ▸ hn)
      rw [failure, failure, offset_token hl, offset_token hl']
      exact .problem _ _ hl hl' (token_eq_of_tokensOf_eq h hl hl')
        fun hend => absurd hend hp.kind_ne

/-- The answer does not depend on the layout, as long as no text is too long. -/
theorem parse_relaid (context : Context) (h : Relaid s s')
    (hs : s.utf8ByteSize ≤ context.limits.maxInputLength)
    (hs' : s'.utf8ByteSize ≤ context.limits.maxInputLength) :
    AnsweredAlike s s' (parse context s) (parse context s') := by
  have htokens := h.tokensOf_eq
  rcases parse_cases context (tokensOf s) with ⟨t, ht⟩ | ⟨f, hf, hparse⟩
  · rw [ht s rfl hs, ht s' htokens hs']
    exact .type t
  · rw [hparse s rfl hs, hparse s' htokens hs']
    exact Parser.failure_alike htokens hf

/-- `char(0) null`, in pieces. -/
def charZero : List Piece :=
  [⟨[], .keyword .char, ['c', 'h', 'a', 'r']⟩, ⟨[], .symbol .openParen, ['(']⟩,
    ⟨[], .integer "0", ['0']⟩, ⟨[], .symbol .closeParen, [')']⟩,
    ⟨[' '], .keyword .null, ['n', 'u', 'l', 'l']⟩]

/-- The same type in other letters, on more lines. -/
def charZeroLines : List Piece :=
  [⟨['\n'], .keyword .char, ['C', 'h', 'a', 'R']⟩, ⟨[], .symbol .openParen, ['(']⟩,
    ⟨['\n', ' '], .integer "0", ['0']⟩, ⟨['\n'], .symbol .closeParen, [')']⟩,
    ⟨['\n'], .keyword .null, ['N', 'U', 'L', 'L']⟩]

/-- The length is out of range. -/
def charZeroFailure (offset : Nat) (input : String) : Failure :=
  .parse offset .invalidParameter
    "Character string length must be between 1 and 2147483647 (both inclusive)." input none

theorem parse_relaid_charZero :
    Relaid "char(0) null" "\nChaR(\n 0\n)\nNULL " ∧
      parse {} "char(0) null" = .error (charZeroFailure 5 "char(0) null") ∧
      parse {} "\nChaR(\n 0\n)\nNULL " =
        .error (charZeroFailure 8 "\nChaR(\n 0\n)\nNULL ") ∧
      AnsweredAlike "char(0) null" "\nChaR(\n 0\n)\nNULL " (parse {} "char(0) null")
        (parse {} "\nChaR(\n 0\n)\nNULL ") := by
  have hof : Piece.Of "char(0) null" charZero [] := ⟨by decide +kernel, by decide +kernel⟩
  have hrelaid : Piece.Relaid charZero charZeroLines [' '] := by
    have keyword : ∀ {k w w' g g'}, Separators g' → w'.map Char.toUpper = w.map Char.toUpper →
        Piece.Recast ⟨g, .keyword k, w⟩ ⟨g', .keyword k, w'⟩ :=
      fun hg hw => ⟨rfl, hg, .inr ⟨⟨_, rfl⟩, hw⟩⟩
    have same : ∀ {t w g g'}, Separators g' → Piece.Recast ⟨g, t, w⟩ ⟨g', t, w⟩ :=
      fun hg => ⟨rfl, hg, .inl rfl⟩
    refine ⟨?_, ?_, by decide, by decide⟩
    · refine .cons (keyword ?_ ?_) <| .cons (same ?_) <| .cons (same ?_) <| .cons (same ?_) <|
        .cons (keyword ?_ ?_) .nil
      all_goals decide
    · simp [charZero, charZeroLines]
  have h : Relaid "char(0) null" "\nChaR(\n 0\n)\nNULL " :=
    ⟨charZero, [], charZeroLines, [' '], hof, by decide +kernel, hrelaid⟩
  exact ⟨h, by decide +kernel, by decide +kernel,
    parse_relaid {} h (by decide +kernel) (by decide +kernel)⟩

end SqlTypes
