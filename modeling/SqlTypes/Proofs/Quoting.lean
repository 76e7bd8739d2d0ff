import SqlTypes.Proofs.Pieces

/-!
# Quoting

A scanner that stands in front of an opening quote finds a quoted token just if the text from there
on is a content as it is written between quotes, with something behind it that does not go on with
the closing quote. Content and rest are then unique (`Quoting.Splits.unique`), so that scanning
undoes writing wherever a quoted text stands. Otherwise the quote is never closed, and the scanner
goes to the end of the text.
-/

namespace SqlTypes

open Text

namespace Scanner

/-- Where a scanner of the text `before ++ after` stands that has passed `before`. -/
def between (before after : String) : Scanner :=
  ⟨after.toList, before.utf8ByteSize⟩

/-- The scanner after so many lexemes. -/
def past : (n : Nat) → Scanner → Scanner
  | 0, s => s
  | n + 1, s => past n s.next.2

/-- A scanner passes what it takes off the text. -/
theorem exists_next_between (before after : String) : ∃ taken rest, after = taken ++ rest ∧
    (between before after).next.2 = between (before ++ taken) rest := by
  obtain ⟨ps, tail, hs, hcut⟩ := Piece.exists_cut after.toList
  rw [between, ← hs]
  cases ps with
  | nil =>
    refine ⟨after, "", (String.append_empty).symm, ?_⟩
    rw [Piece.join, Piece.next_tail hcut, between, String.utf8ByteSize_append,
      ← byteLength_toList after, ← hs]
    rfl
  | cons p ps =>
    refine ⟨String.ofList (p.gap ++ p.text), String.ofList (Piece.join ps tail), ?_, ?_⟩
    · rw [← String.ofList_append, List.append_assoc, ← Piece.join, hs, String.ofList_toList]
    · rw [Piece.next_join hcut, between, String.toList_ofList, String.utf8ByteSize_append,
        utf8ByteSize_ofList, byteLength_append, Nat.add_assoc]

/-- A scanner always stands between a beginning of its text and the rest of it. -/
theorem exists_past_between (s : String) (n : Nat) : ∃ before after, s = before ++ after ∧
    (ofString s).past n = between before after := by
  have further : ∀ n before after, ∃ taken rest, after = taken ++ rest ∧
      (between before after).past n = between (before ++ taken) rest := by
    intro n
    induction n with
    | zero =>
      intro before after
      exact ⟨"", after, by simp, by rw [past, String.append_empty]⟩
    | succ n ih =>
      intro before after
      obtain ⟨taken, rest, rfl, hnext⟩ := exists_next_between before after
      obtain ⟨taken', rest', rfl, hpast⟩ := ih (before ++ taken) rest
      refine ⟨taken ++ taken', rest', String.append_assoc.symm, ?_⟩
      rw [past, hnext, hpast, String.append_assoc]
  obtain ⟨taken, rest, hs, hpast⟩ := further n "" s
  rw [String.empty_append] at hpast
  exact ⟨taken, rest, hs, hpast⟩

end Scanner

/-- Names stand between backticks, other texts between apostrophes. -/
inductive Quoting where
  | name | string

namespace Quoting

def quote : Quoting → Char
  | .name => Token.backtick
  | .string => Token.apostrophe

/-- The token with a content. -/
def token : Quoting → String → Token
  | .name => .quoted
  | .string => .string

/-- How a content is written. -/
def written (q : Quoting) (content : String) : String :=
  (q.token content).text

/-- The text is a content as it is written, and a rest that does not go on with the closing quote.
-/
structure Splits (q : Quoting) (text content rest : String) : Prop where
  eq_append : text = q.written content ++ rest
  notNext : NotNext q.quote rest.toList

variable {q : Quoting} {text content rest : String} {cs : List Char}

theorem toList_written (q : Quoting) (content : String) :
    (q.written content).toList = Text.quote q.quote content.toList := by
  cases q <;> exact String.toList_ofList

theorem isSeparator_quote (q : Quoting) : isSeparator q.quote = false := by
  cases q <;> decide

theorem take_quote (q : Quoting) (cs : List Char) :
    Token.take q.quote cs = Token.takeQuoted q.quote q.token cs := by
  cases q <;> rfl

/-- A text that starts with a quote splits just as what is behind the quote is closed. -/
theorem splits_iff (htext : text.toList = q.quote :: cs) :
    q.Splits text content rest ↔ closing? q.quote [] cs = some (content.toList, rest.toList) := by
  have happ : text = q.written content ++ rest ↔
      q.quote :: cs = Text.quote q.quote content.toList ++ rest.toList := by
    rw [← String.toList_inj, String.toList_append, toList_written, htext]
  constructor
  · rintro ⟨htext, hrest⟩
    have hcs := happ.1 htext
    rw [Text.quote, List.cons_append, List.cons.injEq, List.append_assoc] at hcs
    rw [hcs.2]
    exact closing?_quote _ hrest
  · intro h
    obtain ⟨hcs, hrest⟩ := eq_quote_of_closing? h
    exact ⟨happ.2 hcs, hrest⟩

/-- Only texts that start with the quote split. -/
theorem Splits.head? (h : q.Splits text content rest) : text.toList.head? = some q.quote := by
  rw [h.eq_append, String.toList_append, toList_written]
  rfl

theorem Splits.unique {content' rest' : String} (h : q.Splits text content rest)
    (h' : q.Splits text content' rest') : content = content' ∧ rest = rest' := by
  obtain ⟨cs, htext⟩ := List.head?_eq_some_iff.1 h.head?
  have hsame := ((splits_iff htext).1 h).symm.trans ((splits_iff htext).1 h')
  rw [Option.some.injEq, Prod.mk.injEq, String.toList_inj, String.toList_inj] at hsame
  exact hsame

end Quoting

namespace Scanner

variable {q : Quoting} {before after content rest : String} {cs : List Char}

/-- In front of a quote, all depends on whether it is closed. -/
theorem next_between (before : String) (hafter : after.toList = q.quote :: cs) :
    (between before after).next =
      let (t, ds) := Token.takeQuoted q.quote q.token cs
      let stop := before.utf8ByteSize + width after.toList ds
      (⟨some t, before.utf8ByteSize, stop⟩, ⟨ds, stop⟩) := by
  have hsep := q.isSeparator_quote
  rw [next, between, hafter, List.takeWhile_cons_of_neg (by simp [hsep]),
    List.dropWhile_cons_of_neg (by simp [hsep])]
  simp only [q.take_quote, byteLength_nil, Nat.add_zero]

theorem next_of_splits (before : String) (h : q.Splits after content rest) :
    (between before after).next =
      (⟨some (q.token content), before.utf8ByteSize, (before ++ q.written content).utf8ByteSize⟩,
        between (before ++ q.written content) rest) := by
  obtain ⟨cs, hafter⟩ := List.head?_eq_some_iff.1 h.head?
  have htake : Token.takeQuoted q.quote q.token cs = (q.token content, rest.toList) := by
    rw [Token.takeQuoted, (Quoting.splits_iff hafter).1 h]
    simp only [String.ofList_toList]
  have hwidth : width after.toList rest.toList = (q.written content).utf8ByteSize := by
    rw [h.1, String.toList_append, width_append, byteLength_toList]
  rw [next_between before hafter, htake, between, String.utf8ByteSize_append]
  simp only [hwidth]

theorem next_of_not_splits (before : String) (hquote : after.toList.head? = some q.quote)
    (h : ¬∃ content rest, q.Splits after content rest) :
    (between before after).next =
      (⟨some .unterminated, before.utf8ByteSize, (before ++ after).utf8ByteSize⟩,
        between (before ++ after) "") := by
  obtain ⟨cs, hafter⟩ := List.head?_eq_some_iff.1 hquote
  have hopen : closing? q.quote [] cs = none := by
    refine Option.eq_none_iff_forall_ne_some.2 fun ⟨v, ds⟩ hc => h ⟨.ofList v, .ofList ds, ?_⟩
    rw [Quoting.splits_iff hafter, hc, String.toList_ofList, String.toList_ofList]
  have htake : Token.takeQuoted q.quote q.token cs = (.unterminated, []) := by
    rw [Token.takeQuoted, hopen]
  rw [next_between before hafter, htake, between, String.utf8ByteSize_append]
  have hwidth : width after.toList [] = after.utf8ByteSize := by simp [width]
  simp only [hwidth]
  rfl

end Scanner

/-- Wherever a scanner stands in a text: in front of a content as it is written, with something
behind it that does not go on with the closing quote, the next lexeme is the quoted token with just
this content, it occupies what is written, and the scanner then stands in front of the rest. In
front of a quote without such a content and rest, and only there, the quote is never closed, and the
scanner goes to the end. There is never more than one content and one rest. -/
theorem next_quoted_iff (q : Quoting) (before after : String) :
    (∀ content rest, q.Splits after content rest →
      (Scanner.between before after).next =
        (⟨some (q.token content), before.utf8ByteSize,
            (before ++ q.written content).utf8ByteSize⟩,
          .between (before ++ q.written content) rest)) ∧
    (after.toList.head? = some q.quote →
      ((Scanner.between before after).next.1.token = some .unterminated ↔
          ¬∃ content rest, q.Splits after content rest) ∧
        ((Scanner.between before after).next.1.token = some .unterminated →
          (Scanner.between before after).next =
            (⟨some .unterminated, before.utf8ByteSize, (before ++ after).utf8ByteSize⟩,
              .between (before ++ after) ""))) ∧
    ∀ content rest content' rest', q.Splits after content rest → q.Splits after content' rest' →
      content = content' ∧ rest = rest' := by
  refine ⟨fun content rest h => Scanner.next_of_splits before h, fun hquote => ?_,
    fun _ _ _ _ h h' => h.unique h'⟩
  have hiff : (Scanner.between before after).next.1.token = some .unterminated ↔
      ¬∃ content rest, q.Splits after content rest := by
    constructor
    · rintro hopen ⟨content, rest, h⟩
      rw [Scanner.next_of_splits before h] at hopen
      cases q <;> cases hopen
    · intro h
      rw [Scanner.next_of_not_splits before hquote h]
  exact ⟨hiff, fun hopen => Scanner.next_of_not_splits before hquote (hiff.1 hopen)⟩

/-- A name that ends with a backtick, and a text that is never closed. -/
theorem next_quoted_backtick :
    Quoting.name.Splits "`a``` INT>" "a`" " INT>" ∧
      (Scanner.between "ROW<" "`a``` INT>").next =
        (⟨some (.quoted "a`"), 4, 9⟩, .between "ROW<`a```" " INT>") ∧
      (Scanner.between "INT " "'it''s").next =
        (⟨some .unterminated, 4, 10⟩, .between "INT 'it''s" "") := by
  have hsplits : Quoting.name.Splits "`a``` INT>" "a`" " INT>" :=
    ⟨by decide +kernel, by unfold NotNext; decide⟩
  have hopen : (Scanner.between "INT " "'it''s").next.1.token = some .unterminated := by
    decide +kernel
  have hname := (next_quoted_iff .name "ROW<" "`a``` INT>").1 _ _ hsplits
  have hstring := ((next_quoted_iff .string "INT " "'it''s").2.1 rfl).2 hopen
  exact ⟨hsplits, hname, hstring⟩

end SqlTypes
