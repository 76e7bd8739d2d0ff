import Mathlib.Data.List.TakeWhile
import SqlTypes.Proofs.TokenText

/-!
# Texts cut into tokens

A text is a sequence of pieces, each a token's own characters behind some separators, and further
separators behind the last one (`Piece.exists_cut`). Its lexemes are those of the pieces, and a
scanner that is asked for more repeats the end of the text (`Piece.tokenize_eq`, `Piece.steps_eq`).

So nothing of a text is lost in its lexemes (`tokenize_lossless`).
-/

namespace SqlTypes

open Text

/-- Characters that may stand between tokens. -/
def Separators (g : List Char) : Prop :=
  ∀ c ∈ g, isSeparator c

instance : DecidablePred Separators := fun g =>
  List.decidableBAll (isSeparator ·) g

/-- A token in a text, with the separators before it. -/
structure Piece where
  gap : List Char
  token : Token
  text : List Char

/-- The end of a text of so many bytes as a lexeme. -/
def Lexeme.endAt (offset : Nat) : Lexeme :=
  ⟨none, offset, offset⟩

namespace Piece

/-- The characters of pieces, with `tail` behind the last one. -/
def join : List Piece → List Char → List Char
  | [], tail => tail
  | p :: ps, tail => p.gap ++ (p.text ++ join ps tail)

/-- The lexemes of pieces in a text, the first of which begins at the byte `offset`. -/
def lexemes : (offset : Nat) → List Piece → List Lexeme
  | _, [] => []
  | offset, p :: ps =>
    let start := offset + byteLength p.gap
    let stop := start + byteLength p.text
    ⟨some p.token, start, stop⟩ :: lexemes stop ps

/-- The pieces are those that a scanner cuts off, and only separators are left behind them. -/
def Cut : List Piece → List Char → Prop
  | [], tail => Separators tail
  | p :: ps, tail =>
    Separators p.gap ∧ p.token.IsText p.text ∧ p.token.ClosedBy (join ps tail) ∧ Cut ps tail

variable {p : Piece} {ps qs : List Piece} {tail : List Char} {offset : Nat} {l : Lexeme}

theorem dropWhile_tail (ht : Separators tail) : tail.dropWhile isSeparator = [] :=
  List.dropWhile_eq_nil_iff.2 ht

theorem separators_takeWhile (cs : List Char) : Separators (cs.takeWhile isSeparator) :=
  List.all_eq_true.1 List.all_takeWhile

theorem exists_cut : ∀ cs : List Char, ∃ ps tail, join ps tail = cs ∧ Cut ps tail := by
  intro cs
  induction hn : cs.length using Nat.strongRecOn generalizing cs with
  | ind n ih =>
    have happ := List.takeWhile_append_dropWhile (p := isSeparator) (l := cs)
    have hgap := separators_takeWhile cs
    rcases hd : cs.dropWhile isSeparator with _ | ⟨c, ds⟩
    · rw [hd, List.append_nil] at happ
      exact ⟨[], cs, rfl, happ ▸ hgap⟩
    · have hc : isSeparator c = false := Token.head?_dropWhile (by rw [hd, List.head?_cons])
      obtain ⟨w, hw, htext, hclosed⟩ := Token.isText_take hc ds
      rw [hd, hw] at happ
      have hlen : (Token.take c ds).2.length < n := by
        have hw := List.length_pos_iff.2 (htext.ne_nil hclosed)
        rw [← hn, ← happ]
        simp only [List.length_append]
        omega
      obtain ⟨ps, tail, hjoin, hcut⟩ := ih _ hlen _ rfl
      refine ⟨⟨_, (Token.take c ds).1, w⟩ :: ps, tail, ?_, hgap, htext, ?_, hcut⟩
      · rw [join, hjoin, happ]
      · rwa [hjoin]

theorem cut_text_ne_nil (h : Cut (p :: ps) tail) : p.text ≠ [] :=
  h.2.1.ne_nil h.2.2.1

theorem cut_append : ∀ {ps : List Piece}, Cut (ps ++ qs) tail → Cut qs tail
  | [], h => h
  | _ :: _, h => cut_append h.2.2.2

theorem next_tail (ht : Separators tail) (offset : Nat) :
    Scanner.next ⟨tail, offset⟩ =
      (.endAt (offset + byteLength tail), ⟨[], offset + byteLength tail⟩) := by
  have htake : tail.takeWhile isSeparator = tail := List.takeWhile_eq_self_iff.2 ht
  rw [Scanner.next, dropWhile_tail ht, htake]
  rfl

theorem next_join (h : Cut (p :: ps) tail) (offset : Nat) :
    Scanner.next ⟨join (p :: ps) tail, offset⟩ =
      (⟨some p.token, offset + byteLength p.gap, offset + byteLength p.gap + byteLength p.text⟩,
        ⟨join ps tail, offset + byteLength p.gap + byteLength p.text⟩) := by
  obtain ⟨hgap, htext, hclosed, -⟩ := h
  obtain ⟨c, cs, hp, hc, htake⟩ := Token.take_of_isText htext hclosed
  have hrest : p.text ++ join ps tail = c :: (cs ++ join ps tail) := by rw [hp, List.cons_append]
  have hwidth := Scanner.width_append p.text (join ps tail)
  have hstop : ∀ d, (p.text ++ join ps tail).head? = some d → isSeparator d = false := by
    rintro d hd
    rw [hrest, List.head?_cons, Option.some.injEq] at hd
    exact hd ▸ hc
  obtain ⟨htw, hdw⟩ := Token.takeWhile_append_of_all hgap hstop
  rw [Scanner.next, join, htw, hdw, hrest]
  simp only [htake]
  rw [← hrest, hwidth]

theorem join_ne_nil (h : Cut (p :: ps) tail) : join (p :: ps) tail ≠ [] := by
  have := cut_text_ne_nil h
  simp [join, this]

theorem remaining_eq : ∀ (bound : List Char) {ps : List Piece} {tail : List Char} (offset : Nat)
    (before : List Lexeme), (join ps tail).length ≤ bound.length → Cut ps tail →
      Scanner.remaining ⟨join ps tail, offset⟩ before bound =
        before.reverse ++ (lexemes offset ps ++ [.endAt (offset + byteLength (join ps tail))])
  | [], [], tail, offset, before, _, h => by
    rw [Scanner.remaining, join, next_tail h]
    simp [lexemes]
  | [], p :: ps, tail, offset, before, hlen, h =>
    absurd (List.length_eq_zero_iff.1 (Nat.le_zero.1 hlen)) (join_ne_nil h)
  | _ :: bound, [], tail, offset, before, _, h => by
    rw [Scanner.remaining, join, next_tail h]
    simp [lexemes, Lexeme.endAt]
  | _ :: bound, p :: ps, tail, offset, before, hlen, h => by
    have hlen : (join ps tail).length ≤ bound.length := by
      have hp := List.length_pos_iff.2 (cut_text_ne_nil h)
      simp only [join, List.length_append, List.length_cons] at hlen
      omega
    rw [Scanner.remaining, next_join h, if_neg (by simp), remaining_eq bound _ _ hlen h.2.2.2]
    simp [lexemes, join, Nat.add_assoc]

/-- The lexemes of a text are those of its pieces, and its end. -/
theorem tokenize_eq {s : String} (hs : join ps tail = s.toList) (h : Cut ps tail) :
    tokenize s = lexemes 0 ps ++ [.endAt s.utf8ByteSize] := by
  rw [tokenize, Scanner.ofString, ← hs, remaining_eq _ 0 [] (Nat.le_refl _) h, hs]
  simp

theorem length_lexemes : ∀ (ps : List Piece) (offset : Nat), (lexemes offset ps).length = ps.length
  | [], _ => rfl
  | _ :: ps, _ => congrArg (· + 1) (length_lexemes ps _)

theorem token_lexemes : ∀ (ps : List Piece) (offset : Nat),
    (lexemes offset ps).filterMap (·.token) = ps.map (·.token)
  | [], _ => rfl
  | p :: ps, _ => congrArg (p.token :: ·) (token_lexemes ps _)

theorem tokensOf_eq {s : String} (hs : join ps tail = s.toList) (h : Cut ps tail) :
    tokensOf s = ps.map (·.token) := by
  rw [tokensOf, tokenize_eq hs h, List.filterMap_append, token_lexemes]
  exact List.append_nil _

theorem steps_end (offset : Nat) : ∀ n : Nat,
    Scanner.steps n ⟨[], offset⟩ = List.replicate n (.endAt offset)
  | 0 => rfl
  | n + 1 => by
    have hnil : Separators [] := nofun
    rw [Scanner.steps, next_tail hnil, byteLength_nil, Nat.add_zero, steps_end offset n,
      List.replicate_succ]

theorem take_append_replicate (ls : List Lexeme) (l : Lexeme) (n : Nat) :
    (ls ++ List.replicate (n + 2) l).take n = (ls ++ List.replicate (n + 1) l).take n := by
  have hlen : n ≤ (ls ++ List.replicate (n + 1) l).length := by
    rw [List.length_append, List.length_replicate]
    omega
  rw [List.replicate_succ', ← List.append_assoc, List.take_append_of_le_length hlen]

/-- Behind the last lexeme there is nothing but the end. -/
theorem steps_eq : ∀ (n : Nat) {ps : List Piece} {tail : List Char} (offset : Nat), Cut ps tail →
    Scanner.steps n ⟨join ps tail, offset⟩ =
      (lexemes offset ps ++
        List.replicate (n + 1) (Lexeme.endAt (offset + byteLength (join ps tail)))).take n
  | 0, _, _, _, _ => by rw [Scanner.steps, List.take_zero]
  | n + 1, [], tail, offset, h => by
    rw [Scanner.steps, join, next_tail h, steps_end, lexemes, List.nil_append, List.take_replicate,
      Nat.min_eq_left (by omega), List.replicate_succ]
  | n + 1, p :: ps, tail, offset, h => by
    have hbytes : offset + byteLength (join (p :: ps) tail) =
        offset + byteLength p.gap + byteLength p.text + byteLength (join ps tail) := by
      simp only [join, byteLength_append, Nat.add_assoc]
    rw [Scanner.steps, next_join h, steps_eq n _ h.2.2.2, hbytes, lexemes, List.cons_append,
      List.take_succ_cons, take_append_replicate]

/-! ## Where the lexemes are -/

theorem join_append : ∀ ps : List Piece, join (ps ++ qs) tail = join ps (join qs tail)
  | [] => rfl
  | p :: ps => by rw [List.cons_append, join, join_append ps, join]

theorem join_eq_append : ∀ (ps : List Piece) (tail : List Char), join ps tail = join ps [] ++ tail
  | [], tail => rfl
  | p :: ps, tail => by
    rw [join, join, join_eq_append ps, List.append_assoc, List.append_assoc]

/-- Each lexeme is that of a piece, and stands where this piece stands in the text. -/
theorem lexemes_split : ∀ {ps : List Piece} {offset : Nat} {ls₁ ls₂ : List Lexeme},
    lexemes offset ps = ls₁ ++ l :: ls₂ →
      ∃ ps₁ p ps₂, ps = ps₁ ++ p :: ps₂ ∧ ls₂ = lexemes l.stop ps₂ ∧ l.token = some p.token ∧
        l.start = offset + byteLength (join ps₁ p.gap) ∧
        l.stop = offset + byteLength (join ps₁ (p.gap ++ p.text))
  | [], _, _, _, h => by simp [lexemes] at h
  | p :: ps, offset, [], ls₂, h => by
    rw [lexemes, List.nil_append, List.cons.injEq] at h
    obtain ⟨rfl, rfl⟩ := h
    exact ⟨[], p, ps, rfl, rfl, rfl, rfl, by simp [join, Nat.add_assoc]⟩
  | p :: ps, offset, m :: ls₁, ls₂, h => by
    rw [lexemes, List.cons_append, List.cons.injEq] at h
    obtain ⟨ps₁, q, ps₂, rfl, hls, ht, hstart, hstop⟩ := lexemes_split h.2
    refine ⟨p :: ps₁, q, ps₂, rfl, hls, ht, ?_, ?_⟩
    · simp only [hstart, join, byteLength_append]
      omega
    · simp only [hstop, join, byteLength_append]
      omega

theorem le_start {ps : List Piece} {offset : Nat} (h : l ∈ lexemes offset ps) :
    offset ≤ l.start := by
  obtain ⟨ls₁, ls₂, hls⟩ := List.append_of_mem h
  obtain ⟨_, _, _, -, -, -, hstart, -⟩ := lexemes_split hls
  omega

theorem pairwise_lexemes : ∀ (ps : List Piece) (offset : Nat),
    (lexemes offset ps).Pairwise fun l m => l.stop ≤ m.start
  | [], _ => .nil
  | _ :: ps, _ => .cons (fun _ hm => le_start hm) (pairwise_lexemes ps _)

/-- A character of two texts one after the other is in the first or in the second. -/
theorem append_eq_append_cons {as bs before after : List Char} {c : Char}
    (h : as ++ bs = before ++ c :: after) :
    (∃ v, as = before ++ c :: v) ∨ ∃ v, before = as ++ v ∧ bs = v ++ c :: after := by
  rcases List.append_eq_append_iff.1 h with ⟨v, hb, hv⟩ | ⟨v, ha, hv⟩
  · exact .inr ⟨v, hb, hv⟩
  · cases v with
    | nil => exact .inr ⟨[], by simpa using ha.symm, hv.symm⟩
    | cons d v =>
      rw [List.cons_append, List.cons.injEq] at hv
      exact .inl ⟨v, hv.1 ▸ ha⟩

/-- A character that is no separator is in a lexeme. -/
theorem exists_lexeme : ∀ {ps : List Piece} {before after : List Char} {c : Char} (offset : Nat),
    Cut ps tail → join ps tail = before ++ c :: after → isSeparator c = false →
      ∃ l ∈ lexemes offset ps,
        l.start ≤ offset + byteLength before ∧ offset + byteLength before < l.stop
  | [], before, after, c, offset, h, hs, hc => by
    rw [join] at hs
    have hsep := h c (by simp [hs])
    simp [hc] at hsep
  | p :: ps, before, after, c, offset, h, hs, hc => by
    obtain ⟨hgap, -, -, hps⟩ := h
    have hpos := c.utf8Size_pos
    rcases append_eq_append_cons hs with ⟨v, hv⟩ | ⟨v, rfl, hrest⟩
    · have hsep := hgap c (by simp [hv])
      simp [hc] at hsep
    rcases append_eq_append_cons hrest with ⟨w, hw⟩ | ⟨w, rfl, htail⟩
    · refine ⟨_, List.mem_cons_self, ?_, ?_⟩
      all_goals
        simp only [hw, byteLength_append, byteLength_cons]
        omega
    · obtain ⟨l, hl, h₁, h₂⟩ :=
        exists_lexeme (offset + byteLength p.gap + byteLength p.text) hps htail hc
      refine ⟨l, List.mem_cons_of_mem _ hl, ?_, ?_⟩
      all_goals
        simp only [byteLength_append]
        omega

end Piece

/-- The characters `w` are those of `s` from the byte `start` up to the byte `stop`. -/
def Occupies (s : String) (w : List Char) (start stop : Nat) : Prop :=
  ∃ before after, s.toList = before ++ (w ++ after) ∧
    byteLength before = start ∧ byteLength (before ++ w) = stop

/-- What a token looks like: its canonical text, if it is no keyword, which may be in any letters,
and no open quote. -/
def Token.Shows : Token → List Char → Prop
  | .keyword k, w => w.map Char.toUpper = k.text.toList
  | .unterminated, w => ∃ q, IsQuote q ∧ w.head? = some q
  | t, w => w = t.text.toList

/-- The lexemes `ls` hold all of `s` but separators, in order. -/
structure Lossless (s : String) (ls : List Lexeme) : Prop where
  shows : ∀ l ∈ ls, ∃ t c cs, l.token = some t ∧ isSeparator c = false ∧ t.Shows (c :: cs) ∧
    Occupies s (c :: cs) l.start l.stop
  nonempty : ∀ l ∈ ls, l.start < l.stop
  ordered : ls.Pairwise fun l m => l.stop ≤ m.start
  covered : ∀ before c after, s.toList = before ++ c :: after → isSeparator c = false →
    ∃ l ∈ ls, l.start ≤ byteLength before ∧ byteLength before < l.stop
  /-- A quote that is not closed goes up to the end of the text. -/
  unterminated : ∀ ls₁ l ls₂, ls = ls₁ ++ l :: ls₂ → l.token = some .unterminated →
    ls₂ = [] ∧ l.stop = s.utf8ByteSize
  /-- No plain word is a keyword in other letters. -/
  word : ∀ l ∈ ls, ∀ name, l.token = some (.word name) →
    ∀ k : Keyword, name.toList.map Char.toUpper ≠ k.text.toList

theorem Token.IsText.shows {t : Token} {w : List Char} (h : t.IsText w) : t.Shows w := by
  cases t with
  | keyword => exact h
  | unterminated =>
    obtain ⟨q, ds, hq, rfl, -⟩ := h
    exact ⟨q, hq, rfl⟩
  | stray c => exact h.1.trans (String.toList_singleton c).symm
  | word | quoted | integer | string | symbol => exact h.1

namespace Piece

variable {ps : List Piece} {tail : List Char} {s : String}

theorem lossless (hs : join ps tail = s.toList) (h : Cut ps tail) :
    Lossless s (lexemes 0 ps) := by
  have split : ∀ {ls₁ l ls₂}, lexemes 0 ps = ls₁ ++ l :: ls₂ → ∃ p ps₂ before,
      Cut (p :: ps₂) tail ∧ ls₂ = lexemes l.stop ps₂ ∧ l.token = some p.token ∧
      s.toList = before ++ (p.text ++ join ps₂ tail) ∧ byteLength before = l.start ∧
      byteLength (before ++ p.text) = l.stop := by
    intro ls₁ l ls₂ hls
    obtain ⟨ps₁, p, ps₂, rfl, hls₂, ht, hstart, hstop⟩ := lexemes_split hls
    refine ⟨p, ps₂, join ps₁ p.gap, cut_append h, hls₂, ht, ?_, ?_, ?_⟩
    · rw [← hs, join_append, join, join_eq_append ps₁, join_eq_append ps₁ p.gap, List.append_assoc]
    · rw [hstart, Nat.zero_add]
    · rw [hstop, Nat.zero_add, join_eq_append, join_eq_append ps₁ (p.gap ++ p.text),
        List.append_assoc]
  constructor
  case shows =>
    intro l hl
    obtain ⟨ls₁, ls₂, hls⟩ := List.append_of_mem hl
    obtain ⟨p, ps₂, before, ⟨-, htext, hclosed, -⟩, -, ht, htoList, hstart, hstop⟩ := split hls
    obtain ⟨c, cs, hp, hc, -⟩ := Token.take_of_isText htext hclosed
    rw [hp] at htext htoList hstop
    exact ⟨p.token, c, cs, ht, hc, htext.shows, before, _, htoList, hstart, hstop⟩
  case nonempty =>
    intro l hl
    obtain ⟨ls₁, ls₂, hls⟩ := List.append_of_mem hl
    obtain ⟨p, ps₂, before, hcut, -, -, -, hstart, hstop⟩ := split hls
    obtain ⟨c, cs, hp⟩ := List.exists_cons_of_ne_nil (cut_text_ne_nil hcut)
    have := c.utf8Size_pos
    rw [← hstart, ← hstop, hp, byteLength_append, byteLength_cons]
    omega
  case ordered => exact pairwise_lexemes ps 0
  case covered =>
    intro before c after hc hsep
    obtain ⟨l, hl, h₁, h₂⟩ := exists_lexeme 0 h (hs.trans hc) hsep
    rw [Nat.zero_add] at h₁ h₂
    exact ⟨l, hl, h₁, h₂⟩
  case unterminated =>
    intro ls₁ l ls₂ hls hl
    obtain ⟨p, ps₂, before, ⟨-, -, hclosed, hcut⟩, hls₂, ht, htoList, -, hstop⟩ := split hls
    rw [hl, Option.some.injEq] at ht
    rw [← ht] at hclosed
    have hnil : join ps₂ tail = [] := hclosed
    have hps₂ : ps₂ = [] := by
      cases ps₂ with
      | nil => rfl
      | cons q qs => exact absurd hnil (join_ne_nil hcut)
    refine ⟨by rw [hls₂, hps₂, lexemes], ?_⟩
    rw [← hstop, ← byteLength_toList, htoList, hnil, List.append_nil]
  case word =>
    intro l hl name hname k hk
    obtain ⟨ls₁, ls₂, hls⟩ := List.append_of_mem hl
    obtain ⟨p, ps₂, before, ⟨-, htext, -, -⟩, -, ht, -⟩ := split hls
    rw [hname, Option.some.injEq] at ht
    rw [← ht] at htext
    obtain ⟨hw, -, hnone⟩ := htext
    rw [hw, (Token.isWord_of_keyword hk).2] at hnone
    cases hnone

end Piece

/-- The lexemes of a text hold all of it but separators, and end with its end. A scanner that goes
on finds just these, and then the end again and again. -/
theorem tokenize_lossless (s : String) :
    ∃ ls, tokenize s = ls ++ [.endAt s.utf8ByteSize] ∧ Lossless s ls ∧
      ∀ n, (Scanner.ofString s).steps n =
        (tokenize s ++ List.replicate n (Lexeme.endAt s.utf8ByteSize)).take n := by
  obtain ⟨ps, tail, hs, h⟩ := Piece.exists_cut s.toList
  have htokenize := Piece.tokenize_eq hs h
  refine ⟨Piece.lexemes 0 ps, htokenize, Piece.lossless hs h, fun n => ?_⟩
  rw [Scanner.ofString, ← hs, Piece.steps_eq n 0 h, hs, htokenize, List.replicate_succ]
  simp

end SqlTypes
