import SqlTypes.Proofs.Relayout

/-!
# Texts one after the other

Two texts in a row have the tokens of the one and then those of the other, if the second does not
go on with the last token of the first (`tokensOf_append`). A blank or a symbol between them sees to
that. The other way round, what is left of a text from one of its tokens on has the lexemes that
the text has from there on (`exists_rest`).
-/

namespace SqlTypes

open Text

theorem Token.closedBy_append {t : Token} {cs ds : List Char} (h : t.ClosedBy cs)
    (hds : cs = [] → t.ClosedBy ds) : t.ClosedBy (cs ++ ds) := by
  cases cs with
  | nil => exact hds rfl
  | cons c cs => exact Piece.closedBy_cons h

namespace Piece

variable {p : Piece} {qs : List Piece} {tail tail' : List Char}

theorem separators_append {g h : List Char} (hg : Separators g) (hh : Separators h) :
    Separators (g ++ h) := by
  intro c hc
  rcases List.mem_append.1 hc with hc | hc
  · exact hg c hc
  · exact hh c hc

/-- The pieces of two texts in a row; what is left behind the pieces of the one stands before the
first piece of the other. -/
theorem exists_cut_append : ∀ {ps : List Piece}, Cut ps tail → Cut qs tail' →
    (∀ t, (ps.map (·.token)).getLast? = some t → t.ClosedBy (join qs tail')) →
      ∃ rs tail'', join rs tail'' = join ps tail ++ join qs tail' ∧ Cut rs tail'' ∧
        rs.map (·.token) = ps.map (·.token) ++ qs.map (·.token)
  | [], hps, hqs, _ => by
    cases qs with
    | nil => exact ⟨[], tail ++ tail', rfl, separators_append hps hqs, rfl⟩
    | cons q qs =>
      obtain ⟨hgap, htext, hclosed, hcut⟩ := hqs
      refine ⟨⟨tail ++ q.gap, q.token, q.text⟩ :: qs, tail', ?_, ?_, rfl⟩
      · simp [join]
      · exact ⟨separators_append hps hgap, htext, hclosed, hcut⟩
  | p :: ps, ⟨hgap, htext, hclosed, hps⟩, hqs, hlast => by
    have hlast' : ∀ t, (ps.map (·.token)).getLast? = some t → t.ClosedBy (join qs tail') := by
      intro t ht
      refine hlast t ?_
      rw [List.map_cons, List.getLast?_cons, ht]
      rfl
    obtain ⟨rs, tail'', hjoin, hcut, htokens⟩ := exists_cut_append hps hqs hlast'
    refine ⟨p :: rs, tail'', ?_, ⟨hgap, htext, ?_, hcut⟩, by simp [htokens]⟩
    · simp [join, hjoin]
    · rw [hjoin]
      refine Token.closedBy_append hclosed fun hnil => ?_
      -- nothing is behind the token, so that it is the last one
      cases ps with
      | nil => exact hlast p.token rfl
      | cons p' ps => exact absurd hnil (join_ne_nil hps)

end Piece

variable {s a b : String}

/-- The tokens of two texts in a row, where the second does not go on with the last token of the
first. -/
theorem tokensOf_append (h : ∀ t, (tokensOf a).getLast? = some t → t.ClosedBy b.toList) :
    tokensOf (a ++ b) = tokensOf a ++ tokensOf b := by
  obtain ⟨ps, tail, ha, hps⟩ := Piece.exists_cut a.toList
  obtain ⟨qs, tail', hb, hqs⟩ := Piece.exists_cut b.toList
  rw [Piece.tokensOf_eq ha hps, ← hb] at h
  obtain ⟨rs, tail'', hjoin, hrs, htokens⟩ := Piece.exists_cut_append hps hqs h
  have hab : Piece.join rs tail'' = (a ++ b).toList := by rw [hjoin, ha, hb, String.toList_append]
  rw [Piece.tokensOf_eq hab hrs, Piece.tokensOf_eq ha hps, Piece.tokensOf_eq hb hqs, htokens]

/-- The text begins with a character that goes on with no token. -/
def Severs (b : String) : Prop :=
  ∃ c cs, b.toList = c :: cs ∧ Token.EndsTokens c

theorem Severs.append (h : Severs a) (b : String) : Severs (a ++ b) := by
  obtain ⟨c, cs, ha, hc⟩ := h
  exact ⟨c, cs ++ b.toList, by rw [String.toList_append, ha, List.cons_append], hc⟩

theorem tokensOf_append_of_severs (ha : .unterminated ∉ tokensOf a) (hb : Severs b) :
    tokensOf (a ++ b) = tokensOf a ++ tokensOf b := by
  obtain ⟨c, cs, hb, hc⟩ := hb
  refine tokensOf_append fun t ht => ?_
  rw [hb]
  refine Token.closedBy_of_endsTokens ?_ hc
  rintro rfl
  exact ha (List.mem_of_getLast? ht)

/-- Anything may stand behind a symbol. -/
theorem tokensOf_append_of_symbol {ts : List Token} {x : Symbol}
    (ha : tokensOf a = ts ++ [.symbol x]) : tokensOf (a ++ b) = tokensOf a ++ tokensOf b := by
  refine tokensOf_append fun t ht => ?_
  rw [ha, List.getLast?_concat, Option.some.injEq] at ht
  exact ht ▸ trivial

theorem tokensOf_blank_append (b : String) : tokensOf (" " ++ b) = tokensOf b := by
  have hblank : tokensOf " " = [] := by decide +kernel
  rw [tokensOf_append (by simp [hblank]), hblank, List.nil_append]

/-- A token is read back from its own text. -/
theorem Token.tokensOf_text {t : Token} (ht : t.Spelled) : tokensOf t.text = [t] := by
  have h : tokensOf (layout [t]) = [t] := Token.tokensOf_layout (by simpa using ht)
  rwa [layout, pieces, String.join_cons, String.join_nil, String.append_empty] at h

/-- The same token so many bytes further on. -/
def Lexeme.behind (offset : Nat) (l : Lexeme) : Lexeme :=
  ⟨l.token, offset + l.start, offset + l.stop⟩

namespace Piece

variable {ps qs : List Piece} {tail : List Char}

theorem lexemes_behind (k : Nat) : ∀ (ps : List Piece) (offset : Nat),
    lexemes (k + offset) ps = (lexemes offset ps).map (Lexeme.behind k)
  | [], _ => rfl
  | p :: ps, offset => by
    simp only [lexemes, List.map_cons, Lexeme.behind, Nat.add_assoc, lexemes_behind k ps]

theorem lexemes_append : ∀ (ps : List Piece) (offset : Nat),
    lexemes offset (ps ++ qs) =
      lexemes offset ps ++ lexemes (offset + byteLength (join ps [])) qs
  | [], _ => rfl
  | p :: ps, offset => by
    simp only [List.cons_append, lexemes, lexemes_append ps, join, byteLength_append, Nat.add_assoc]

end Piece

/-- What is left of a text from one of its tokens on, and where the lexemes of the text stand in
this rest. -/
theorem exists_rest {n : Nat} {l : Lexeme} (hn : n < (tokensOf s).length)
    (hl : (tokenize s)[n]? = some l) :
    ∃ before after, s = before ++ after ∧ before.utf8ByteSize = l.start ∧
      tokensOf after = (tokensOf s).drop n ∧
      (tokenize s).drop n = (tokenize after).map (Lexeme.behind l.start) := by
  obtain ⟨ps, tail, hs, hcut⟩ := Piece.exists_cut s.toList
  rw [Piece.tokensOf_eq hs hcut, List.length_map] at hn
  obtain ⟨ps₁, p, ps₂, rfl, rfl⟩ : ∃ ps₁ p ps₂, ps = ps₁ ++ p :: ps₂ ∧ ps₁.length = n :=
    ⟨ps.take n, ps[n], ps.drop (n + 1), by rw [List.getElem_cons_drop, List.take_append_drop],
      List.length_take_of_le hn.le⟩
  -- the rest begins with the token itself, without the separators before it
  let q : Piece := ⟨[], p.token, p.text⟩
  let before := Piece.join ps₁ p.gap
  let after := Piece.join (q :: ps₂) tail
  have hsplit : s.toList = before ++ after := by
    rw [← hs, Piece.join_append, Piece.join, Piece.join_eq_append ps₁, ← List.append_assoc,
      ← Piece.join_eq_append ps₁]
    rfl
  have hsep : Separators [] := fun c hc => absurd hc List.not_mem_nil
  have hrest : Piece.Cut (q :: ps₂) tail := by
    obtain ⟨-, htext, hclosed, hps₂⟩ := Piece.cut_append hcut
    exact ⟨hsep, htext, hclosed, hps₂⟩
  have hafter : Piece.join (q :: ps₂) tail = (String.ofList after).toList :=
    String.toList_ofList.symm
  have hbytes : byteLength before = byteLength (Piece.join ps₁ []) + byteLength p.gap := by
    rw [← byteLength_append, ← Piece.join_eq_append]
  have hsize : s.utf8ByteSize = byteLength before + byteLength after := by
    rw [← byteLength_toList, hsplit, byteLength_append]
  have hlexemes : tokenize s = Piece.lexemes 0 ps₁ ++
      (tokenize (String.ofList after)).map (Lexeme.behind (byteLength before)) := by
    have hq : Piece.lexemes (byteLength (Piece.join ps₁ [])) (p :: ps₂) =
        Piece.lexemes (byteLength before + 0) (q :: ps₂) := by
      simp [Piece.lexemes, hbytes, q]
    rw [Piece.tokenize_eq hs hcut, Piece.tokenize_eq hafter hrest, Piece.lexemes_append,
      Nat.zero_add, hq, Piece.lexemes_behind, List.map_append, List.append_assoc,
      utf8ByteSize_ofList, hsize]
    rfl
  have hlen := Piece.length_lexemes ps₁ 0
  have hstart : l.start = byteLength before := by
    rw [hlexemes, Piece.tokenize_eq hafter hrest, List.getElem?_append_right hlen.le, hlen,
      Nat.sub_self] at hl
    simp only [Piece.lexemes, List.cons_append, List.map_cons, List.getElem?_cons_zero,
      Option.some.injEq] at hl
    rw [← hl]
    simp [Lexeme.behind, q]
  refine ⟨String.ofList before, String.ofList after, ?_, ?_, ?_, ?_⟩
  · rw [← String.ofList_append, ← hsplit, String.ofList_toList]
  · rw [utf8ByteSize_ofList, hstart]
  · rw [Piece.tokensOf_eq hafter hrest, Piece.tokensOf_eq hs hcut, List.map_append,
      List.drop_left' (List.length_map _)]
    rfl
  · rw [hstart, hlexemes, List.drop_left' hlen]

end SqlTypes
