import SqlTypes.Proofs.Agreement
import SqlTypes.Proofs.Relayout

/-!
# Texts cut off behind a token

If a text describes a type, then what is left of it where it is cut off behind any of its tokens
describes a type as well, or ends too early and is said to do so (`parse_truncated`). For the run
over the tokens that are left goes like the one over all tokens (`Reading.runOn_agree`) until it
comes to their end.
-/

namespace SqlTypes

open Text

namespace Piece

variable {p : Piece} {ps qs : List Piece} {tail : List Char}

/-- The end of a text does not go on with any token. -/
theorem closedBy_of_prefix {t : Token} {rest rest' : List Char} (h : t.ClosedBy rest)
    (hp : rest' <+: rest) : t.ClosedBy rest' := by
  rcases rest' with _ | ⟨c, cs⟩
  · exact closedBy_nil t
  · obtain ⟨ds, rfl⟩ := hp
    exact closedBy_cons h

theorem cut_of_append : ∀ {ps : List Piece}, Cut (ps ++ qs) tail → Cut ps []
  | [], _ => nofun
  | p :: ps, ⟨hgap, htext, hclosed, hcut⟩ => by
    have hp : join ps [] <+: join (ps ++ qs) tail := by
      rw [join_append, join_eq_append ps (join qs tail)]
      exact List.prefix_append _ _
    exact ⟨hgap, htext, closedBy_of_prefix hclosed hp, cut_of_append hcut⟩

end Piece

variable {context : Context} {s before after : String} {l : Lexeme}

theorem tokensOf_empty : tokensOf "" = [] := by
  have hcut : Piece.Cut [] [] := nofun
  exact Piece.tokensOf_eq rfl hcut

theorem toList_eq_of_utf8ByteSize {cs ds : List Char} (hs : s = before ++ after)
    (htoList : s.toList = cs ++ ds) (hlen : before.utf8ByteSize = byteLength cs) :
    before.toList = cs ∧ after.toList = ds := by
  rw [hs, String.toList_append] at htoList
  exact append_inj_of_byteLength htoList ((byteLength_toList before).trans hlen)

/-- A text that is cut off behind one of its tokens has the tokens up to there. -/
theorem tokensOf_before (hs : s = before ++ after) (hl : l ∈ tokenize s)
    (hstop : before.utf8ByteSize = l.stop) : tokensOf before <+: tokensOf s := by
  obtain ⟨ps, tail, hjoin, hcut⟩ := Piece.exists_cut s.toList
  rw [Piece.tokenize_eq hjoin hcut, List.mem_append, List.mem_singleton] at hl
  rcases hl with hl | rfl
  · obtain ⟨ls₁, ls₂, hls⟩ := List.append_of_mem hl
    obtain ⟨ps₁, p, ps₂, rfl, -, -, -, hl⟩ := Piece.lexemes_split hls
    rw [List.append_cons] at hjoin hcut
    have hp : Piece.join (ps₁ ++ [p]) [] = Piece.join ps₁ (p.gap ++ p.text) := by
      rw [Piece.join_append, Piece.join, Piece.join, List.append_nil]
    have htoList : s.toList = Piece.join (ps₁ ++ [p]) [] ++ Piece.join ps₂ tail := by
      rw [← hjoin, Piece.join_append, Piece.join_eq_append (ps₁ ++ [p])]
    obtain ⟨hbefore, -⟩ := toList_eq_of_utf8ByteSize hs htoList
      (by rw [hstop, hl, Nat.zero_add, hp])
    rw [Piece.tokensOf_eq hbefore.symm (Piece.cut_of_append hcut), Piece.tokensOf_eq hjoin hcut]
    exact (List.prefix_append _ _).map _
  · have htoList : s.toList = s.toList ++ [] := (List.append_nil _).symm
    obtain ⟨hbefore, -⟩ := toList_eq_of_utf8ByteSize hs htoList
      (hstop.trans (byteLength_toList s).symm)
    exact String.toList_injective hbefore ▸ List.prefix_rfl

theorem length_le_of_parse {r : Except Failure DataType} (h : parse context s = r)
    (hr : ∀ length limit, r ≠ .error (.inputTooLong length limit)) :
    s.utf8ByteSize ≤ context.limits.maxInputLength := by
  by_contra hlen
  rw [parse, report, if_pos (Nat.lt_of_not_le hlen)] at h
  exact hr _ _ h.symm

/-- If a text describes a type, then what is left of it where it is cut off behind one of its tokens
describes a type as well, or ends too early. -/
theorem parse_truncated (context : Context) {t : DataType} (h : parse context s = .ok t)
    (hs : s = before ++ after)
    (hcut : before = "" ∨ ∃ l ∈ tokenize s, before.utf8ByteSize = l.stop) :
    (∃ u, parse context before = .ok u) ∨
      parse context before =
        .error (.parse before.utf8ByteSize .unexpectedEnd "Unexpected end." before none) := by
  have hlen : s.utf8ByteSize ≤ context.limits.maxInputLength := length_le_of_parse h nofun
  have hlen' : before.utf8ByteSize ≤ context.limits.maxInputLength := by
    rw [hs, String.utf8ByteSize_append] at hlen
    exact Nat.le_of_add_right_le hlen
  obtain ⟨r, hr⟩ : tokensOf before <+: tokensOf s := by
    rcases hcut with rfl | ⟨l, hl, hstop⟩
    · rw [tokensOf_empty]
      exact List.nil_prefix
    · exact tokensOf_before hs hl hstop
  have hagree := Reading.runOn_agree context.loader context.limits.maxNestingDepth
    (tokensOf before) [] r
  rw [List.append_nil, hr] at hagree
  rw [parse_eq hlen, Parser.parse_start] at h
  rw [parse_eq hlen', Parser.parse_start]
  generalize Reading.runOn _ _ (tokensOf before) = x at hagree
  generalize Reading.runOn _ _ (tokensOf s) = y at hagree h
  cases hagree with
  | ok => exact .inl ⟨_, rfl⟩
  | error => cases h
  | apart _ _ hends =>
    rcases y with ⟨u, c⟩ | ⟨e, c⟩
    · have hend := hends rfl u c rfl
      rcases x with ⟨a, c'⟩ | ⟨f, c'⟩
      · exact .inl ⟨a, rfl⟩
      · obtain rfl : f = _ := hend
        exact .inr rfl
    · cases h

/-- Behind its first token, an array type is not at its end yet. -/
theorem parse_truncated_array :
    parse {} "ARRAY<INT>" = .ok { shape := .collection .array { shape := .atom (.plain .int) } } ∧
      "ARRAY<INT>" = "ARRAY" ++ "<INT>" ∧
      (∃ l ∈ tokenize "ARRAY<INT>", "ARRAY".utf8ByteSize = l.stop) ∧
      parse {} "ARRAY" = .error (.parse 5 .unexpectedEnd "Unexpected end." "ARRAY" none) := by
  have h : parse {} "ARRAY<INT>" =
      .ok { shape := .collection .array { shape := .atom (.plain .int) } } := by decide +kernel
  have hs : "ARRAY<INT>" = "ARRAY" ++ "<INT>" := by decide
  have hcut : ∃ l ∈ tokenize "ARRAY<INT>", "ARRAY".utf8ByteSize = l.stop := by decide +kernel
  refine ⟨h, hs, hcut, (parse_truncated {} h hs (.inr hcut)).resolve_left ?_⟩
  rintro ⟨u, hu⟩
  have hfail : (parse {} "ARRAY").isOk = false := by decide +kernel
  rw [hu] at hfail
  cases hfail

end SqlTypes
