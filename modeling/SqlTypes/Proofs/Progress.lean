import SqlTypes.Proofs.Calls
import SqlTypes.Proofs.Recursion

/-!
# Progress

Every type expression that is begun is paid for by its first token, which it looks at when it begins
and passes before another one begins inside it (`Reading.base_pays`). A collection behind its
element is paid for by its keyword. So the tokens passed, and the one looked at, pay for all types
that are begun or open (`Cursor.Paid`), and they are paid for by the bytes of the text, whatever the
limit is (`Parser.parse_progress`).
-/

namespace SqlTypes

/-- Every piece has a byte at least. -/
theorem Piece.length_le_byteLength : ∀ {ps : List Piece} {tail : List Char}, Cut ps tail →
    ps.length ≤ Text.byteLength (join ps tail)
  | [], _, _ => Nat.zero_le _
  | p :: ps, tail, h => by
    have hps := length_le_byteLength h.2.2.2
    obtain ⟨c, cs, hp⟩ := List.exists_cons_of_ne_nil (cut_text_ne_nil h)
    have hc := c.utf8Size_pos
    rw [join, hp, Text.byteLength_append, Text.byteLength_append, Text.byteLength_cons,
      List.length_cons]
    omega

theorem length_tokensOf_le (s : String) : (tokensOf s).length ≤ s.utf8ByteSize := by
  obtain ⟨ps, tail, hs, h⟩ := Piece.exists_cut s.toList
  have hlen := Piece.length_le_byteLength h
  rwa [hs, Text.byteLength_toList, ← List.length_map (f := (·.token)), ← Piece.tokensOf_eq hs h]
    at hlen

/-- The tokens passed, and `k` more, pay for all type expressions begun, for all types open, and for
the most that ever were. -/
structure Cursor.Paid (k : Nat) (c : Cursor) : Prop where
  begun : c.begun ≤ c.passed + k
  depth : c.depth ≤ c.passed + k
  deepest : c.deepest ≤ c.passed + k

namespace Cursor.Paid

variable {c : Cursor} {k : Nat}

theorem succ (h : c.Paid k) : c.Paid (k + 1) :=
  ⟨Nat.le_succ_of_le h.begun, Nat.le_succ_of_le h.depth, Nat.le_succ_of_le h.deepest⟩

theorem skip (h : c.Paid (k + 1)) : c.skip.Paid k := by
  obtain ⟨hbegun, hdepth, hdeepest⟩ := h
  constructor <;> simp only [Cursor.skip] <;> omega

theorem started_entered (h : c.Paid k) : c.started.entered.Paid (k + 1) :=
  ⟨Nat.succ_le_succ h.begun, Nat.succ_le_succ h.depth,
    Nat.max_le.2 ⟨Nat.le_succ_of_le h.deepest, Nat.succ_le_succ h.depth⟩⟩

/-- The token passed pays for the type that is opened behind it. -/
theorem skip_entered (h : c.Paid k) : c.skip.entered.Paid k := by
  obtain ⟨hbegun, hdepth, hdeepest⟩ := h
  constructor <;> simp only [entered, Cursor.skip] <;> omega

theorem left (h : c.Paid k) : c.left.Paid k :=
  ⟨h.begun, (Nat.sub_le _ 1).trans h.depth, h.deepest⟩

end Cursor.Paid

open Cursor (Paid)

namespace Reading

variable {α : Type} {x : Reading α} {inner : Reading DataType} {loader : Loader} {t : DataType}
  {c c' : Cursor} {limit levels : Nat}

/-- Where `k` more than the tokens passed pay, `x` ends where these alone do, or stops with one
more. -/
abbrev Pays (k : Nat) (x : Reading α) : Prop :=
  Leads (Paid k) x (fun _ => Paid 0) fun _ => Paid 1

theorem pays_of_alike {V : α → α → Prop} (hi : Pays 0 inner)
    (hx : Alike (fun _ _ => True) (fun _ _ => True) inner inner V x x) : Pays 0 x :=
  (hx.leads (fun _ _ hc _ => hc.succ.skip) (fun _ _ => ⟨0, trivial⟩)
    (fun _ _ _ hc _ => hc.succ) hi).mono fun _ _ hQ => hQ.1

theorem nothing_pays : Pays 0 nothing :=
  fun _ hc => hc.succ

/-- The first token of a base pays for the type expression that begins with it. -/
theorem base_pays (loader : Loader) (hi : Pays 0 inner) : Pays 1 (base loader inner) := by
  intro c hc
  rcases run_base_cases c with ⟨k, -, hrun⟩ | ⟨n, hn, hrun⟩ | hrun <;> rw [hrun]
  · have hafter : Pays 0 (afterKeyword loader inner c.passed k) := by
      refine pays_of_alike hi (.afterKeyword trivial (fun _ => ?_) fun _ => ?_)
      · exact .raw trivial fun _ _ _ _ => trivial
      · exact .legacy fun _ _ _ => trivial
    exact hafter hc.skip
  · obtain ⟨rest, hrest⟩ := List.head?_eq_some_iff.1 hn
    have hbehind : Pays 0 (do
        let others ← moreSegments (maxSegments - 1)
        let name ← orFailAt c.passed (QualifiedName.ofSegments (n.text :: others))
        make c.passed (.atom (.unresolved name))) := by
      refine pays_of_alike (V := Eq) nothing_pays (.bindEq (.moreSegments _) fun others => ?_)
      refine .bindEq (.orFailAt trivial _) fun name => ?_
      exact .make trivial _
    rw [unresolved, run_bind_of_ok (run_here c), run_bind_of_ok (run_name hrest)]
    exact hbehind hc.skip
  · obtain ⟨e, he⟩ := run_refuse (α := DataType) (.tokenExpected .keyword) c
    rw [he]
    exact hc

theorem nullability_pays (t : DataType) : Pays 0 (nullability t) :=
  pays_of_alike nothing_pays (.nullability t)

theorem wrapped_pays (limit : Nat) : ∀ (levels : Nat) (t : DataType),
    Pays 0 (wrapped limit levels t)
  | 0, u => by
    intro c hc
    rcases run_wrapper?_cases c with ⟨k, t, -, hw⟩ | hw <;> rw [wrapped, run_bind_of_ok hw]
    · exact hc.skip_entered.succ
    · exact hc
  | levels + 1, u => by
    intro c hc
    rcases run_wrapper?_cases c with ⟨k, t, -, hw⟩ | hw <;> rw [wrapped_succ, run_bind_of_ok hw]
    · have hmark := nullability_pays { shape := .collection k u }
      have hinside := hmark.bind (wrapped_pays limit levels)
      exact Leads.nested (P := fun c => c.entered.Paid 0) (fun _ h => h) hinside
        (fun _ _ h => h.left) hc.skip_entered
    · exact hc

/-- Whatever a type expression begins and opens, the tokens that it passes pay for it. -/
theorem typeExpression_pays (loader : Loader) (limit : Nat) :
    ∀ levels : Nat, Pays 0 (typeExpression loader limit levels)
  | 0 => fun _ hc => hc.started_entered
  | levels + 1 => by
    have hbase := base_pays loader (typeExpression_pays loader limit levels)
    have hexpression := hbase.bind fun t => (nullability_pays t).bind (wrapped_pays limit levels)
    -- nothing is passed between the beginning and the base, so both are owed by one token
    have hnested := Leads.nested (P := fun c => c.entered.Paid 1) (fun _ h => h) hexpression
      fun _ _ h => h.left
    intro c hc
    rw [typeExpression_succ, run_bind_of_ok (run_begin c)]
    exact hnested hc.started_entered

/-- Whatever comes of a description, one more than the tokens passed pays for it: the token that
comes next, or the end. -/
theorem description_paid (loader : Loader) (limit : Nat) (hc : c.Paid 0) :
    (finish ((description loader limit).run c)).Paid 1 := by
  have hend : ∀ t, Pays 0 (ending t) := fun t =>
    pays_of_alike nothing_pays (.ending (fun _ _ _ _ => trivial) t)
  have hpays := (typeExpression_pays loader limit (limit - c.depth)).bind hend hc
  rw [← run_description] at hpays
  rcases hr : (description loader limit).run c with ⟨t, c'⟩ | ⟨e, c'⟩ <;> rw [hr] at hpays
  · exact hpays.succ
  · exact hpays

/-- A type expression that is read to its end has passed a token. -/
theorem passed_lt_of_typeExpression (h : (typeExpression loader limit levels).run c = .ok t c') :
    c.passed < c'.passed := by
  obtain ⟨p, -, -, hp⟩ := typeExpression_passes loader limit levels h
  have hlen := p.depth_le_length
  have hheight := p.height_pos
  have hdepth := p.height_le_depth
  rw [hp.passed]
  omega

end Reading

namespace Parser

theorem paid_parse (context : Context) (s : String) :
    (start context s).parse.2.cursor.Paid 1 := by
  have hstart : (start context s).cursor.Paid 0 := ⟨Nat.le_refl 0, Nat.le_refl 0, Nat.le_refl 0⟩
  rw [parse_eq_after, cursor_after]
  exact Reading.description_paid _ _ hstart

theorem tokensConsumed_parse_le (context : Context) (s : String) :
    (start context s).parse.2.tokensConsumed ≤ s.utf8ByteSize + 1 :=
  calc (start context s).parse.2.tokensConsumed
    _ ≤ (tokenize s).length := standing_start.parse.tokensConsumed_le.2
    _ = (tokensOf s).length + 1 := length_tokenize s
    _ ≤ s.utf8ByteSize + 1 := Nat.succ_le_succ (length_tokensOf_le s)

/-- Whatever the text and the limits are, a parser comes to an end. It begins no more type
expressions, and opens no more types at once, than it looks at tokens, and these are no more than
the bytes of the text and its end. It opens one type more than the limit allows at most. A type
expression that is read to its end has passed a token. The recursion of a description and of the
members of a type may just as well be bounded by the tokens that are left, whatever would be thrown
where these are used up. -/
theorem parse_progress (context : Context) (s : String) :
    let p := (start context s).parse.2
    let limit := context.limits.maxNestingDepth
    p.cursor.begun ≤ p.tokensConsumed ∧ p.maxDepth ≤ p.tokensConsumed ∧
      p.tokensConsumed ≤ s.utf8ByteSize + 1 ∧ p.maxDepth ≤ limit + 1 ∧
      (∀ levels c t c', (Reading.typeExpression context.loader limit levels).run c = .ok t c' →
        c.passed < c'.passed) ∧
      ∀ e : Fault,
        Reading.descriptionWithin e context.loader limit =
          Reading.description context.loader limit ∧
        ∀ levels before,
          Reading.membersWithin e (Reading.typeExpression context.loader limit levels) before =
            Reading.membersAfter (Reading.typeExpression context.loader limit levels) before := by
  intro p limit
  have hpaid : p.cursor.Paid 1 := paid_parse context s
  have hdepth : p.maxDepth ≤ limit + 1 := maxDepth_afterCalls context s 1
  refine ⟨hpaid.begun, hpaid.deepest, tokensConsumed_parse_le context s, hdepth,
    fun _ _ _ _ => Reading.passed_lt_of_typeExpression, fun e => ?_⟩
  refine ⟨Reading.descriptionWithin_eq e context.loader limit, fun levels before => ?_⟩
  have hreads := Reading.typeExpression_passes context.loader limit levels
  exact Reading.membersWithin_eq e hreads before

/-- The greatest limit that a word of 64 bits holds. -/
def hardlyLimited : Context := { limits := { maxNestingDepth := UInt64.size - 1 } }

/-- The text ends where the outer array is to be closed. The inner one is read to its end, three
types were open, and two type expressions begun. -/
theorem parse_progress_openArray :
    let p := (start hardlyLimited "ARRAY<INT ARRAY").parse.2
    let c : Cursor :=
      { rest := tokensOf "INT ARRAY", passed := 2, depth := 1, deepest := 1, begun := 1 }
    let limit := hardlyLimited.limits.maxNestingDepth
    (∃ t, (Reading.typeExpression .refusing limit (limit - 1)).run c = .ok t p.cursor) ∧
      c.passed < p.cursor.passed ∧ p.cursor.begun = 2 ∧ 2 ≤ p.tokensConsumed ∧
      p.maxDepth = 3 ∧ 3 ≤ p.tokensConsumed ∧ p.tokensConsumed ≤ 16 := by
  intro p c limit
  have hcursor : p.cursor = { rest := [], passed := 4, depth := 1, deepest := 3, begun := 2 } := by
    decide +kernel
  have hinner : (Reading.typeExpression .refusing limit (limit - 1)).run c =
      .ok { shape := .collection .array { shape := .atom (.plain .int) } } p.cursor := by
    rw [hcursor]
    rfl
  have hbegun : p.cursor.begun = 2 := by rw [hcursor]
  have hmax : p.maxDepth = 3 := by rw [maxDepth, hcursor]
  have hbytes : "ARRAY<INT ARRAY".utf8ByteSize + 1 = 16 := by decide +kernel
  obtain ⟨hbegins, hopens, hlooks, -, hpasses, -⟩ := parse_progress hardlyLimited "ARRAY<INT ARRAY"
  exact ⟨⟨_, hinner⟩, hpasses _ _ _ _ hinner, hbegun, hbegun ▸ hbegins, hmax, hmax ▸ hopens,
    hbytes ▸ hlooks⟩

end Parser

end SqlTypes
