import Mathlib.Tactic.Common
import SqlTypes.Proofs.Acceptance
import SqlTypes.Token.Layout

/-!
# Scanning what was laid out

A token that is read alone from its text is read from it in front of anything that does not go on
with it (`Token.take_text`). The standard layout leaves a blank or a symbol there, so the tokens of
a layout are those that were laid out (`tokensOf_layout`).
-/

namespace SqlTypes

open Text

/-- The tokens of a text, each behind separators. -/
inductive Scans : List Char → List Token → Prop where
  | done {cs} : cs.dropWhile isSeparator = [] → Scans cs []
  | token {cs c ds t rest ts} : cs.dropWhile isSeparator = c :: ds →
      Token.take c ds = (t, rest) → Scans rest ts → Scans cs (t :: ts)

namespace Scanner

theorem next_of_done {s : Scanner} (h : s.rest.dropWhile isSeparator = []) :
    s.next.1.token = none := by
  rw [next, h]

theorem next_of_token {s : Scanner} {c : Char} {ds rest : List Char} {t : Token}
    (h : s.rest.dropWhile isSeparator = c :: ds) (ht : Token.take c ds = (t, rest)) :
    s.next.1.token = some t ∧ s.next.2.rest = rest := by
  rw [next, h]
  simp [ht]

theorem remaining_of_scans {ts : List Token} : ∀ (bound : List Char) (s : Scanner)
    (before : List Lexeme), s.rest.length ≤ bound.length → Scans s.rest ts →
      (s.remaining before bound).filterMap (·.token) =
        before.reverse.filterMap (·.token) ++ ts := by
  intro bound
  induction bound generalizing ts with
  | nil =>
    intro s before hlen h
    have hnil : s.rest = [] := List.length_eq_zero_iff.1 (by simpa using hlen)
    rw [hnil] at h
    cases h with
    | done h => simp [remaining, next_of_done (s := s) (by rw [hnil]; exact h)]
    | token h => cases h
  | cons b bound ih =>
    intro s before hlen h
    cases h with
    | done h => simp [remaining, next_of_done h]
    | token h ht hrest =>
      obtain ⟨htoken, hnext⟩ := next_of_token h ht
      have hlt := length_next_lt (s := s) (by rw [htoken]; nofun)
      rw [remaining, if_neg (by rw [htoken]; nofun), ih _ _ ?_ (hnext ▸ hrest)]
      · simp [htoken]
      · simp only [List.length_cons] at hlen
        omega

end Scanner

theorem tokensOf_of_scans {s : String} {ts : List Token} (h : Scans s.toList ts) :
    tokensOf s = ts :=
  Scanner.remaining_of_scans s.toList (Scanner.ofString s) [] (Nat.le_refl _) h

theorem Scans.of_separator {c : Char} {cs : List Char} {ts : List Token} (hc : isSeparator c)
    (h : Scans cs ts) : Scans (c :: cs) ts := by
  have hd : (c :: cs).dropWhile isSeparator = cs.dropWhile isSeparator := by
    rw [List.dropWhile_cons, if_pos hc]
  cases h with
  | done h => exact .done (hd.trans h)
  | token h ht hrest => exact .token (hd.trans h) ht hrest

namespace Token

/-- Tokens that are read from their own text: no words, and nothing that is no proper token. -/
def Spelled : Token → Prop
  | .keyword _ | .quoted _ | .string _ | .symbol _ => True
  | .integer digits => digits.toList ≠ [] ∧ ∀ c ∈ digits.toList, c.isDigit
  | .word _ | .unterminated | .stray _ => False

/-- What follows does not go on with the token before it. -/
def EndedBy (t : Token) (rest : List Char) : Prop :=
  match t with
  | .keyword _ => ∀ c, rest.head? = some c → isWordPart c = false
  | .integer _ => ∀ c, rest.head? = some c → c.isDigit = false
  | .quoted _ => NotNext backtick rest
  | .string _ => NotNext apostrophe rest
  | _ => True

theorem takeWhile_append_of_all {p : Char → Bool} {cs rest : List Char} (hcs : ∀ c ∈ cs, p c)
    (hrest : ∀ c, rest.head? = some c → p c = false) :
    (cs ++ rest).takeWhile p = cs ∧ (cs ++ rest).dropWhile p = rest := by
  have hstop : rest.takeWhile p = [] ∧ rest.dropWhile p = rest := by
    cases rest with
    | nil => exact ⟨rfl, rfl⟩
    | cons c rest => simp [hrest c rfl]
  rw [List.takeWhile_append_of_pos hcs, List.dropWhile_append_of_pos hcs, hstop.1, hstop.2,
    List.append_nil]
  exact ⟨rfl, rfl⟩

/-- A keyword is a word that begins like no other token. -/
theorem keyword_text (k : Keyword) : ∃ c cs, k.text.toList = c :: cs ∧
    (c ≠ backtick ∧ c ≠ apostrophe ∧ c.isDigit = false ∧ Symbol.ofChar? c = none) ∧
    isWordStart c ∧ (∀ d ∈ cs, isWordPart d) ∧ isSeparator c = false ∧
    Keyword.ofWord? (c :: cs) = some k := by
  cases k <;>
    exact ⟨_, _, rfl, by decide, by decide, List.all_eq_true.1 (by decide), by decide, by decide⟩

theorem symbol_text (s : Symbol) :
    (s.char ≠ backtick ∧ s.char ≠ apostrophe ∧ s.char.isDigit = false) ∧
      isSeparator s.char = false := by
  cases s <;> decide

theorem isDigit_ne {c : Char} (h : c.isDigit) : c ≠ backtick ∧ c ≠ apostrophe := by
  constructor <;>
  · rintro rfl
    revert h
    decide

theorem isSeparator_of_isDigit {c : Char} (h : c.isDigit) : isSeparator c = false := by
  by_contra hs
  have hs : isSeparator c := by simpa using hs
  obtain ⟨r, hr, h₁, h₂⟩ := exists_of_inRanges hs
  have hd : 48 ≤ c.toNat ∧ c.toNat ≤ 57 := by
    simpa [Char.isDigit, UInt32.le_iff_toNat_le] using h
  have hr : ∀ r ∈ separatorRanges, r.2 < 48 ∨ 57 < r.1 := by decide
  rcases hr r ‹_› with h | h <;> omega

/-- A token is read back from its text, in front of anything that does not go on with it. -/
theorem take_text {t : Token} {rest : List Char} (ht : t.Spelled) (hr : t.EndedBy rest) :
    ∃ c cs, t.text.toList ++ rest = c :: (cs ++ rest) ∧ isSeparator c = false ∧
      take c (cs ++ rest) = (t, rest) := by
  cases t with
  | keyword k =>
    obtain ⟨c, cs, htext, ⟨h₁, h₂, h₃, h₄⟩, hstart, hpart, hsep, hword⟩ := keyword_text k
    obtain ⟨htake, hdrop⟩ := takeWhile_append_of_all hpart hr
    refine ⟨c, cs, by rw [text, htext, List.cons_append], hsep, ?_⟩
    rw [take, if_neg h₁, if_neg h₂, if_neg (by simp [h₃]), h₄]
    simp only [hstart, if_true, htake, hdrop, ofWord, hword]
  | quoted name =>
    have hclose := closing?_quote name.toList hr
    refine ⟨backtick, doubled backtick name.toList ++ [backtick], by simp [text, quote],
      by decide, ?_⟩
    rw [take, if_pos rfl, List.append_assoc, List.singleton_append, takeQuoted, hclose]
    simp
  | string content =>
    have hclose := closing?_quote content.toList hr
    refine ⟨apostrophe, doubled apostrophe content.toList ++ [apostrophe], by simp [text, quote],
      by decide, ?_⟩
    rw [take, if_neg (by decide), if_pos rfl, List.append_assoc, List.singleton_append, takeQuoted,
      hclose]
    simp
  | integer digits =>
    obtain ⟨hne, hdigits⟩ := ht
    obtain ⟨c, cs, htext⟩ := List.exists_cons_of_ne_nil hne
    rw [htext, List.forall_mem_cons] at hdigits
    obtain ⟨hc, hcs⟩ := hdigits
    obtain ⟨htake, hdrop⟩ := takeWhile_append_of_all hcs hr
    refine ⟨c, cs, by rw [text, htext, List.cons_append], isSeparator_of_isDigit hc, ?_⟩
    rw [take, if_neg (isDigit_ne hc).1, if_neg (isDigit_ne hc).2, if_pos hc, htake, hdrop, ← htext,
      String.ofList_toList]
  | symbol s =>
    obtain ⟨⟨h₁, h₂, h₃⟩, hsep⟩ := symbol_text s
    refine ⟨s.char, [], by simp [text], hsep, ?_⟩
    rw [take, if_neg h₁, if_neg h₂, if_neg (by simp [h₃]), Symbol.ofChar?_char]
    rfl
  | word | unterminated | stray => exact ht.elim

/-- A character that goes on with no token. -/
def EndsTokens (c : Char) : Prop :=
  isWordPart c = false ∧ c.isDigit = false ∧ c ≠ backtick ∧ c ≠ apostrophe

theorem endedBy_cons {t : Token} {c : Char} {cs : List Char} (hc : EndsTokens c) :
    t.EndedBy (c :: cs) := by
  obtain ⟨h₁, h₂, h₃, h₄⟩ := hc
  cases t with
  | keyword | integer =>
    rintro d ⟨rfl⟩
    assumption
  | quoted | string => simpa [EndedBy, NotNext]
  | word | symbol | unterminated | stray => trivial

theorem endedBy_nil (t : Token) : t.EndedBy [] := by
  cases t <;> simp [EndedBy, NotNext]

theorem endsTokens_blank : EndsTokens ' ' := by
  simp only [EndsTokens]
  decide

theorem endsTokens_symbol (s : Symbol) : EndsTokens s.char := by
  simp only [EndsTokens]
  cases s <;> decide

/-- The characters of a layout. -/
def spelling (ts : List Token) : List Char :=
  (pieces ts).flatMap String.toList

theorem spelling_cons (t u : Token) (ts : List Token) :
    spelling (t :: u :: ts) =
      t.text.toList ++ ((if spaced t u then [' '] else []) ++ spelling (u :: ts)) := by
  simp only [spelling, pieces, List.flatMap_cons, List.flatMap_append, List.cons_append]
  split_ifs <;> rfl

/-- What comes behind a token in a layout does not go on with it. -/
theorem endedBy_spelling (t u : Token) (ts : List Token) :
    t.EndedBy ((if spaced t u then [' '] else []) ++ spelling (u :: ts)) := by
  split_ifs with hs
  · exact endedBy_cons endsTokens_blank
  · rw [List.nil_append]
    cases t with
    | symbol => trivial
    | _ =>
      cases u with
      | symbol s =>
        have hu : ∃ cs, spelling (.symbol s :: ts) = s.char :: cs := by
          cases ts with
          | nil => exact ⟨[], by simp [spelling, pieces, text]⟩
          | cons v ts => exact ⟨_, by rw [spelling_cons, text, String.toList_singleton]; rfl⟩
        obtain ⟨cs, hcs⟩ := hu
        rw [hcs]
        exact endedBy_cons (endsTokens_symbol s)
      | _ => simp [spaced] at hs

theorem scans_spelling : ∀ {ts : List Token}, (∀ t ∈ ts, t.Spelled) → Scans (spelling ts) ts
  | [], _ => .done (by rfl)
  | [t], h => by
    obtain ⟨c, cs, htext, hsep, htake⟩ := take_text (h t (by simp)) t.endedBy_nil
    have hs : spelling [t] = c :: cs := by simpa [spelling, pieces] using htext
    rw [hs]
    rw [List.append_nil] at htake
    exact .token (by rw [List.dropWhile_cons, if_neg (by simp [hsep])]) htake (.done (by rfl))
  | t :: u :: ts, h => by
    have ih : Scans (spelling (u :: ts)) (u :: ts) :=
      scans_spelling fun v hv => h v (List.mem_cons_of_mem t hv)
    have hrest : Scans ((if spaced t u then [' '] else []) ++ spelling (u :: ts)) (u :: ts) := by
      split_ifs
      · exact ih.of_separator (by decide)
      · exact ih
    obtain ⟨c, cs, htext, hsep, htake⟩ := take_text (h t (by simp)) (endedBy_spelling t u ts)
    rw [spelling_cons, htext]
    exact .token (by rw [List.dropWhile_cons, if_neg (by simp [hsep])]) htake hrest

/-- The tokens of a layout are those that were laid out. -/
theorem tokensOf_layout {ts : List Token} (h : ∀ t ∈ ts, t.Spelled) :
    tokensOf (layout ts) = ts := by
  refine tokensOf_of_scans ?_
  rw [layout, String.toList_join]
  exact scans_spelling h

end Token

end SqlTypes
