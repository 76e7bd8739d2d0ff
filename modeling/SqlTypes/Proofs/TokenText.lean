import SqlTypes.Proofs.Layout

/-!
# The text of a token

What characters a token may be written with (`Token.IsText`): its canonical text, where a keyword
may be in any letters, and, for a quote that is never closed, the quote and all behind it. And what
may not come next (`Token.ClosedBy`), since it would go on with the token.

The two pin down what is taken off a text (`Token.take_eq_iff`): a text of a token, as long as
possible.
-/

namespace SqlTypes

open Text

namespace Text

/-- Only small ASCII letters have another upper case. -/
theorem toUpper_cases (c : Char) :
    c.toUpper = c ∨ 97 ≤ c.toNat ∧ c.toNat ≤ 122 ∧ c.toUpper.toNat + 32 = c.toNat := by
  unfold Char.toUpper
  split
  · rename_i h
    obtain ⟨h₁, h₂⟩ := h
    have h₁ : 97 ≤ c.toNat := by simpa [UInt32.le_iff_toNat_le] using h₁
    have h₂ : c.toNat ≤ 122 := by simpa [UInt32.le_iff_toNat_le] using h₂
    refine .inr ⟨h₁, h₂, ?_⟩
    have hv : c.val.toNat = c.toNat := rfl
    simp only [Char.toNat, UInt32.toNat_add]
    have hsub : ('A'.val - 'a'.val).toNat = 2 ^ 32 - 32 := by decide
    omega
  · exact .inl rfl

theorem isAlphabetic_of_small {c : Char} (h₁ : 97 ≤ c.toNat) (h₂ : c.toNat ≤ 122) :
    isAlphabetic c := by
  have hall : ∀ n < 123, 97 ≤ n → inRanges n alphabeticRanges := by decide
  exact hall c.toNat (by omega) h₁

theorem isWordStart_of_toUpper {c : Char} (h : isWordStart c.toUpper) : isWordStart c := by
  rcases toUpper_cases c with hc | ⟨h₁, h₂, -⟩
  · rwa [hc] at h
  · simp [isWordStart, isAlphabetic_of_small h₁ h₂]

theorem isWordPart_of_toUpper {c : Char} (h : isWordPart c.toUpper) : isWordPart c := by
  rcases toUpper_cases c with hc | ⟨h₁, h₂, -⟩
  · rwa [hc] at h
  · simp [isWordPart, isAlphabetic_of_small h₁ h₂]

theorem utf8Size_of_le {c : Char} (h : c.toNat ≤ 127) : c.utf8Size = 1 := by
  rw [Char.utf8Size_eq_one_iff, UInt32.le_iff_toNat_le]
  exact h

theorem utf8Size_toUpper (c : Char) : c.toUpper.utf8Size = c.utf8Size := by
  rcases toUpper_cases c with hc | ⟨h₁, h₂, h₃⟩
  · rw [hc]
  · rw [utf8Size_of_le (by omega), utf8Size_of_le (by omega)]

theorem byteLength_map_toUpper : ∀ cs : List Char, byteLength (cs.map Char.toUpper) = byteLength cs
  | [] => rfl
  | c :: cs => by
    rw [List.map_cons, byteLength_cons, byteLength_cons, utf8Size_toUpper,
      byteLength_map_toUpper cs]

theorem isSeparator_of_isWordPart {c : Char} (h : isWordPart c) : isSeparator c = false := by
  by_contra hs
  rw [isWordPart_of_isSeparator (by simpa using hs)] at h
  cases h

end Text

namespace Token

/-- A letter, an underscore or a dollar sign, and what may follow these in a word. -/
def IsWord (w : List Char) : Prop :=
  ∃ c cs, w = c :: cs ∧ isWordStart c ∧ ∀ d ∈ cs, isWordPart d

/-- The quotes. -/
def IsQuote (q : Char) : Prop :=
  q = backtick ∨ q = apostrophe

/-- A character that is no separator and begins no other token. -/
structure IsStray (c : Char) : Prop where
  separator : isSeparator c = false
  quote : ¬ IsQuote c
  digit : c.isDigit = false
  symbol : Symbol.ofChar? c = none
  wordStart : isWordStart c = false

/-- Whether a token may be written with these characters. -/
def IsText : Token → List Char → Prop
  | .keyword k, w => w.map Char.toUpper = k.text.toList
  | .word name, w => w = name.toList ∧ IsWord w ∧ Keyword.ofWord? w = none
  | .unterminated, w => ∃ q ds, IsQuote q ∧ w = q :: ds ∧ closing? q [] ds = none
  | .stray c, w => w = [c] ∧ IsStray c
  | t, w => w = t.text.toList ∧ t.Spelled

/-- What follows does not go on with the token before it; nothing follows an open quote. -/
def ClosedBy : Token → List Char → Prop
  | .word _, rest => ∀ c, rest.head? = some c → isWordPart c = false
  | .unterminated, rest => rest = []
  | t, rest => t.EndedBy rest

variable {c : Char} {cs w rest : List Char} {t : Token}

/-- A character that goes on with no token closes every token but an open quote. -/
theorem closedBy_of_endsTokens (ht : t ≠ .unterminated) (hc : EndsTokens c) :
    t.ClosedBy (c :: cs) := by
  have h : t.EndedBy (c :: cs) := endedBy_cons hc
  cases t with
  | unterminated => exact absurd rfl ht
  | word name =>
    rintro _ ⟨rfl⟩
    exact hc.1
  | _ => exact h

theorem isWordStart_ne (h : isWordStart c) {d : Char} (hd : isWordStart d = false) : c ≠ d := by
  rintro rfl
  simp [h] at hd

/-- A word begins like no other token. -/
theorem isWordStart_plain (h : isWordStart c) : c ≠ backtick ∧ c ≠ apostrophe ∧
    c.isDigit = false ∧ Symbol.ofChar? c = none := by
  refine ⟨isWordStart_ne h (by decide), isWordStart_ne h (by decide), ?_, ?_⟩
  · by_contra hd
    have hd : 48 ≤ c.toNat ∧ c.toNat ≤ 57 := by
      simpa [Char.isDigit, UInt32.le_iff_toNat_le] using hd
    have hall : ∀ n < 58, inRanges n alphabeticRanges = false := by decide
    have ha : isAlphabetic c = false := hall c.toNat (by omega)
    simp only [isWordStart, ha, Bool.false_or, Bool.or_eq_true, decide_eq_true_eq] at h
    rcases h with rfl | rfl <;> revert hd <;> decide
  · by_contra hs
    obtain ⟨s, hs⟩ := Option.ne_none_iff_exists'.1 hs
    obtain rfl := Symbol.char_of_ofChar? hs
    revert h
    cases s <;> decide

/-- A keyword in any letters is a word. -/
theorem isWord_of_keyword {k : Keyword} (h : w.map Char.toUpper = k.text.toList) :
    IsWord w ∧ Keyword.ofWord? w = some k := by
  obtain ⟨u, us, htext, -, hstart, hpart, -, -⟩ := keyword_text k
  refine ⟨?_, Keyword.ofWord?_eq_some_iff.2 (by rw [h, String.ofList_toList])⟩
  rw [htext] at h
  obtain ⟨c, cs, rfl, rfl, rfl⟩ := List.map_eq_cons_iff.1 h
  exact ⟨c, cs, rfl, isWordStart_of_toUpper hstart,
    fun d hd => isWordPart_of_toUpper (hpart _ (List.mem_map_of_mem hd))⟩

theorem take_word (hw : IsWord w) (hr : ∀ c, rest.head? = some c → isWordPart c = false) :
    ∃ c cs, w = c :: cs ∧ isSeparator c = false ∧ take c (cs ++ rest) = (ofWord w, rest) := by
  obtain ⟨c, cs, rfl, hstart, hpart⟩ := hw
  obtain ⟨h₁, h₂, h₃, h₄⟩ := isWordStart_plain hstart
  obtain ⟨htake, hdrop⟩ := takeWhile_append_of_all hpart hr
  refine ⟨c, cs, rfl, isSeparator_of_isWordPart (isWordPart_of_isWordStart hstart), ?_⟩
  rw [take, if_neg h₁, if_neg h₂, if_neg (by simp [h₃]), h₄]
  simp only [hstart, if_true, htake, hdrop]

theorem head?_dropWhile {p : Char → Bool} (h : (cs.dropWhile p).head? = some c) : p c = false := by
  have hn := List.head?_dropWhile_not p cs
  rwa [h] at hn

theorem isText_ofWord (hw : IsWord w) : (ofWord w).IsText w := by
  unfold ofWord
  split
  · rename_i k hk
    have h := Keyword.ofWord?_eq_some_iff.1 hk
    rw [IsText, h, String.toList_ofList]
  · rename_i hk
    exact ⟨(String.toList_ofList).symm, hw, hk⟩

theorem closedBy_ofWord (hr : ∀ c, rest.head? = some c → isWordPart c = false) :
    (ofWord w).ClosedBy rest := by
  unfold ofWord
  split <;> exact hr

theorem isText_takeQuoted {q : Char} {make : String → Token} (hq : IsQuote q)
    (hmake : ∀ v, (make v).text = String.ofList (quote q v.toList) ∧
      (∀ w, (make v).IsText w ↔ w = (make v).text.toList) ∧
      ∀ rest, (make v).ClosedBy rest ↔ NotNext q rest) :
    ∃ w, q :: cs = w ++ (takeQuoted q make cs).2 ∧ (takeQuoted q make cs).1.IsText w ∧
      (takeQuoted q make cs).1.ClosedBy (takeQuoted q make cs).2 := by
  unfold takeQuoted
  split
  · rename_i content rest hc
    obtain ⟨htext, hw, hr⟩ := hmake (String.ofList content)
    obtain ⟨happ, hnext⟩ := eq_quote_of_closing? hc
    refine ⟨quote q content, happ, (hw _).2 ?_, (hr _).2 hnext⟩
    rw [htext, String.toList_ofList, String.toList_ofList]
  · rename_i hc
    exact ⟨q :: cs, by simp, ⟨q, cs, hq, rfl, hc⟩, rfl⟩

/-- What is taken off a text is a text of the token, as long as possible. -/
theorem isText_take (hc : isSeparator c = false) (cs : List Char) :
    ∃ w, c :: cs = w ++ (take c cs).2 ∧ (take c cs).1.IsText w ∧
      (take c cs).1.ClosedBy (take c cs).2 := by
  by_cases h₁ : c = backtick
  · rw [take, if_pos h₁]
    refine isText_takeQuoted (.inl h₁) fun v => ⟨?_, fun w => ?_, fun rest => ?_⟩
    · rw [h₁]; rfl
    · simp [IsText, Spelled]
    · rw [h₁]; rfl
  by_cases h₂ : c = apostrophe
  · rw [take, if_neg h₁, if_pos h₂]
    refine isText_takeQuoted (.inr h₂) fun v => ⟨?_, fun w => ?_, fun rest => ?_⟩
    · rw [h₂]; rfl
    · simp [IsText, Spelled]
    · rw [h₂]; rfl
  by_cases h₃ : c.isDigit
  · rw [take, if_neg h₁, if_neg h₂, if_pos h₃]
    refine ⟨c :: cs.takeWhile Char.isDigit, ?_, ⟨?_, ?_⟩, fun d hd => head?_dropWhile hd⟩
    · rw [List.cons_append, List.takeWhile_append_dropWhile]
    · rw [text, String.toList_ofList]
    · refine ⟨by simp, fun d hd => ?_⟩
      rw [String.toList_ofList, List.mem_cons] at hd
      rcases hd with rfl | hd
      · exact h₃
      · exact List.all_eq_true.1 List.all_takeWhile d hd
  rw [take, if_neg h₁, if_neg h₂, if_neg h₃]
  rcases h₄ : Symbol.ofChar? c with _ | s
  · by_cases h₅ : isWordStart c
    · simp only [h₅, if_true]
      have hw : IsWord (c :: cs.takeWhile isWordPart) :=
        ⟨c, _, rfl, h₅, fun d hd => List.all_eq_true.1 List.all_takeWhile d hd⟩
      refine ⟨_, ?_, isText_ofWord hw, closedBy_ofWord fun d hd => head?_dropWhile hd⟩
      rw [List.cons_append, List.takeWhile_append_dropWhile]
    · have hstray : IsStray c :=
        ⟨hc, by simp [IsQuote, h₁, h₂], by simpa using h₃, h₄, by simpa using h₅⟩
      rw [if_neg h₅]
      exact ⟨[c], rfl, ⟨rfl, hstray⟩, trivial⟩
  · obtain rfl := Symbol.char_of_ofChar? h₄
    exact ⟨[s.char], rfl, ⟨(String.toList_singleton _).symm, trivial⟩, trivial⟩

/-- A text of a token is taken off in front of anything that does not go on with it. -/
theorem take_of_isText (hw : t.IsText w) (hr : t.ClosedBy rest) :
    ∃ c cs, w = c :: cs ∧ isSeparator c = false ∧ take c (cs ++ rest) = (t, rest) := by
  have spelled : t.Spelled → w = t.text.toList → t.EndedBy rest →
      ∃ c cs, w = c :: cs ∧ isSeparator c = false ∧ take c (cs ++ rest) = (t, rest) := by
    rintro ht rfl hr
    obtain ⟨c, cs, htext, hsep, htake⟩ := take_text ht hr
    have happ : t.text.toList ++ rest = (c :: cs) ++ rest := by rw [htext, List.cons_append]
    exact ⟨c, cs, List.append_cancel_right happ, hsep, htake⟩
  cases t with
  | keyword k =>
    obtain ⟨hword, hk⟩ := isWord_of_keyword hw
    obtain ⟨c, cs, hcs, hsep, htake⟩ := take_word hword hr
    refine ⟨c, cs, hcs, hsep, htake.trans ?_⟩
    rw [ofWord, hk]
  | word name =>
    obtain ⟨hname, hword, hk⟩ := hw
    obtain ⟨c, cs, hcs, hsep, htake⟩ := take_word hword hr
    refine ⟨c, cs, hcs, hsep, htake.trans ?_⟩
    rw [ofWord, hk, hname, String.ofList_toList]
  | quoted | integer | string | symbol => exact spelled hw.2 hw.1 hr
  | unterminated =>
    obtain ⟨q, ds, hq, rfl, hopen⟩ := hw
    obtain rfl : rest = [] := hr
    refine ⟨q, ds, rfl, ?_, ?_⟩
    · rcases hq with rfl | rfl <;> decide
    · rw [List.append_nil, take]
      rcases hq with rfl | rfl
      · rw [if_pos rfl, takeQuoted, hopen]
      · rw [if_neg (by decide), if_pos rfl, takeQuoted, hopen]
  | stray d =>
    obtain ⟨rfl, hsep, hquote, hdigit, hsymbol, hstart⟩ := hw
    obtain ⟨h₁, h₂⟩ := not_or.1 hquote
    refine ⟨d, [], rfl, hsep, ?_⟩
    rw [take, if_neg h₁, if_neg h₂, if_neg (by simp [hdigit]), hsymbol]
    simp [hstart]

/-- Exactly the texts of a token with nothing behind them that goes on with it are taken off. -/
theorem take_eq_iff (hc : isSeparator c = false) :
    take c cs = (t, rest) ↔ ∃ w, c :: cs = w ++ rest ∧ t.IsText w ∧ t.ClosedBy rest := by
  constructor
  · intro h
    have hw := isText_take hc cs
    rwa [h] at hw
  · rintro ⟨w, happ, hw, hr⟩
    obtain ⟨d, ds, rfl, -, htake⟩ := take_of_isText hw hr
    rw [List.cons_append, List.cons.injEq] at happ
    obtain ⟨rfl, rfl⟩ := happ
    exact htake

theorem IsText.ne_nil (hw : t.IsText w) (hr : t.ClosedBy rest) : w ≠ [] := by
  obtain ⟨c, cs, rfl, -⟩ := take_of_isText hw hr
  nofun

/-- A token takes as many bytes off a text as its canonical text has, which a keyword in other
letters shares. Only an unclosed quote has none. -/
theorem width_eq (hc : isSeparator c = false) (h : take c cs = (t, rest)) (ht : t ≠ .unterminated) :
    Scanner.width (c :: cs) rest = t.text.utf8ByteSize := by
  obtain ⟨w, happ, hw, -⟩ := (take_eq_iff hc).1 h
  rw [happ, Scanner.width_append, ← byteLength_toList]
  cases t with
  | keyword k => rw [text, ← hw, byteLength_map_toUpper]
  | word name => rw [text, hw.1]
  | unterminated => exact absurd rfl ht
  | stray d => rw [text, hw.1, String.toList_singleton]
  | quoted | integer | string | symbol => rw [hw.1]

end Token

end SqlTypes
