import SqlTypes.Text.Alphabetic
import SqlTypes.Text.Numeric

/-!
# Classes of characters

White space, the separators that may stand between tokens, and the characters that begin and
continue a word. No separator is a word character (`isWordPart_of_isSeparator`), so a separator
always ends a word.
-/

namespace SqlTypes.Text

/-- Whether `n` lies in one of the ranges, which ascend. -/
def inRanges (n : Nat) : List (Nat × Nat) → Bool
  | [] => false
  | (first, last) :: ranges => decide (first ≤ n) && (decide (n ≤ last) || inRanges n ranges)

/-- The Unicode property `Alphabetic`. -/
def isAlphabetic (c : Char) : Bool :=
  inRanges c.toNat alphabeticRanges

/-- The Unicode general categories `Nd`, `Nl` and `No`. -/
def isNumeric (c : Char) : Bool :=
  inRanges c.toNat numericRanges

/-- The code points with the Unicode property `White_Space`. -/
def whiteSpaceRanges : List (Nat × Nat) :=
  [(0x0009, 0x000D), (0x0020, 0x0020), (0x0085, 0x0085), (0x00A0, 0x00A0), (0x1680, 0x1680),
   (0x2000, 0x200A), (0x2028, 0x2029), (0x202F, 0x202F), (0x205F, 0x205F), (0x3000, 0x3000)]

/-- The Unicode property `White_Space`. -/
def isWhiteSpace (c : Char) : Bool :=
  inRanges c.toNat whiteSpaceRanges

/-- White space without the next-line control U+0085 and the spaces that keep their neighbours on
one line (U+00A0, U+2007, U+202F), and with the information separators U+001C to U+001F. -/
def separatorRanges : List (Nat × Nat) :=
  [(0x0009, 0x000D), (0x001C, 0x0020), (0x1680, 0x1680), (0x2000, 0x2006), (0x2008, 0x200A),
   (0x2028, 0x2029), (0x205F, 0x205F), (0x3000, 0x3000)]

/-- A separator may stand between tokens and means nothing. -/
def isSeparator (c : Char) : Bool :=
  inRanges c.toNat separatorRanges

/-- A word begins with a letter, an underscore or a dollar sign. -/
def isWordStart (c : Char) : Bool :=
  isAlphabetic c || c = '_' || c = '$'

/-- A word goes on with letters, numeric characters, underscores and dollar signs. -/
def isWordPart (c : Char) : Bool :=
  isAlphabetic c || isNumeric c || c = '_' || c = '$'

/-- Whether a text is empty or all white space. -/
def isBlank (s : String) : Bool :=
  s.toList.all isWhiteSpace

theorem isWordPart_of_isWordStart {c : Char} (h : isWordStart c) : isWordPart c := by
  simp only [isWordStart, isWordPart, Bool.or_eq_true] at h ⊢
  grind

theorem exists_of_inRanges {n : Nat} :
    ∀ {ranges : List (Nat × Nat)}, inRanges n ranges → ∃ r ∈ ranges, r.1 ≤ n ∧ n ≤ r.2
  | (first, last) :: ranges, h => by
    simp only [inRanges, Bool.and_eq_true, Bool.or_eq_true, decide_eq_true_eq] at h
    rcases h with ⟨h₁, h₂ | h₂⟩
    · exact ⟨(first, last), by simp, h₁, h₂⟩
    · obtain ⟨r, hr, hn⟩ := exists_of_inRanges h₂
      exact ⟨r, by simp [hr], hn⟩

/-- No range of one list meets a range of the other. -/
def rangesApart (a b : List (Nat × Nat)) : Bool :=
  a.all fun r => b.all fun t => decide (r.2 < t.1) || decide (t.2 < r.1)

theorem inRanges_of_apart {a b : List (Nat × Nat)} {n : Nat} (hab : rangesApart a b)
    (h : inRanges n a) : inRanges n b = false := by
  rw [Bool.eq_false_iff]
  intro hb
  obtain ⟨r, hr, h₁, h₂⟩ := exists_of_inRanges h
  obtain ⟨t, ht, h₃, h₄⟩ := exists_of_inRanges hb
  have := List.all_eq_true.1 (List.all_eq_true.1 hab r hr) t ht
  simp only [Bool.or_eq_true, decide_eq_true_eq] at this
  omega

theorem isSeparator_ne {c d : Char} (h : isSeparator c) (hd : isSeparator d = false) : c ≠ d := by
  rintro rfl
  simp [h] at hd

/-- A separator ends a word. -/
theorem isWordPart_of_isSeparator {c : Char} (h : isSeparator c) : isWordPart c = false := by
  have ha : isAlphabetic c = false := inRanges_of_apart (a := separatorRanges) (by decide +kernel) h
  have hn : isNumeric c = false := inRanges_of_apart (a := separatorRanges) (by decide +kernel) h
  simp [isWordPart, ha, hn, isSeparator_ne h (d := '_') (by decide),
    isSeparator_ne h (d := '$') (by decide)]

end SqlTypes.Text
