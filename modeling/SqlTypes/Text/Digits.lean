/-!
# Runs of decimal digits

`numberUpTo? most` reads a run of decimal digits of any length, leading zeros included, as a number
not above `most` (`numberUpTo?_eq`), without ever computing a larger one than needed.
-/

namespace SqlTypes.Text

/-- One more digit after a number, unless the result is above `most`. -/
def appendDigit? (most n : Nat) (d : Char) : Option Nat :=
  let n := 10 * n + (d.toNat - '0'.toNat)
  if n ≤ most then some n else none

/-- The value of a run of digits, `none` if it is above `most`. -/
def numberUpTo? (most : Nat) (digits : List Char) : Option Nat :=
  digits.foldlM (appendDigit? most) 0

theorem le_ofDigitChars : ∀ (digits : List Char) (n : Nat), n ≤ Nat.ofDigitChars 10 digits n
  | [], n => by simp
  | d :: ds, n => by
    rw [Nat.ofDigitChars_cons]
    exact Nat.le_trans (by omega) (le_ofDigitChars ds _)

theorem foldlM_appendDigit? (most : Nat) (digits : List Char) (n : Nat) (hn : n ≤ most) :
    digits.foldlM (appendDigit? most) n =
      if Nat.ofDigitChars 10 digits n ≤ most then some (Nat.ofDigitChars 10 digits n)
      else none := by
  induction digits generalizing n with
  | nil => simp [hn]
  | cons d ds ih =>
    rw [List.foldlM_cons, Nat.ofDigitChars_cons]
    by_cases h : 10 * n + (d.toNat - '0'.toNat) ≤ most
    · rw [appendDigit?, if_pos h]
      exact ih _ h
    · have := le_ofDigitChars ds (10 * n + (d.toNat - '0'.toNat))
      rw [appendDigit?, if_neg h, if_neg (by omega)]
      rfl

theorem numberUpTo?_eq (most : Nat) (digits : List Char) :
    numberUpTo? most digits =
      if Nat.ofDigitChars 10 digits 0 ≤ most then some (Nat.ofDigitChars 10 digits 0) else none :=
  foldlM_appendDigit? most digits 0 (Nat.zero_le _)

end SqlTypes.Text
