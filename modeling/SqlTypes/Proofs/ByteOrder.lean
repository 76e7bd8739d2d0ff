import Mathlib.Tactic.Common

/-!
# The order of UTF-8 forms

Strings are ordered by their characters. This is the order of their UTF-8 forms by bytes
(`bytes_lt_bytes`): a form never goes on with what another one of the same beginning ends with, and
the bytes of two characters first differ as the characters do.
-/

namespace SqlTypes.Text

/-- The UTF-8 form of a text. -/
def bytes (s : String) : List UInt8 :=
  s.toUTF8.data.toList

theorem bytes_eq (s : String) : bytes s = s.toList.flatMap String.utf8EncodeChar := by
  rw [bytes, String.toUTF8_eq_toByteArray, ← String.utf8Encode_toList, List.utf8Encode,
    List.toList_data_toByteArray]

/-- Numbers are in the order of their last four digits of base 64, read from the left. -/
theorem lt_digits {m n : Nat} (h : m < n) :
    m / 64 = n / 64 ∧ m % 64 < n % 64 ∨
      m / 64 / 64 = n / 64 / 64 ∧ m / 64 % 64 < n / 64 % 64 ∨
      m / 64 / 64 / 64 = n / 64 / 64 / 64 ∧ m / 64 / 64 % 64 < n / 64 / 64 % 64 ∨
      m / 64 / 64 / 64 < n / 64 / 64 / 64 := by
  have step : ∀ {m n : Nat}, m < n → m / 64 = n / 64 ∧ m % 64 < n % 64 ∨ m / 64 < n / 64 := by
    omega
  exact (step h).imp_right fun h => (step h).imp_right step

/-- The forms of two characters differ before either of them ends, so what follows them does not
matter. -/
theorem utf8EncodeChar_append_lt {c d : Char} (h : c < d) (bs bs' : List UInt8) :
    String.utf8EncodeChar c ++ bs < String.utf8EncodeChar d ++ bs' := by
  have hlt : c.val.toNat < d.val.toNat := h
  have hd : d.val.toNat < 0x110000 := by
    rcases d.valid with h | ⟨-, h⟩
    · exact Nat.lt_trans h (by decide)
    · exact h
  have hdiv : ∀ m, m / 4096 = m / 64 / 64 ∧ m / 262144 = m / 64 / 64 / 64 := by
    intro m
    rw [Nat.div_div_eq_div_mul, Nat.div_div_eq_div_mul]
    exact ⟨rfl, rfl⟩
  simp only [String.utf8EncodeChar]
  generalize c.val.toNat = m at *
  generalize d.val.toNat = n at *
  rw [(hdiv m).1, (hdiv m).2, (hdiv n).1, (hdiv n).2]
  -- The two lengths leave the first difference at a digit, or at the mark of the length.
  split_ifs <;>
    simp only [List.cons_append, List.nil_append, List.cons_lt_cons_iff, UInt8.lt_iff_toNat_lt,
      ← UInt8.toNat_inj, UInt8.toNat_ofNat', Nat.reducePow] <;>
    rcases lt_digits hlt with h | h | h | h <;>
    omega

theorem flatMap_utf8EncodeChar_lt : ∀ {cs ds : List Char}, cs < ds →
    cs.flatMap String.utf8EncodeChar < ds.flatMap String.utf8EncodeChar
  | _, [], h => absurd h (List.not_lt_nil _)
  | [], d :: ds, _ => by
    rw [List.flatMap_nil, List.flatMap_cons]
    obtain ⟨b, bs, hb⟩ := List.exists_cons_of_ne_nil (String.utf8EncodeChar_ne_nil (c := d))
    rw [hb]
    exact List.nil_lt_cons b _
  | c :: cs, d :: ds, h => by
    rw [List.flatMap_cons, List.flatMap_cons]
    rcases List.cons_lt_cons_iff.1 h with hhead | ⟨rfl, htail⟩
    · exact utf8EncodeChar_append_lt hhead _ _
    · exact List.append_left_lt (flatMap_utf8EncodeChar_lt htail)

/-- Strings are in the order of their UTF-8 forms. -/
theorem bytes_lt_bytes {a b : String} (h : a < b) : bytes a < bytes b := by
  rw [bytes_eq, bytes_eq]
  exact flatMap_utf8EncodeChar_lt h

end SqlTypes.Text
