/-!
# Quoted texts

A quoted text stands between two copies of its quote character, and each copy of that character
inside it is written twice. `quote` writes one, `closing?` reads one whose opening quote is already
past. Reading undoes writing whatever comes after (`closing?_quote`), and what is read was written
(`eq_quote_of_closing?`).
-/

namespace SqlTypes.Text

/-- Each `q` of the content is written twice. -/
def doubled (q : Char) (content : List Char) : List Char :=
  content.flatMap fun c => if c = q then [q, q] else [c]

/-- The content between two quotes. -/
def quote (q : Char) (content : List Char) : List Char :=
  q :: (doubled q content ++ [q])

/-- Reads up to the closing quote: the content, with what `before` holds in reverse order in front
of it, and the text after the quote. `none` if the quote is never closed. -/
def closing? (q : Char) (before : List Char) : List Char → Option (List Char × List Char)
  | [] => none
  | c :: cs =>
    if c = q then
      match cs with
      | [] => some (before.reverse, [])
      | d :: ds => if d = q then closing? q (q :: before) ds else some (before.reverse, d :: ds)
    else
      closing? q (c :: before) cs

@[simp] theorem doubled_nil (q : Char) : doubled q [] = [] := rfl

theorem doubled_cons_self (q : Char) (cs : List Char) :
    doubled q (q :: cs) = q :: q :: doubled q cs := by
  simp [doubled]

theorem doubled_cons_of_ne {q c : Char} (h : c ≠ q) (cs : List Char) :
    doubled q (c :: cs) = c :: doubled q cs := by
  simp [doubled, h]

/-- The text does not go on with another `q`. -/
def NotNext (q : Char) (rest : List Char) : Prop :=
  rest.head? ≠ some q

theorem closing?_cons_of_ne {q c : Char} (h : c ≠ q) (before cs : List Char) :
    closing? q before (c :: cs) = closing? q (c :: before) cs := by
  cases cs <;> simp [closing?, h]

theorem closing?_append {q : Char} (before content : List Char) {rest : List Char}
    (h : NotNext q rest) :
    closing? q before (doubled q content ++ q :: rest) =
      some (before.reverse ++ content, rest) := by
  induction content generalizing before with
  | nil =>
    cases rest with
    | nil => simp [closing?]
    | cons d ds =>
      have hd : d ≠ q := by simpa [NotNext] using h
      simp [closing?, hd]
  | cons c cs ih =>
    by_cases hc : c = q
    · subst hc
      simp [doubled_cons_self, closing?, ih]
    · simp [doubled_cons_of_ne hc, closing?_cons_of_ne hc, ih]

/-- What stands after the opening quote of a quoted text is read back. -/
theorem closing?_quote {q : Char} (content : List Char) {rest : List Char} (h : NotNext q rest) :
    closing? q [] (doubled q content ++ q :: rest) = some (content, rest) := by
  simpa using closing?_append [] content h

theorem eq_append_of_closing? {q : Char} {before cs content rest : List Char}
    (h : closing? q before cs = some (content, rest)) :
    ∃ v, content = before.reverse ++ v ∧ cs = doubled q v ++ q :: rest ∧ NotNext q rest := by
  fun_induction closing? q before cs with
  | case1 => simp at h
  | case2 before =>
    obtain ⟨rfl, rfl⟩ : before.reverse = content ∧ [] = rest := by simpa using h
    exact ⟨[], by simp, by simp, by simp [NotNext]⟩
  | case3 before ds ih =>
    obtain ⟨v, hv, hs, hr⟩ := ih h
    exact ⟨q :: v, by simpa using hv, by simp [doubled_cons_self, hs], hr⟩
  | case4 before d ds hd =>
    obtain ⟨rfl, rfl⟩ : before.reverse = content ∧ d :: ds = rest := by simpa using h
    exact ⟨[], by simp, by simp, by simpa [NotNext] using hd⟩
  | case5 before c cs hc ih =>
    obtain ⟨v, hv, hs, hr⟩ := ih h
    exact ⟨c :: v, by simpa using hv, by simp [doubled_cons_of_ne hc, hs], hr⟩

/-- Only quoted texts are read. -/
theorem eq_quote_of_closing? {q : Char} {cs content rest : List Char}
    (h : closing? q [] cs = some (content, rest)) :
    q :: cs = quote q content ++ rest ∧ NotNext q rest := by
  obtain ⟨v, rfl, rfl, hr⟩ := eq_append_of_closing? h
  exact ⟨by simp [quote], hr⟩

end SqlTypes.Text
