import SqlTypes.Proofs.JsonText

/-!
# A plain codec

A codec for flat objects of numbers and nothing else, which keeps to the documentation of codecs
(`JsonCodec.plain_documented`). It writes a member on each line. To read, it takes a text apart into
tokens, which is possible whatever the blanks are (`Json.Separated.tokens_eq`), and the tokens into
members.
-/

namespace SqlTypes

namespace Json

/-- A character that is a token by itself. -/
def isMark (c : Char) : Bool :=
  c = '\x7b' || c = '\x7d' || c = ':' || c = ','

/-- The tokens of a text behind the beginning `word` of a token, which may be empty. -/
def tokens (word : List Char) : List Char → List (List Char)
  | [] => close word []
  | c :: cs =>
    if isSpace c then close word (tokens [] cs)
    else if isMark c then close word ([c] :: tokens [] cs)
    else tokens (word ++ [c]) cs
where
  close (word : List Char) (ts : List (List Char)) : List (List Char) :=
    if word = [] then ts else word :: ts

/-- What characters between quotation marks spell. -/
def unescape? : List Char → Option (List Char)
  | [] => some []
  | '\x5c' :: 'u' :: h₁ :: h₂ :: h₃ :: h₄ :: cs => do
    return (← coded? h₁ h₂ h₃ h₄) :: (← unescape? cs)
  | c :: cs => if isNamePart c then (unescape? cs).map (c :: ·) else none

def name? (token : List Char) : Option String :=
  let spelling := token.tail.dropLast
  if token = quoted spelling then (unescape? spelling).map String.ofList else none

def value? (token : List Char) : Option Nat :=
  let n := Nat.ofDigitChars 10 token 0
  if token = numeral n ∧ n < UInt64.size then some n else none

def members? : List (List Char) → Option Record
  | [key, [':'], number, ['\x7d']] => do return [(← name? key, ← value? number)]
  | key :: [':'] :: number :: [','] :: ts => do
    return (← name? key, ← value? number) :: (← members? ts)
  | _ => none

def object? : List (List Char) → Option Record
  | [['\x7b'], ['\x7d']] => some []
  | ['\x7b'] :: ts => members? ts
  | _ => none

/-- Members on a line each, behind the opening bracket. -/
def lines : Record → List Char
  | [] => ['\x7d']
  | [m] => line m ++ ['\n', '\x7d']
  | m :: m' :: ms => line m ++ ',' :: lines (m' :: ms)
where
  line (m : String × Nat) : List Char :=
    ['\n', ' ', ' '] ++ (quoted m.1.toList ++ ':' :: ' ' :: numeral m.2)

end Json

open Json

def JsonCodec.plain : JsonCodec where
  write r := String.ofList ('\x7b' :: lines r)
  read? r text := do
    let ms ← object? (tokens [] text.toList)
    if (ms.map Prod.fst).Nodup then
      some fun name => (ms.lookup name).getD ((r.lookup name).getD 0)
    else
      none

namespace Json

variable {c : Char} {cs word blank : List Char} {ts : List (List Char)}

theorem isSpace_of_isMark (h : isMark c = true) : isSpace c = false := by
  simp only [isMark, Bool.or_eq_true, decide_eq_true_eq] at h
  rcases h with ((rfl | rfl) | rfl) | rfl <;> decide

theorem tokens_mark (h : isMark c = true) (word cs : List Char) :
    tokens word (c :: cs) = tokens.close word ([c] :: tokens [] cs) := by
  rw [tokens, isSpace_of_isMark h, h]
  rfl

theorem tokens_blank (hb : ∀ c ∈ blank, isSpace c = true) (cs : List Char) :
    tokens [] (blank ++ cs) = tokens [] cs := by
  induction blank with
  | nil => rfl
  | cons c blank ih =>
    obtain ⟨hc, hb⟩ := List.forall_mem_cons.1 hb
    rw [List.cons_append, tokens, if_pos hc, tokens.close, if_pos rfl, ih hb]

/-- Blanks that follow a word only end it. -/
theorem tokens_word_mark (hword : word ≠ []) (hb : ∀ c ∈ blank, isSpace c = true)
    (hc : isMark c = true) (cs : List Char) :
    tokens word (blank ++ c :: cs) = word :: [c] :: tokens [] cs := by
  cases blank with
  | nil => rw [List.nil_append, tokens_mark hc, tokens.close, if_neg hword]
  | cons b blank =>
    obtain ⟨hb', hb⟩ := List.forall_mem_cons.1 hb
    rw [List.cons_append, tokens, if_pos hb', tokens.close, if_neg hword, tokens_blank hb,
      tokens_mark hc, tokens.close, if_pos rfl]

/-- Neither a blank nor a mark. -/
def IsInert (c : Char) : Prop :=
  isSpace c = false ∧ isMark c = false

theorem tokens_append (h : ∀ c ∈ cs, IsInert c) (word rest : List Char) :
    tokens word (cs ++ rest) = tokens (word ++ cs) rest := by
  induction cs generalizing word with
  | nil => rw [List.nil_append, List.append_nil]
  | cons c cs ih =>
    obtain ⟨⟨hspace, hmark⟩, h⟩ := List.forall_mem_cons.1 h
    rw [List.cons_append, tokens, hspace, hmark]
    simp [ih h]

/-- Tokens that are told apart without blanks between them: behind every word comes a mark. -/
inductive Separated : List (List Char) → Prop
  | nil : Separated []
  | mark {mark : Char} {ts : List (List Char)} (hc : isMark mark = true) :
    Separated ts → Separated ([mark] :: ts)
  | word {word : List Char} {mark : Char} {ts : List (List Char)} (hne : word ≠ [])
    (hword : ∀ c ∈ word, IsInert c) (hc : isMark mark = true) :
    Separated ts → Separated (word :: [mark] :: ts)

theorem Separated.tokens_eq (h : Separated ts) (hcs : Spaced ts cs) : tokens [] cs = ts := by
  induction h generalizing cs with
  | nil =>
    cases hcs with
    | nil hb => simpa [tokens, tokens.close] using tokens_blank hb []
  | mark hc _ ih =>
    cases hcs with
    | cons hb hcs =>
      rw [tokens_blank hb, List.singleton_append, tokens_mark hc, tokens.close, if_pos rfl, ih hcs]
  | word hne hw hc _ ih =>
    cases hcs with
    | cons hb hcs =>
      cases hcs with
      | cons hb' hcs =>
        rw [tokens_blank hb, tokens_append hw, List.nil_append, List.singleton_append,
          tokens_word_mark hne hb' hc, ih hcs]

theorem isInert_of_isNamePart (h : isNamePart c = true) : IsInert c := by
  refine ⟨?_, ?_⟩ <;> refine Bool.eq_false_iff.2 fun hc => ?_ <;>
    simp only [isSpace, isMark, Bool.or_eq_true, decide_eq_true_eq] at hc <;>
    rcases hc with ((rfl | rfl) | rfl) | rfl <;> exact absurd h (by decide)

theorem isNamePart_eq (c : Char) :
    isNamePart c = (c.isUpper || c.isLower || c.isDigit || decide (c = '_')) :=
  rfl

theorem isNamePart_of_isDigit (h : c.isDigit = true) : isNamePart c = true := by
  simp [isNamePart_eq, h]

/-- Hexadecimal digits are digits and letters. -/
theorem isNamePart_of_hexDigit? {n : Nat} (h : hexDigit? c = some n) : isNamePart c = true := by
  rw [hexDigit?] at h
  split_ifs at h with hd hl hu
  · exact isNamePart_of_isDigit hd
  · have hz : c ≤ 'z' := Char.le_trans hl.2 (by decide)
    have hlower : c.isLower = true :=
      Bool.and_eq_true_iff.2 ⟨decide_eq_true hl.1, decide_eq_true hz⟩
    simp [isNamePart_eq, hlower]
  · have hz : c ≤ 'Z' := Char.le_trans hu.2 (by decide)
    have hupper : c.isUpper = true := decide_eq_true ⟨hu.1, hz⟩
    simp [isNamePart_eq, hupper]

theorem isInert_of_coded? {h₁ h₂ h₃ h₄ : Char} (h : coded? h₁ h₂ h₃ h₄ = some c) :
    ∀ h ∈ [h₁, h₂, h₃, h₄], IsInert h := by
  have inert (h : Char) (n : Nat) (hn : hexDigit? h = some n) : IsInert h :=
    isInert_of_isNamePart (isNamePart_of_hexDigit? hn)
  simp only [coded?, Option.bind_eq_bind, Option.bind_eq_some_iff] at h
  obtain ⟨n₁, hn₁, n₂, hn₂, n₃, hn₃, n₄, hn₄, -⟩ := h
  simp [inert h₁ n₁ hn₁, inert h₂ n₂ hn₂, inert h₃ n₃ hn₃, inert h₄ n₄ hn₄]

theorem isInert_of_spells {spelling name : List Char} (h : Spells spelling name) :
    ∀ c ∈ spelling, IsInert c := by
  induction h with
  | nil => simp
  | plain hc _ ih => exact List.forall_mem_cons.2 ⟨isInert_of_isNamePart hc, ih⟩
  | code hc _ ih =>
    have hescape : ∀ c ∈ [backslash, 'u'], IsInert c := by simp [IsInert]; decide
    exact List.forall_mem_append.2
      ⟨hescape, List.forall_mem_append.2 ⟨isInert_of_coded? hc, ih⟩⟩

theorem isInert_of_quoted {spelling name : List Char} (h : Spells spelling name) :
    ∀ c ∈ quoted spelling, IsInert c := by
  have hq : IsInert quotationMark := ⟨rfl, rfl⟩
  refine List.forall_mem_cons.2 ⟨hq, List.forall_mem_append.2 ⟨isInert_of_spells h, ?_⟩⟩
  simpa using hq

theorem isInert_of_numeral (n : Nat) : ∀ c ∈ numeral n, IsInert c := by
  intro c hc
  have hdigit : c.isDigit = true := Nat.isDigit_of_mem_toDigits (by decide) (by decide) hc
  exact isInert_of_isNamePart (isNamePart_of_isDigit hdigit)

variable {es : List Entry} {r ms ms' : Record} {text : String}

theorem separated_memberTokens (h : Entries es ms) : Separated (memberTokens es) := by
  have member (e : Entry) (m : String × Nat) (he : Spells e.1 m.1.toList) (mark : Char)
      (hc : isMark mark = true) {ts : List (List Char)} (hts : Separated ts) :
      Separated (quoted e.1 :: [':'] :: numeral e.2 :: [mark] :: ts) :=
    .word (List.cons_ne_nil _ _) (isInert_of_quoted he) rfl
      (.word Nat.toDigits_ne_nil (isInert_of_numeral _) hc hts)
  induction h with
  | nil => exact .mark rfl .nil
  | @cons e m es ms he hes ih =>
    cases es with
    | nil => exact member e m he.1 _ rfl .nil
    | cons e' es => exact member e m he.1 _ rfl ih

theorem unescape?_of_spells {spelling name : List Char} (h : Spells spelling name) :
    unescape? spelling = some name := by
  induction h with
  | nil => rfl
  | plain hc _ ih =>
    rw [unescape?]
    · rw [if_pos hc, ih]
      rfl
    · rintro _ _ _ _ _ rfl
      exact absurd hc (by decide)
  | code hc _ ih => rw [backslash, unescape?, hc, ih]; rfl

theorem name?_quoted {spelling : List Char} {name : String} (h : Spells spelling name.toList) :
    name? (quoted spelling) = some name := by
  have hspelling : (quoted spelling).tail.dropLast = spelling := by simp [quoted]
  rw [name?, hspelling]
  simp [unescape?_of_spells h]

theorem value?_numeral {n : Nat} (h : n < UInt64.size) : value? (numeral n) = some n := by
  have hn : Nat.ofDigitChars 10 (numeral n) 0 = n := Nat.ofDigitChars_ten_toDigits
  simp [value?, hn, h]

theorem members?_memberTokens (h : Entries es ms) (hms : ∀ m ∈ ms, m.2 < UInt64.size)
    (hne : ms ≠ []) : members? (memberTokens es) = some ms := by
  induction h with
  | nil => exact absurd rfl hne
  | @cons e m es ms he hes ih =>
    obtain ⟨hm, hms⟩ := List.forall_mem_cons.1 hms
    have hname := name?_quoted he.1
    have hvalue : value? (numeral e.2) = some m.2 := he.2 ▸ value?_numeral (he.2 ▸ hm)
    cases hes with
    | nil => simp [memberTokens, members?, hname, hvalue]
    | cons he' hes =>
      have ih := ih hms (List.cons_ne_nil _ _)
      simp [memberTokens, members?, hname, hvalue, ih]

theorem object?_objectTokens (h : Entries es ms) (hms : ∀ m ∈ ms, m.2 < UInt64.size) :
    object? (objectTokens es) = some ms := by
  cases h with
  | nil => rfl
  | cons he hes =>
    have hread := members?_memberTokens (.cons he hes) hms (List.cons_ne_nil _ _)
    cases hes <;> simpa [objectTokens, memberTokens, object?] using hread

/-- However an object is laid out, its members are found. -/
theorem object?_of_isObject (h : IsObject ms text) (hms : ∀ m ∈ ms, m.2 < UInt64.size) :
    object? (tokens [] text.toList) = some ms := by
  obtain ⟨es, hes, hspaced⟩ := h
  have hseparated : Separated (objectTokens es) := .mark rfl (separated_memberTokens hes)
  rw [hseparated.tokens_eq hspaced, object?_objectTokens hes hms]

theorem Spaced.line (m : String × Nat) (h : Spaced ts cs) :
    Spaced (quoted m.1.toList :: [':'] :: numeral m.2 :: ts) (lines.line m ++ cs) := by
  have hindent : ∀ c ∈ ['\n', ' ', ' '], isSpace c = true := by simp [isSpace]
  have hblank : ∀ c ∈ [' '], isSpace c = true := by simp [isSpace]
  have hvalue : Spaced (numeral m.2 :: ts) (' ' :: (numeral m.2 ++ cs)) := .cons hblank h
  rw [lines.line, List.append_assoc, List.append_assoc]
  exact .cons hindent (.next hvalue)

theorem spaced_lines : ∀ r : Record, Spaced (memberTokens (entries r)) (lines r)
  | [] => .flatten [['\x7d']]
  | [m] => by
    have hend : ∀ c ∈ ['\n'], isSpace c = true := by simp [isSpace]
    exact .line m (.cons hend (.flatten []))
  | m :: m' :: ms => .line m (.next (spaced_lines (m' :: ms)))

theorem isObject_lines (h : r.Declared) : IsObject r (String.ofList ('\x7b' :: lines r)) := by
  refine ⟨entries r, h.entries, ?_⟩
  rw [String.toList_ofList]
  exact .next (spaced_lines r)

end Json

namespace JsonCodec

variable {r ms ms' : Record} {text : String}

theorem plain_read? (h : IsObject ms text) (hms : r.Lists ms) : plain.read? r text =
    some fun name => (ms.lookup name).getD ((r.lookup name).getD 0) := by
  simp [plain, object?_of_isObject h hms.lt, hms.nodup]

theorem plain_read?_object (hr : r.Declared) (hms : r.Lists ms) : plain.read? r (object ms) =
    some fun name => (ms.lookup name).getD ((r.lookup name).getD 0) :=
  plain_read? (hms.declared hr).isObject hms

theorem plain_documented : plain.Documented where
  write_isObject {r} hr := ⟨r, .refl _, isObject_lines hr⟩
  read?_layout {r ms text} hr hms ht := by
    rw [plain_read? ht hms, plain_read?_object hr hms]
  read?_perm {r ms ms'} hr hms hperm := by
    have hms' := hms.perm hperm
    have hlookup (name : String) : ms.lookup name = ms'.lookup name := by
      refine Option.ext fun n => ?_
      rw [Record.lookup_eq_some_iff hms.nodup, Record.lookup_eq_some_iff hms'.nodup, hperm.mem_iff]
    rw [plain_read?_object hr hms, plain_read?_object hr hms']
    simp only [hlookup]
  read?_missing {r ms f} hr hms hf hnot := by
    have hms' := hms.cons hr hf hnot
    rw [plain_read?_object hr hms, plain_read?_object hr hms']
    congr 1
    funext name
    by_cases hname : name = f.1
    · subst hname
      have hself : List.lookup f.1 (f :: ms) = some f.2 :=
        (Record.lookup_eq_some_iff hms'.nodup).2 List.mem_cons_self
      rw [Record.lookup_eq_none_iff.2 hnot, (Record.lookup_eq_some_iff hr.nodup).2 hf, hself]
      rfl
    · have hbeq : (name == f.1) = false := beq_false_of_ne hname
      rw [List.lookup_cons, hbeq]
  read?_object {r ms} hr hms _ := by
    refine ⟨_, plain_read?_object hr hms, fun m hm => ?_⟩
    rw [(Record.lookup_eq_some_iff hms.nodup).2 hm]
    rfl

end JsonCodec

end SqlTypes
