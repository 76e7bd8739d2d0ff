import SqlTypes.Proofs.Concatenation
import SqlTypes.Proofs.MemberNames
import SqlTypes.Proofs.PhraseAtoms

/-!
# Descriptions made of others

However a type may be described, its description may stand in that of another type: in brackets
behind `ARRAY`, `MULTISET`, `MAP`, `ROW` and `STRUCTURED`, or before `ARRAY` and `MULTISET`
(`Assembled`). What is put together of accepted descriptions is accepted, and describes what is made
of their types (`parse_assembled`).
-/

namespace SqlTypes

open Grammar

/-- The name between backticks, the description of the type, and the text on the member between
apostrophes. -/
def Member.written (m : Member String) : String :=
  (Token.quoted m.name).text ++ (" " ++ m.type) ++
    match m.description with
    | none => ""
    | some d => " " ++ (Token.string d).text

/-- Texts with a comma and a blank between them. -/
def listed (parts : List String) : String :=
  ", ".intercalate parts

/-- The member `m` is written with a description that is accepted as the type of `f`. -/
structure Member.Describes (context : Context) (m : Member String) (f : Member DataType) :
    Prop where
  name : m.name = f.name
  type : parse context m.type = .ok f.type
  description : m.description = f.description

/-- The text is put together of accepted descriptions, and the type is made of their types. -/
inductive Assembled (context : Context) : String → DataType → Prop where
  | collection {e : String} {t : DataType} (c : Collection) : parse context e = .ok t →
      Assembled context (c.keyword.text ++ "<" ++ e ++ ">") { shape := .collection c t }
  | behind {e : String} {t : DataType} (c : Collection) : parse context e = .ok t →
      Assembled context (e ++ " " ++ c.keyword.text) { shape := .collection c t }
  | map {k v : String} {t u : DataType} : parse context k = .ok t → parse context v = .ok u →
      Assembled context ("MAP<" ++ k ++ ", " ++ v ++ ">") { shape := .map t u }
  | row {ms : List (Member String)} {fields : List (Member DataType)} :
      List.Forall₂ (Member.Describes context) ms fields → ProperNames (fields.map (·.name)) →
      Assembled context ("ROW<" ++ listed (ms.map Member.written) ++ ">") { shape := .row fields }
  | roundRow {ms : List (Member String)} {fields : List (Member DataType)} :
      List.Forall₂ (Member.Describes context) ms fields → ProperNames (fields.map (·.name)) →
      Assembled context ("ROW(" ++ listed (ms.map Member.written) ++ ")") { shape := .row fields }
  | structured {className : String} {ms : List (Member String)}
      {attributes : List (Member DataType)} : className ≠ "" →
      List.Forall₂ (Member.Describes context) ms attributes →
      ProperNames (attributes.map (·.name)) →
      Assembled context
        ("STRUCTURED<" ++ listed ((Token.string className).text :: ms.map Member.written) ++ ">")
        { shape := .structured className attributes }

section Tokens

variable {a b e : String}

theorem severs_blank (b : String) : Severs (" " ++ b) :=
  Severs.append ⟨' ', [], rfl, Token.endsTokens_blank⟩ b

theorem severs_symbol (x : Symbol) : Severs (Token.symbol x).text :=
  ⟨x.char, [], String.toList_singleton _, Token.endsTokens_symbol x⟩

theorem tokensOf_symbol (x : Symbol) : tokensOf (Token.symbol x).text = [.symbol x] :=
  Token.tokensOf_text trivial

theorem tokensOf_append_symbol (x : Symbol) (ha : .unterminated ∉ tokensOf a) :
    tokensOf (a ++ (Token.symbol x).text) = tokensOf a ++ [.symbol x] := by
  rw [tokensOf_append_of_severs ha (severs_symbol x), tokensOf_symbol]

theorem tokensOf_append_blank (ha : .unterminated ∉ tokensOf a) (b : String) :
    tokensOf (a ++ (" " ++ b)) = tokensOf a ++ tokensOf b := by
  rw [tokensOf_append_of_severs ha (severs_blank b), tokensOf_blank_append]

/-- A comma and a blank between two texts. -/
theorem tokensOf_append_comma (ha : .unterminated ∉ tokensOf a) (b : String) :
    tokensOf (a ++ ", " ++ b) = tokensOf a ++ .symbol .comma :: tokensOf b := by
  have hcomma : tokensOf ", " = [] ++ [.symbol .comma] := by decide +kernel
  have hsevers : Severs (", " ++ b) :=
    Severs.append ⟨',', [' '], rfl, Token.endsTokens_symbol .comma⟩ b
  rw [String.append_assoc, tokensOf_append_of_severs ha hsevers, tokensOf_append_of_symbol hcomma,
    hcomma]
  rfl

theorem tokensOf_brackets {k : Keyword} {x : Symbol} (ha : tokensOf a = [.keyword k, .symbol x])
    (he : .unterminated ∉ tokensOf e) (close : Symbol) :
    tokensOf (a ++ e ++ (Token.symbol close).text) =
      .keyword k :: .symbol x :: (tokensOf e ++ [.symbol close]) := by
  have hopening : tokensOf a = [.keyword k] ++ [.symbol x] := ha
  have hbefore : tokensOf (a ++ e) = .keyword k :: .symbol x :: tokensOf e := by
    rw [tokensOf_append_of_symbol hopening, ha]
    rfl
  rw [tokensOf_append_symbol close (by simpa [hbefore] using he), hbefore]
  rfl

end Tokens

namespace Grammar.Phrase

theorem tokens_bare (b : BasePhrase Phrase) : tokens ⟨b, .unmarked, []⟩ = baseTokens b := by
  simp [tokens, Nullability.tokens, wrapperTokens]

theorem type?_bare (loader : Loader) (heeded : Bool) (b : BasePhrase Phrase) :
    type? loader heeded ⟨b, .unmarked, []⟩ = baseType? loader heeded b := by
  simp [type?, Nullability.mark?, wrap?]

end Grammar.Phrase

section Members

variable {context : Context} {m : Member String} {f : Member DataType} {ms : List (Member String)}
  {fs : List (Member DataType)} {qs : List (MemberPhrase Phrase)}

/-- A member is written with the tokens of a phrase that is read as it. -/
theorem Member.Describes.exists_phrase (h : m.Describes context f) :
    ∃ p : Phrase, p.type? context.loader false = some f.type ∧ tokensOf m.written =
      .quoted f.name :: (p.tokens ++ (f.description.map Token.string).toList) := by
  obtain ⟨hname, htype, hdescription⟩ := h
  obtain ⟨p, hp, hread⟩ := exists_phrase_of_parse htype
  refine ⟨p, hread, ?_⟩
  have hquoted : tokensOf (Token.quoted m.name).text = [.quoted m.name] :=
    Token.tokensOf_text trivial
  have hbefore : tokensOf ((Token.quoted m.name).text ++ (" " ++ m.type)) =
      .quoted m.name :: p.tokens := by
    rw [tokensOf_append_blank (by simp [hquoted]), hquoted, hp]
    rfl
  rw [Member.written, ← hname, ← hdescription]
  cases m.description with
  | none =>
    rw [String.append_empty, hbefore]
    simp
  | some d =>
    have hopen : .unterminated ∉ tokensOf ((Token.quoted m.name).text ++ (" " ++ m.type)) := by
      simpa [hbefore] using p.unterminated_notMem
    have hstring : tokensOf (Token.string d).text = [.string d] := Token.tokensOf_text trivial
    rw [tokensOf_append_blank hopen, hbefore, hstring]
    rfl

theorem unterminated_notMem_membersTokens (qs : List (MemberPhrase Phrase)) :
    .unterminated ∉ Phrase.membersTokens qs := by
  intro h
  obtain h | ⟨q, -, h⟩ := Phrase.mem_membersTokens h
  · cases h
  · exact q.type.unterminated_notMem h

/-- Members are written with the tokens of phrases that are read as them, each behind a comma if
they are listed behind another part. -/
theorem exists_membersTokens (h : List.Forall₂ (Member.Describes context) ms fs) :
    ∃ qs, Phrase.membersType? context.loader false qs = some fs ∧
      tokensOf (listed (ms.map Member.written)) = (Phrase.membersTokens qs).drop 1 ∧
      ∀ part, .unterminated ∉ tokensOf part →
        tokensOf (listed (part :: ms.map Member.written)) =
          tokensOf part ++ Phrase.membersTokens qs := by
  induction h with
  | nil =>
    refine ⟨[], rfl, by decide +kernel, fun part _ => ?_⟩
    rw [Phrase.membersTokens, List.append_nil]
    rfl
  | @cons m f ms fs hm _ ih =>
    obtain ⟨qs, hqs, -, htokens⟩ := ih
    obtain ⟨p, hread, hwritten⟩ := hm.exists_phrase
    have hopen : .unterminated ∉ tokensOf m.written := by
      have hp := p.unterminated_notMem
      cases hd : f.description <;> simp [hwritten, hd, hp]
    have hlisted : tokensOf (listed ((m :: ms).map Member.written)) =
        .quoted f.name ::
          (p.tokens ++ (f.description.map Token.string).toList ++ Phrase.membersTokens qs) := by
      rw [List.map_cons, htokens _ hopen, hwritten, List.cons_append]
    refine ⟨⟨.quoted f.name, p, f.description⟩ :: qs, ?_, hlisted, fun part hpart => ?_⟩
    · simp [Phrase.membersType?, hread, hqs, Name.text]
    · rw [listed, List.map_cons, String.intercalate_cons_cons, tokensOf_append_comma hpart,
        ← listed, ← List.map_cons, hlisted]
      rfl

/-- Rows in either brackets are those of phrases. -/
theorem exists_rowPhrase (round : Bool) (h : List.Forall₂ (Member.Describes context) ms fs)
    (hnames : ProperNames (fs.map (·.name))) :
    ∃ p : Phrase, p.tokens = tokensOf
        ((if round then "ROW(" else "ROW<") ++ listed (ms.map Member.written) ++
          (Token.symbol (if round then .closeParen else .closeAngle)).text) ∧
      p.reading? context.loader = some { shape := .row fs } := by
  obtain ⟨qs, hread, htokens, -⟩ := exists_membersTokens h
  have hopen : .unterminated ∉ tokensOf (listed (ms.map Member.written)) := by
    rw [htokens]
    exact fun hmem => unterminated_notMem_membersTokens qs (List.mem_of_mem_drop hmem)
  have hopening : tokensOf (if round then "ROW(" else "ROW<") =
      [.keyword .row, .symbol (if round then .openParen else .openAngle)] := by
    cases round <;> decide +kernel
  have hcheck : Shape.check (.row fs) = .ok () := checkNames_eq_ok_iff.2 hnames
  refine ⟨⟨.row round qs, .unmarked, []⟩, ?_, ?_⟩
  · rw [Phrase.tokens_bare, Phrase.baseTokens, ← htokens]
    exact (tokensOf_brackets hopening hopen _).symm
  · rw [Phrase.reading?, Phrase.type?_bare, Phrase.baseType?, hread]
    exact make?_self rfl hcheck

end Members

/-- What is put together of accepted descriptions has the tokens of a phrase that is read as the
type made of theirs. -/
theorem Assembled.exists_phrase {context : Context} {s : String} {t : DataType}
    (h : Assembled context s t) :
    ∃ p : Phrase, p.tokens = tokensOf s ∧ p.reading? context.loader = some t := by
  cases h with
  | @collection e t c he =>
    obtain ⟨p, hp, hread⟩ := exists_phrase_of_parse he
    have hopening : tokensOf (c.keyword.text ++ "<") =
        [.keyword c.keyword, .symbol .openAngle] := by
      cases c <;> decide +kernel
    have hbody : .unterminated ∉ tokensOf e := hp ▸ p.unterminated_notMem
    refine ⟨⟨.collection c p, .unmarked, []⟩, ?_, ?_⟩
    · rw [Phrase.tokens_bare, Phrase.baseTokens, ← hp]
      exact (tokensOf_brackets hopening hbody .closeAngle).symm
    · rw [Phrase.reading?, Phrase.type?_bare, Phrase.baseType?, hread]
      rfl
  | @behind e t c he =>
    obtain ⟨⟨b, n, ws⟩, hp, hread⟩ := exists_phrase_of_parse he
    have hbefore : .unterminated ∉ tokensOf e := hp ▸ Phrase.unterminated_notMem _
    have hkeyword : tokensOf c.keyword.text = [.keyword c.keyword] :=
      Token.tokensOf_text (t := .keyword c.keyword) trivial
    obtain ⟨t₁, t₂, h₁, h₂, h₃⟩ := Phrase.type?_mk hread
    refine ⟨⟨b, n, ws ++ [(c, .unmarked)]⟩, ?_, ?_⟩
    · rw [String.append_assoc, tokensOf_append_blank hbefore, hp, hkeyword]
      simp [Phrase.tokens, wrapperTokens, Nullability.tokens]
    · have hwrap : wrap? false t₂ (ws ++ [(c, .unmarked)]) = some { shape := .collection c t } := by
        rw [wrap?] at h₃ ⊢
        rw [List.foldlM_append, h₃]
        rfl
      simp [Phrase.reading?, Phrase.type?, h₁, h₂, hwrap]
  | @map k v t u hk hv =>
    obtain ⟨p, hp, hreadp⟩ := exists_phrase_of_parse hk
    obtain ⟨q, hq, hreadq⟩ := exists_phrase_of_parse hv
    have hopening : tokensOf "MAP<" = [.keyword .map, .symbol .openAngle] := by decide +kernel
    have hbody : tokensOf (k ++ ", " ++ v) = p.tokens ++ .symbol .comma :: q.tokens := by
      rw [tokensOf_append_comma (hp ▸ p.unterminated_notMem), hp, hq]
    have hopen : .unterminated ∉ tokensOf (k ++ ", " ++ v) := by
      simp [hbody, p.unterminated_notMem, q.unterminated_notMem]
    have hassoc : "MAP<" ++ k ++ ", " ++ v ++ ">" = "MAP<" ++ (k ++ ", " ++ v) ++ ">" := by
      simp only [String.append_assoc]
    refine ⟨⟨.map p q, .unmarked, []⟩, ?_, ?_⟩
    · rw [Phrase.tokens_bare, Phrase.baseTokens, hassoc]
      refine Eq.trans ?_ (tokensOf_brackets hopening hopen .closeAngle).symm
      simp [hbody]
    · rw [Phrase.reading?, Phrase.type?_bare, Phrase.baseType?, hreadp, hreadq]
      rfl
  | row hms hnames => exact exists_rowPhrase false hms hnames
  | roundRow hms hnames => exact exists_rowPhrase true hms hnames
  | @structured className ms attributes hclass hms hnames =>
    obtain ⟨qs, hread, -, htokens⟩ := exists_membersTokens hms
    have hclassName : tokensOf (Token.string className).text = [.string className] :=
      Token.tokensOf_text trivial
    have hbody := htokens (Token.string className).text (by simp [hclassName])
    have hopen : .unterminated ∉
        tokensOf (listed ((Token.string className).text :: ms.map Member.written)) := by
      simp [hbody, hclassName, unterminated_notMem_membersTokens]
    have hopening : tokensOf "STRUCTURED<" = [.keyword .structured, .symbol .openAngle] := by
      decide +kernel
    refine ⟨⟨.structured className qs, .unmarked, []⟩, ?_, ?_⟩
    · rw [Phrase.tokens_bare, Phrase.baseTokens]
      refine Eq.trans ?_ (tokensOf_brackets hopening hopen .closeAngle).symm
      simp [hbody, hclassName]
    · have hcheck : Shape.check (.structured className attributes) = .ok () := by
        rw [Shape.check, if_neg hclass]
        exact checkNames_eq_ok_iff.2 hnames
      rw [Phrase.reading?, Phrase.type?_bare, Phrase.baseType?, hread]
      exact make?_self rfl hcheck

/-- What is put together of accepted descriptions is accepted, if it is not too long and has no more
tokens than types may nest, and it describes the type that is made of theirs. -/
theorem parse_assembled {context : Context} {s : String} {t : DataType} (h : Assembled context s t)
    (hlen : s.utf8ByteSize ≤ context.limits.maxInputLength)
    (hdepth : (tokensOf s).length ≤ context.limits.maxNestingDepth) :
    parse context s = .ok t := by
  obtain ⟨p, hp, hread⟩ := h.exists_phrase
  have hheight : p.height ≤ (tokensOf s).length :=
    hp ▸ p.height_le_depth.trans p.depth_le_length
  exact parse_of_reading? hp hread hlen (hheight.trans hdepth)

/-- ``(`a``` INT NOT NULL ARRAY 'b''c', ` ü` VARCHAR(5))`` -/
def quotedAttributes : List (Member DataType) :=
  let int : DataType := { shape := .atom (.plain .int), nullable := false }
  [⟨"a`", { shape := .collection .array int }, some "b'c"⟩,
    ⟨" ü", { shape := .atom (.sized .varchar 5) }, none⟩]

theorem parse_assembled_quotedAttributes :
    parse {} "STRUCTURED<'it''s', `a``` int not\nnull array 'b''c', ` ü` varchar ( 05 )>" =
      .ok { shape := .structured "it's" quotedAttributes } := by
  let written : List (Member String) :=
    [⟨"a`", "int not\nnull array", some "b'c"⟩, ⟨" ü", "varchar ( 05 )", none⟩]
  have hmembers : List.Forall₂ (Member.Describes {}) written quotedAttributes :=
    .cons ⟨rfl, by decide +kernel, rfl⟩ (.cons ⟨rfl, by decide +kernel, rfl⟩ .nil)
  have hclass : "it's" ≠ "" := by decide
  have hnames : ProperNames (quotedAttributes.map (·.name)) :=
    ⟨List.forall_mem_cons.2 ⟨⟨'a', by decide +kernel, rfl⟩,
      List.forall_mem_singleton.2 ⟨'ü', by decide +kernel, rfl⟩⟩, by decide +kernel⟩
  have h := Assembled.structured hclass hmembers hnames
  have htext : "STRUCTURED<" ++ listed ((Token.string "it's").text :: written.map Member.written) ++
      ">" = "STRUCTURED<'it''s', `a``` int not\nnull array 'b''c', ` ü` varchar ( 05 )>" := by
    decide +kernel
  rw [htext] at h
  exact parse_assembled h (by decide +kernel) (by decide +kernel)

end SqlTypes
