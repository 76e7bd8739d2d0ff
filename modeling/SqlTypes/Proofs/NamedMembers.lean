import SqlTypes.Proofs.ByteOrder
import SqlTypes.Proofs.MemberNames
import SqlTypes.Proofs.PhraseAtoms
import SqlTypes.Proofs.Refusals
import SqlTypes.Proofs.RoundTrip

/-!
# Types with named members

Rows and structured types ask the same of the names of their members (`Holder`). They can be made if
the names are proper, and else the message says what is wrong with them (`Complaint`): it is about
blank names if there is one, and lists the repeated ones if there is none. A parser that meets the
members in a text says the same, at the first keyword (`named_members`).
-/

namespace SqlTypes

open Grammar Reading

/-- What is said of names that are not proper. A blank name goes first, wherever it stands; else all
names are listed that come twice or more, each once, in the order of their UTF-8 forms. -/
inductive Complaint (role : MemberRole) (names : List String) : String → Prop
  | blank {name} (hmem : name ∈ names) (hblank : ∀ c ∈ name.toList, Text.isWhiteSpace c = true) :
    Complaint role names
      (role.name ++ " names must contain at least one non-whitespace character.")
  | repeated {listed}
    (hblank : ∀ name ∈ names, ∃ c ∈ name.toList, Text.isWhiteSpace c = false)
    (hmem : ∀ name, name ∈ listed ↔ 2 ≤ names.count name) (hne : listed ≠ [])
    (hsorted : listed.Pairwise fun a b => Text.bytes a < Text.bytes b) :
    Complaint role names
      (role.name ++ " names must be unique. Found duplicates: [" ++ ", ".intercalate listed ++ "]")

theorem checkNames_cases (role : MemberRole) (names : List String) :
    ProperNames names ∧ checkNames role names = .ok () ∨
      ¬ProperNames names ∧ ∃ b, checkNames role names = .error b ∧
        Complaint role names b.message := by
  rcases hcheck : checkNames role names with b | u
  · refine .inr ⟨fun h => ?_, b, rfl, ?_⟩
    · rw [checkNames_eq_ok_iff.2 h] at hcheck
      cases hcheck
    · rw [checkNames] at hcheck
      split_ifs at hcheck with hblank
      · cases hcheck
        obtain ⟨name, hmem, hname⟩ := List.any_eq_true.1 hblank
        exact .blank hmem (List.all_eq_true.1 hname)
      · have hproper : ∀ name ∈ names, ∃ c ∈ name.toList, Text.isWhiteSpace c = false := by
          intro name hname
          refine Text.isBlank_eq_false_iff.1 (Bool.eq_false_iff.2 fun hb => hblank ?_)
          exact List.any_eq_true.2 ⟨name, hname, hb⟩
        cases hr : repeatedNames names with
        | nil => rw [hr] at hcheck; cases hcheck
        | cons a rest =>
          rw [hr] at hcheck
          cases hcheck
          refine .repeated hproper (fun name => ?_) (List.cons_ne_nil a rest) ?_
          · rw [← hr, mem_repeatedNames]
          · rw [← hr]
            exact (pairwise_repeatedNames names).imp Text.bytes_lt_bytes
  · exact .inl ⟨checkNames_eq_ok_iff.1 hcheck, rfl⟩

/-- A row, or a structured type of a class with a name. -/
inductive Holder where
  | row
  | structured (className : String) (named : className ≠ "")

namespace Holder

def role : Holder → MemberRole
  | row => .field
  | structured .. => .attribute

def keyword : Holder → Keyword
  | row => .row
  | structured .. => .structured

def shape (members : List (Member DataType)) : Holder → Shape DataType
  | row => .row members
  | structured className _ => .structured className members

/-- The phrase of the members in it. -/
def base (qs : List (MemberPhrase Phrase)) : Holder → BasePhrase Phrase
  | row => .row false qs
  | structured className _ => .structured className qs

/-- The tokens behind the keyword. -/
def tokens (qs : List (MemberPhrase Phrase)) : Holder → List Token
  | row => .symbol .openAngle :: ((Phrase.membersTokens qs).drop 1 ++ [.symbol .closeAngle])
  | structured className _ =>
    .symbol .openAngle :: .string className ::
      (Phrase.membersTokens qs ++ [.symbol .closeAngle])

variable {h : Holder} {members : List (Member DataType)}

theorem check_shape : (h.shape members).check = checkNames h.role (members.map (·.name)) := by
  cases h with
  | row => rfl
  | structured className named => exact if_neg named

theorem new_shape : DataType.new (h.shape members) =
    (checkNames h.role (members.map (·.name))).map fun _ => { shape := h.shape members } := by
  have hn : (h.shape members).normalized = h.shape members := by cases h <;> rfl
  rw [DataType.new, hn, check_shape]
  cases checkNames h.role (members.map (·.name)) <;> rfl

theorem new_cases (h : Holder) (members : List (Member DataType)) :
    ProperNames (members.map (·.name)) ∧
        DataType.new (h.shape members) = .ok { shape := h.shape members } ∨
      ¬ProperNames (members.map (·.name)) ∧ ∃ b, DataType.new (h.shape members) = .error b ∧
        Complaint h.role (members.map (·.name)) b.message := by
  rw [new_shape]
  rcases checkNames_cases h.role (members.map (·.name)) with ⟨hp, hc⟩ | ⟨hp, b, hc, hb⟩
  · exact .inl ⟨hp, by rw [hc]; rfl⟩
  · exact .inr ⟨hp, b, by rw [hc]; rfl, hb⟩

theorem parts_shape : (h.shape members).parts = members.map (·.type) := by
  cases h <;> rfl

/-- The phrases of the members. -/
def phrases (members : List (Member DataType)) : List (MemberPhrase Phrase) :=
  (members.map (·.map DataType.phrase)).map Member.phrase

theorem phrase_shape : DataType.phrase { shape := h.shape members } =
    ⟨h.base (phrases members), .unmarked, []⟩ := by
  rw [DataType.phrase, DataType.phraseWith_mk]
  cases h <;> rfl

theorem tokens_base (qs : List (MemberPhrase Phrase)) :
    Phrase.tokens ⟨h.base qs, .unmarked, []⟩ = .keyword h.keyword :: h.tokens qs := by
  rw [Phrase.tokens, Nullability.tokens, wrapperTokens, List.flatMap_nil, List.append_nil,
    List.append_nil]
  cases h <;> rfl

theorem membersHeight_le {levels : Nat}
    (hdepth : DataType.depth { shape := h.shape members } ≤ levels + 1) :
    Phrase.membersHeight (phrases members) ≤ levels := by
  rw [← DataType.height_phrase, phrase_shape, Phrase.height_eq] at hdepth
  have hle := Nat.le_trans (Nat.le_max_left _ _) (Nat.le_of_succ_le_succ hdepth)
  cases h <;> exact hle

variable {loader : Loader} {inner : Reading DataType} {c : Cursor}
  {qs : List (MemberPhrase Phrase)} {levels : Nat} {b : BadParameter}

/-- Members with names that are not proper are read, and then refused at the first keyword. -/
theorem fails (hi : EndsPhrases loader levels inner) (hqs : Phrase.membersHeight qs ≤ levels)
    (hms : Phrase.membersType? loader false qs = some members)
    (hb : DataType.new (h.shape members) = .error b) (hc : c.rest = h.tokens qs) (start : Nat) :
    Fails (afterKeyword loader inner start h.keyword) c
      (.problem (.token start) (.invalidParameter b)) := by
  cases h with
  | row =>
    have hc₁ := Cursor.skip_rest hc
    have ho : openRow.run c = .ok .closeAngle c.skip := @run_openRow _ _ false hc
    obtain ⟨ms, c₂, hfields, hms', hp⟩ :=
      (fields_outcome rfl (by decide) hi hqs hc₁).exists_ok hms
    obtain rfl : ms = members := Option.some.inj (hms'.symm.trans hms)
    exact .of_ok ho (.of_ok hfields
      (.of_ok (run_expectSymbol (hp.rest_eq hc₁)) (fails_make hb start _)))
  | structured className named =>
    have hc₁ := Cursor.skip_rest hc
    have hc₂ := Cursor.skip_rest hc₁
    have hread : Outcome _ _ _ _ ((membersAfter inner []).run c.skip.skip) :=
      moreMembers_outcome rfl (by decide) hi c.skip.skip.rest qs (by simp [hc₂]) hqs hc₂
    obtain ⟨ms, c₃, hmore, ⟨us, hus, hms'⟩, hp⟩ := hread.exists_ok ⟨members, hms, rfl⟩
    obtain rfl : us = members := Option.some.inj (hus.symm.trans hms)
    obtain rfl : ms = us := hms'
    exact .of_ok (run_expectSymbol hc) (.of_ok (run_string hc₁) (.of_ok hmore
      (.of_ok (run_expectSymbol (hp.rest_eq hc₂)) (fails_make hb start _))))

/-- The types of the members can be made without asking a loader. -/
def SelfContained (members : List (Member DataType)) : Prop :=
  ∀ m ∈ members, m.type.Obtainable ∧ ∀ a ∈ m.type.atoms, a.isOutside = false

theorem knows_of_inside {t : DataType} (ht : ∀ a ∈ t.atoms, a.isOutside = false)
    (loader : Loader) : loader.Knows t where
  raw r hr := absurd (ht _ hr) (by simp [Atom.isOutside])
  legacy f p hp := absurd (ht _ hp) (by simp [Atom.isOutside])

theorem membersType?_phrases (hm : SelfContained members) (loader : Loader) :
    Phrase.membersType? loader false (phrases members) = some members := by
  have hread : ∀ m ∈ members, m.type.phrase.type? loader false = some (id m.type) := fun m hmem =>
    DataType.reading?_phrase (hm m hmem).1.valid (knows_of_inside (hm m hmem).2 loader)
  rw [phrases, membersType?_phrase hread]
  exact congrArg some (List.map_id members)

/-- A text with these members is parsed as `DataType.new` makes the type of them. -/
theorem parse_shape {context : Context} {input : String} {first : Lexeme}
    (hm : SelfContained members)
    (htokens : tokensOf input = tokensOf (DataType.canonical { shape := h.shape members }))
    (hfirst : (tokenize input)[0]? = some first)
    (hlen : input.utf8ByteSize ≤ context.limits.maxInputLength)
    (hdepth : DataType.depth { shape := h.shape members } ≤ context.limits.maxNestingDepth) :
    parse context input = (DataType.new (h.shape members)).mapError fun b =>
      .parse first.start .invalidParameter b.message input none := by
  have hphrase : (DataType.phrase { shape := h.shape members }).tokens = tokensOf input :=
    (DataType.tokensOf_canonical _).trans htokens.symm
  rcases hnew : DataType.new (h.shape members) with b | t
  · have hpos : 1 ≤ DataType.depth { shape := h.shape members } := by
      rw [DataType.depth_eq]
      exact Nat.succ_pos _
    obtain ⟨levels, hlevels⟩ := Nat.exists_eq_add_of_le' (Nat.le_trans hpos hdepth)
    have hheight := h.membersHeight_le (hlevels ▸ hdepth)
    rw [phrase_shape, tokens_base] at hphrase
    rw [parse_of_fails hlen hlevels hphrase.symm fun c hc _ =>
        fails (typeExpression_outcome _ _ levels) hheight (membersType?_phrases hm _) hnew hc 0,
      Parser.failure, Parser.offset_token hfirst]
    rfl
  · obtain ⟨-, hmade⟩ | ⟨-, b, hb, -⟩ := h.new_cases members
    · obtain rfl : t = { shape := h.shape members } := Except.ok.inj (hnew.symm.trans hmade)
      refine parse_of_reading? hphrase (DataType.reading?_phrase ?_ ?_) hlen ?_
      · refine (DataType.Obtainable.new (fun u hu => ?_) hmade).valid
        obtain ⟨m, hmem, rfl⟩ := List.mem_map.1 (parts_shape ▸ hu)
        exact (hm m hmem).1
      · refine knows_of_inside (fun a ha => ?_) context.loader
        rcases DataType.mem_atoms_iff.1 ha with hatom | ⟨u, hu, ha⟩
        · cases h <;> cases hatom
        · obtain ⟨m, hmem, rfl⟩ := List.mem_map.1 (parts_shape ▸ hu)
          exact (hm m hmem).2 a ha
      · rwa [DataType.height_phrase]
    · rw [hnew] at hb
      cases hb

end Holder

/-- The names of the members decide whether a row, or a structured type of a class with a name, can
be made, and a message says what is wrong with them. Within the limits, a text with the tokens of
the canonical one, however it is laid out, is parsed to the same effect if no member holds raw or
legacy types. The fault is then at the first token. -/
theorem named_members (h : Holder) (members : List (Member DataType)) :
    (DataType.new (h.shape members) = .ok { shape := h.shape members } ↔
        ProperNames (members.map (·.name))) ∧
      (¬ProperNames (members.map (·.name)) → ∃ b, DataType.new (h.shape members) = .error b ∧
        Complaint h.role (members.map (·.name)) b.message) ∧
      ∀ (context : Context) (input : String) (first : Lexeme),
        Holder.SelfContained members →
        tokensOf input = tokensOf (DataType.canonical { shape := h.shape members }) →
        (tokenize input)[0]? = some first →
        input.utf8ByteSize ≤ context.limits.maxInputLength →
        DataType.depth { shape := h.shape members } ≤ context.limits.maxNestingDepth →
        parse context input = (DataType.new (h.shape members)).mapError fun b =>
          .parse first.start .invalidParameter b.message input none := by
  refine ⟨⟨fun hmade => ?_, fun hp => ?_⟩, fun hp => ?_, fun context input first hm htokens hfirst
    hlen hdepth => h.parse_shape hm htokens hfirst hlen hdepth⟩ <;>
  obtain ⟨hproper, hnew⟩ | ⟨hnot, b, hb, hcomplaint⟩ := h.new_cases members
  · exact hproper
  · rw [hmade] at hb
    cases hb
  · exact hnew
  · exact absurd hp hnot
  · exact absurd hproper hp
  · exact ⟨b, hb, hcomplaint⟩

/-- Both names come more than once, `b` three times. -/
def repeatedFields : List (Member DataType) :=
  let int : DataType := { shape := .atom (.plain .int) }
  [⟨"b", int, none⟩, ⟨"a", int, none⟩, ⟨"b", int, some "again"⟩, ⟨"a", int, none⟩, ⟨"b", int, none⟩]

theorem named_members_repeated :
    parse {} "  ROW < `b` INT, `a` INT, `b` INT 'again', `a` INT, `b` INT >" =
      .error (.parse 2 .invalidParameter
        "Field names must be unique. Found duplicates: [a, b]"
        "  ROW < `b` INT, `a` INT, `b` INT 'again', `a` INT, `b` INT >" none) := by
  have hint : DataType.Obtainable { shape := .atom (.plain .int) } :=
    .new (s := .atom (.plain .int)) (by simp [Shape.parts]) rfl
  have hself : Holder.SelfContained repeatedFields := by
    simp [Holder.SelfContained, repeatedFields, hint, DataType.atoms_atom, Atom.isOutside]
  rw [(named_members .row repeatedFields).2.2 {} _ ⟨some (.keyword .row), 2, 5⟩ hself
    (by decide +kernel) (by decide +kernel) (by decide +kernel) (by decide +kernel)]
  decide +kernel

end SqlTypes
