import SqlTypes.Proofs.RoundTrip

/-!
# Reading summaries

A summary is parsed as the type that it is made of, with `...` for whatever its raw types store
(`DataType.reading?_summaryPhrase`). So it tells types apart unless they differ in this only
(`DataType.summary_eq_iff`).
-/

namespace SqlTypes

open Grammar

namespace Atom

/-- The same atom, with `...` for what a raw type stores. -/
def abridged : Atom → Atom
  | .raw r => .raw ⟨r.className, ellipsis⟩
  | a => a

/-- The phrase of the spelling in a summary. -/
def summaryPhrase : Atom → AtomPhrase
  | .sized .varchar length =>
    if length = (Parameter.length .varchar).greatest then .string
    else (Atom.sized .varchar length).phrase
  | .sized .varbinary length =>
    if length = (Parameter.length .varbinary).greatest then .bytes
    else (Atom.sized .varbinary length).phrase
  | a => a.abridged.phrase

/-- The longest strings are written with a keyword of their own, and any other atom as it is in the
canonical spelling, but for what a raw type stores. -/
theorem summary_cases (a : Atom) :
    (a = .sized .varchar (Parameter.length .varchar).greatest ∧ a.summaryPhrase = .string ∧
        a.summaryTokens = [.keyword .string]) ∨
      (a = .sized .varbinary (Parameter.length .varbinary).greatest ∧ a.summaryPhrase = .bytes ∧
        a.summaryTokens = [.keyword .bytes]) ∨
      (a.summaryPhrase = a.abridged.phrase ∧ a.summaryTokens = a.abridged.tokens) := by
  cases a with
  | sized s length =>
    cases s with
    | char | binary => exact .inr (.inr ⟨rfl, rfl⟩)
    | varchar =>
      by_cases h : length = (Parameter.length .varchar).greatest
      · subst h
        exact .inl ⟨rfl, rfl, rfl⟩
      · exact .inr (.inr ⟨if_neg h, if_neg h⟩)
    | varbinary =>
      by_cases h : length = (Parameter.length .varbinary).greatest
      · subst h
        exact .inr (.inl ⟨rfl, rfl, rfl⟩)
      · exact .inr (.inr ⟨if_neg h, if_neg h⟩)
  | plain | decimal | temporal | yearMonth | dayTime | raw | legacy | unresolved =>
    exact .inr (.inr ⟨rfl, rfl⟩)

theorem tokens_summaryPhrase (a : Atom) : a.summaryPhrase.tokens = a.summaryTokens := by
  obtain ⟨-, hp, ht⟩ | ⟨-, hp, ht⟩ | ⟨hp, ht⟩ := a.summary_cases <;> rw [hp, ht]
  · rfl
  · rfl
  · exact tokens_phrase _

theorem spelled_summaryTokens (a : Atom) : ∀ t ∈ a.summaryTokens, t.Spelled := by
  obtain ⟨-, -, ht⟩ | ⟨-, -, ht⟩ | ⟨-, ht⟩ := a.summary_cases <;> rw [ht]
  · simp
  · simp
  · exact spelled_tokens _

theorem summaryTokens_abridged (a : Atom) : a.abridged.summaryTokens = a.summaryTokens := by
  cases a <;> rfl

end Atom

/-- The loader takes raw types as they are written, and legacy types for themselves. -/
structure Loader.Verbatim (loader : Loader) : Prop where
  restore : ∀ className snapshot, loader.restore className snapshot = .ok ⟨className, snapshot⟩
  resolve : ∀ family payload, loader.resolve family payload = .ok (.legacy family payload)

variable {loader : Loader}

theorem Loader.Verbatim.knows (h : loader.Verbatim) (t : DataType) : loader.Knows t :=
  ⟨fun r _ => h.restore r.className r.snapshot, fun f p _ => h.resolve f p⟩

theorem Atom.meaning?_summaryPhrase (hl : loader.Verbatim) {a : Atom} (hn : a.normalized = a)
    (hc : a.check = .ok ()) :
    a.summaryPhrase.meaning? loader = some { shape := .atom a.abridged } := by
  obtain ⟨rfl, hp, -⟩ | ⟨rfl, hp, -⟩ | ⟨hp, -⟩ := a.summary_cases <;> rw [hp]
  · exact make?_self rfl hc
  · exact make?_self rfl hc
  · refine meaning?_phrase ?_ ?_ (hl.knows _)
    · cases a with
      | raw => rfl
      | _ => exact hn
    · cases a <;> exact hc

namespace DataType

/-- The same type, with `...` for what its raw types store. -/
def abridged (t : DataType) : DataType :=
  t.mapAtoms Atom.abridged

theorem reading?_summaryPhrase (hl : loader.Verbatim) {t : DataType} (ht : t.Valid) :
    (t.phraseWith Atom.summaryPhrase).reading? loader = some t.abridged := by
  refine reading?_phraseWith (fun a h => ?_) ht fun a _ hn hc => a.meaning?_summaryPhrase hl hn hc
  cases a with
  | raw => cases h
  | _ => exact h

theorem tokensOf_summary (t : DataType) :
    (t.phraseWith Atom.summaryPhrase).tokens = tokensOf t.summary :=
  t.tokensOf_layout_tokensWith Atom.spelled_summaryTokens Atom.tokens_summaryPhrase

theorem tokensWith_mapAtoms {f : Atom → Atom} {spell : Atom → List Token}
    (h : ∀ a, spell (f a) = spell a) : ∀ t : DataType,
    (t.mapAtoms f).tokensWith spell = t.tokensWith spell :=
  forall_of_parts fun s nullable ih => by
    have hparts : (s.mapParts (mapAtoms f)).mapParts (tokensWith spell) =
        s.mapParts (tokensWith spell) := by
      rw [Shape.mapParts_mapParts]
      exact Shape.mapParts_congr ih
    have hshape : ∀ s : Shape DataType,
        ((s.mapAtom f).mapParts (tokensWith spell)).tokens spell =
          (s.mapParts (tokensWith spell)).tokens spell := by
      intro s
      cases s with
      | atom a => exact h a
      | collection | map | row | structured => rfl
    rw [mapAtoms_mk, tokensWith_mk, tokensWith_mk, hshape, hparts]

/-- Types have the same summary just if they differ in nothing but what their raw types store. -/
theorem summary_eq_iff {t u : DataType} (ht : t.Valid) (hu : u.Valid) :
    u.summary = t.summary ↔ u.abridged = t.abridged := by
  have abridged_summary : ∀ t : DataType, t.abridged.summary = t.summary := fun t =>
    congrArg Token.layout (tokensWith_mapAtoms Atom.summaryTokens_abridged t)
  constructor
  · intro h
    have hverbatim : Loader.verbatim.Verbatim := ⟨fun _ _ => rfl, fun _ _ => rfl⟩
    have htokens : (u.phraseWith Atom.summaryPhrase).tokens =
        (t.phraseWith Atom.summaryPhrase).tokens := by
      rw [tokensOf_summary, tokensOf_summary, h]
    have hread := (Reading.reading?_of_tokens_eq htokens (reading?_summaryPhrase hverbatim ht)).1
    exact Option.some.inj ((reading?_summaryPhrase hverbatim hu).symm.trans hread)
  · intro h
    rw [← abridged_summary u, h, abridged_summary t]

theorem abridged_eq_self {t : DataType} (h : ∀ r, .raw r ∉ t.atoms) : t.abridged = t := by
  refine t.mapAtoms_eq_self fun a ha => ?_
  cases a with
  | raw r => exact absurd ha (h r)
  | _ => rfl

end DataType

/-- The summary of a type that can be made is parsed as this type with `...` for what its raw types
store, by a loader that takes all raw and legacy types as they are written. So it is parsed as the
type itself, if there are no raw types in it, and another type has the same summary just if the two
differ in nothing but what their raw types store. -/
theorem parse_summary {context : Context} {t : DataType} (ht : t.Obtainable)
    (hraw : ∀ className snapshot,
      context.loader.restore className snapshot = .ok ⟨className, snapshot⟩)
    (hlegacy : ∀ family payload,
      context.loader.resolve family payload = .ok (.legacy family payload))
    (hlen : t.summary.utf8ByteSize ≤ context.limits.maxInputLength)
    (hdepth : t.depth ≤ context.limits.maxNestingDepth) :
    parse context t.summary = .ok t.abridged ∧
      ((∀ r, .raw r ∉ t.atoms) → parse context t.summary = .ok t) ∧
      ∀ u : DataType, u.Obtainable → (u.summary = t.summary ↔ u.abridged = t.abridged) := by
  have hparse : parse context t.summary = .ok t.abridged := by
    rw [← t.height_phraseWith] at hdepth
    have hread := DataType.reading?_summaryPhrase ⟨hraw, hlegacy⟩ ht.valid
    exact parse_of_reading? t.tokensOf_summary hread hlen hdepth
  refine ⟨hparse, fun hnone => ?_, fun u hu => DataType.summary_eq_iff ht.valid hu.valid⟩
  rw [hparse, DataType.abridged_eq_self hnone]

/-- ``ROW<`a` MAP<STRING, RAW('c', '00')> NOT NULL>`` -/
def rowOfMap : DataType :=
  let string : DataType := { shape := .atom (.sized .varchar 2147483647) }
  let raw : DataType := { shape := .atom (.raw ⟨"c", "00"⟩) }
  { shape := .row [⟨"a", { shape := .map string raw, nullable := false }, none⟩] }

theorem parse_summary_rowOfMap :
    rowOfMap.summary = "ROW<`a` MAP<STRING, RAW('c', '...')> NOT NULL>" ∧
      parse { loader := .verbatim } rowOfMap.summary = .ok rowOfMap.abridged ∧
      rowOfMap.abridged ≠ rowOfMap := by
  have leaf : ∀ a, a.normalized = a → a.check = .ok () → DataType.Valid { shape := .atom a } :=
    fun a hn hc => .intro ⟨by simp [Shape.normalized, hn], hc, fun _ => rfl⟩ (by simp [Shape.parts])
  have hvalid : rowOfMap.Valid := by
    have hstring := leaf (.sized .varchar 2147483647) rfl rfl
    have hraw := leaf (.raw ⟨"c", "00"⟩) rfl rfl
    have hmap : DataType.Valid ⟨.map _ _, false⟩ :=
      .intro ⟨rfl, rfl, fun h => by cases h⟩
        (List.forall_mem_cons.2 ⟨hstring, List.forall_mem_singleton.2 hraw⟩)
    exact .intro ⟨rfl, by decide +kernel, fun h => by cases h⟩ (List.forall_mem_singleton.2 hmap)
  let context : Context := { loader := .verbatim }
  have hread : parse context rowOfMap.summary = .ok rowOfMap.abridged :=
    (parse_summary hvalid.obtainable (fun _ _ => rfl) (fun _ _ => rfl) (by decide +kernel)
      (by decide +kernel)).1
  exact ⟨by decide +kernel, hread, by decide +kernel⟩

end SqlTypes
