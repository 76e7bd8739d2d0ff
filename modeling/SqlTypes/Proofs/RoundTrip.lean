import SqlTypes.Proofs.Canonical
import SqlTypes.Proofs.Validity

/-!
# Reading canonical descriptions

A valid type is read back from its phrase as its atoms are from theirs
(`DataType.reading?_phraseWith`). So the phrase of its canonical spelling is read as the type itself
(`DataType.reading?_phrase`), if the loader answers for its raw and legacy types with these types
themselves, and the canonical text of a type that can be made is parsed as this type.
-/

namespace SqlTypes

open Grammar

/-- The atoms in a type. -/
def DataType.atoms (t : DataType) : List Atom :=
  t.fold fun s _ =>
    match s with
    | .atom a => [a]
    | s => s.parts.flatten

theorem DataType.atoms_atom (a : Atom) (nullable : Bool) :
    DataType.atoms ⟨.atom a, nullable⟩ = [a] := by
  rw [atoms, fold_mk]
  rfl

/-- The atoms of a type are the type itself, if it is one, and those of its parts. -/
theorem DataType.mem_atoms_iff {t : DataType} {a : Atom} :
    a ∈ t.atoms ↔ t.shape = .atom a ∨ ∃ u ∈ t.shape.parts, a ∈ u.atoms := by
  obtain ⟨s, nullable⟩ := t
  rw [atoms, fold_mk]
  cases s with
  | atom a => simp [Shape.mapParts, Shape.parts, eq_comm]
  | collection | map | row | structured =>
    simp [Shape.mapParts, Shape.parts, Member.map, atoms]

theorem DataType.mem_atoms_of_mem_parts {s : Shape DataType} {nullable : Bool} {u : DataType}
    {a : Atom} (hu : u ∈ s.parts) (ha : a ∈ u.atoms) : a ∈ DataType.atoms ⟨s, nullable⟩ :=
  mem_atoms_iff.2 (.inr ⟨u, hu, ha⟩)

/-- The same layer with another atom. -/
def Shape.mapAtom {τ : Type} (f : Atom → Atom) : Shape τ → Shape τ
  | .atom a => .atom (f a)
  | s => s

/-- The same type with other atoms. -/
def DataType.mapAtoms (f : Atom → Atom) (t : DataType) : DataType :=
  t.fold fun s nullable => ⟨s.mapAtom f, nullable⟩

theorem DataType.mapAtoms_mk (f : Atom → Atom) (s : Shape DataType) (nullable : Bool) :
    mapAtoms f ⟨s, nullable⟩ = ⟨(s.mapParts (mapAtoms f)).mapAtom f, nullable⟩ := by
  rw [mapAtoms, fold_mk]
  rfl

/-- Where no atom changes, the type does not. -/
theorem DataType.mapAtoms_eq_self {f : Atom → Atom} : ∀ t : DataType,
    (∀ a ∈ t.atoms, f a = a) → t.mapAtoms f = t :=
  forall_of_parts fun s nullable ih h => by
    have hparts : s.mapParts (mapAtoms f) = s :=
      Shape.mapParts_eq_self fun u hu => ih u hu fun a ha => h a (mem_atoms_of_mem_parts hu ha)
    rw [mapAtoms_mk, hparts]
    cases s with
    | atom a => rw [Shape.mapAtom, h a (by simp [atoms_atom])]
    | collection | map | row | structured => rfl

/-- The loader answers for the raw and legacy types in a type with these types themselves. -/
structure Loader.Knows (loader : Loader) (t : DataType) : Prop where
  raw : ∀ r, .raw r ∈ t.atoms → loader.restore r.className r.snapshot = .ok r
  legacy : ∀ f p, .legacy f p ∈ t.atoms → loader.resolve f p = .ok (.legacy f p)

theorem Loader.Knows.atom {loader : Loader} {t : DataType} {a : Atom} (h : loader.Knows t)
    (ha : a ∈ t.atoms) : loader.Knows { shape := .atom a } where
  raw r hr := by
    rw [DataType.atoms_atom, List.mem_singleton] at hr
    exact h.raw r (hr ▸ ha)
  legacy f p hl := by
    rw [DataType.atoms_atom, List.mem_singleton] at hl
    exact h.legacy f p (hl ▸ ha)

variable {loader : Loader}

theorem number?_repr {n : Nat} (h : n ≤ largestInteger) : number? n.repr = some n := by
  rw [number?, Nat.toList_repr, Nat.ofDigitChars_ten_toDigits]
  exact if_pos h

theorem make?_self {s : Shape DataType} (hs : s.normalized = s) (hc : s.check = .ok ()) :
    make? s = some { shape := s } := by
  rw [make?_eq_some_iff, hs]
  exact ⟨hc, rfl⟩

theorem precision?_repr {omitted n : Nat} {used : Bool} (hn : n ≤ largestInteger)
    (hu : used = false → n = omitted) : precision? omitted used (some n.repr) = some n := by
  cases used with
  | true => exact number?_repr hn
  | false => exact hu rfl ▸ rfl

theorem QualifiedName.meaning?_phrase (n : QualifiedName) :
    n.phrase.meaning? loader = make? (.atom (.unresolved n)) := by
  have hn := n.ofSegments_segments
  obtain ⟨segments, hne, hle, hempty⟩ := n
  match segments, hne, hle with
  | [a], _, _ | [b, a], _, _ | [c, b, a], _, _ =>
    simp only at hn
    simp [QualifiedName.phrase, AtomPhrase.meaning?, unresolved?, Name.text, hn, Except.toOption]

theorem Atom.meaning?_phrase {a : Atom} (hn : a.normalized = a) (hc : a.check = .ok ())
    (hk : loader.Knows { shape := .atom a }) :
    a.phrase.meaning? loader = some { shape := .atom a } := by
  have hmake : make? (.atom a) = some { shape := .atom a } :=
    make?_self (by rw [Shape.normalized, hn]) hc
  cases a with
  | plain p => exact hmake
  | sized s n =>
    have hnum := number?_repr (Parameter.le_of_check hc)
    simpa [Atom.phrase, AtomPhrase.meaning?, parameter?, hnum] using hmake
  | decimal p s =>
    obtain ⟨hp, hs⟩ := Parameter.check_bind_eq_ok_iff.1 hc
    have hle : s ≤ p := by
      by_contra h
      simp [h] at hs
    have hp := hp.le_largest
    simpa [Atom.phrase, AtomPhrase.meaning?, parameter?, number?_repr hp,
      number?_repr (Nat.le_trans hle hp)] using hmake
  | temporal t n =>
    have hnum := number?_repr (Parameter.le_of_check hc)
    cases t <;>
      simpa [Atom.phrase, Temporal.phrase, AtomPhrase.meaning?, parameter?, hnum, Zone.temporal]
        using hmake
  | yearMonth range n =>
    have hnum := number?_repr (Parameter.le_of_check hc)
    cases range with
    | year | yearToMonth =>
      simpa [Atom.phrase, YearMonth.phrase, AtomPhrase.meaning?, parameter?, hnum] using hmake
    | month =>
      obtain rfl : Parameter.yearPrecision.omitted = n := by
        simpa [Atom.normalized, YearMonth.hasYear] using hn
      exact hmake
  | dayTime range d f =>
    obtain ⟨hd, hf⟩ := Parameter.check_bind_eq_ok_iff.1 hc
    simp only [Atom.normalized, Atom.dayTime.injEq, true_and] at hn
    have hday : range.hasDay = false → d = Parameter.dayPrecision.omitted := by
      intro hu
      simp only [hu, Bool.false_eq_true, if_false] at hn
      exact hn.1.symm
    have hfraction : range.hasFraction = false → f = Parameter.fractionPrecision.omitted := by
      intro hu
      simp only [hu, Bool.false_eq_true, if_false] at hn
      exact hn.2.symm
    have hd := precision?_repr hd.le_largest hday
    have hf := precision?_repr (Parameter.le_of_check hf) hfraction
    simpa [Atom.phrase, AtomPhrase.meaning?, hd, hf] using hmake
  | raw r =>
    have hr := hk.raw r (by simp [DataType.atoms_atom])
    simpa [Atom.phrase, AtomPhrase.meaning?, hr, Except.toOption] using hmake
  | legacy f p =>
    have hr := hk.legacy f p (by simp [DataType.atoms_atom])
    simp [Atom.phrase, AtomPhrase.meaning?, Family.ofName?_name, hr, Except.toOption,
      DataType.legacy]
  | unresolved name => exact name.meaning?_phrase.trans hmake

section

variable {atom : Atom → AtomPhrase} {f : Atom → Atom}

theorem membersType?_phrase {g : DataType → Phrase} {h : DataType → DataType} :
    ∀ {members : List (Member DataType)},
      (∀ m ∈ members, (g m.type).type? loader false = some (h m.type)) →
        Phrase.membersType? loader false ((members.map (·.map g)).map Member.phrase) =
          some (members.map (·.map h))
  | [], _ => rfl
  | ⟨n, t, d⟩ :: members, hall => by
    obtain ⟨hm, hms⟩ := List.forall_mem_cons.1 hall
    have ih := membersType?_phrase hms
    rw [List.map_cons, List.map_cons, Member.map, Member.phrase, Phrase.membersType?, hm, ih]
    rfl

theorem Shape.check_mapParts {σ τ : Type} (g : σ → τ) (s : Shape σ) :
    (s.mapParts g).check = s.check := by
  cases s <;> simp [mapParts, check, Member.map, Function.comp_def]

theorem Shape.baseType?_phraseWith {s : Shape DataType} (hc : s.check = .ok ())
    (hatom : ∀ a, s = .atom a → (atom a).meaning? loader = some { shape := .atom (f a) })
    (ih : ∀ u ∈ s.parts, (u.phraseWith atom).type? loader false = some (u.mapAtoms f)) :
    Phrase.baseType? loader false ((s.mapParts (DataType.phraseWith atom)).phraseWith atom) =
      some { shape := (s.mapParts (DataType.mapAtoms f)).mapAtom f } := by
  have hcheck := hc ▸ s.check_mapParts (DataType.mapAtoms f)
  cases s with
  | atom a => exact hatom a rfl
  | collection c e =>
    simpa [mapParts, mapAtom, Shape.phraseWith, Phrase.baseType?, ih e (by simp [parts])]
      using make?_self rfl hcheck
  | map k v =>
    simpa [mapParts, mapAtom, Shape.phraseWith, Phrase.baseType?, ih k (by simp [parts]),
      ih v (by simp [parts])] using make?_self rfl hcheck
  | row ms | structured _ ms =>
    have hms := membersType?_phrase fun m hm => ih m.type (List.mem_map_of_mem hm)
    simp only [mapParts, Shape.phraseWith, Phrase.baseType?, hms]
    exact make?_self rfl hcheck

namespace DataType

/-- The phrase of a valid type is read as the type with its atoms as theirs are read. -/
theorem reading?_phraseWith (hnull : ∀ a, f a = .plain .null → a = .plain .null) :
    ∀ {t : DataType}, t.Valid →
      (∀ a ∈ t.atoms, a.normalized = a → a.check = .ok () →
        (atom a).meaning? loader = some { shape := .atom (f a) }) →
      (t.phraseWith atom).reading? loader = some (t.mapAtoms f) := by
  intro t hv
  induction hv with
  | @intro t hnode hparts ih =>
    intro hatom
    obtain ⟨s, nullable⟩ := t
    have hbase : Phrase.baseType? loader false ((s.mapParts (phraseWith atom)).phraseWith atom) =
        some { shape := (s.mapParts (mapAtoms f)).mapAtom f } := by
      refine Shape.baseType?_phraseWith hnode.check ?_ fun u hu =>
        ih u hu fun a ha => hatom a (mem_atoms_of_mem_parts hu ha)
      rintro a rfl
      have hn : a.normalized = a := by simpa [Shape.normalized] using hnode.normalized
      exact hatom a (by simp [atoms_atom]) hn hnode.check
    rw [Phrase.reading?, phraseWith_mk, mapAtoms_mk, Phrase.type?, hbase]
    cases nullable with
    | true => rfl
    | false =>
      have hmark : withNullability { shape := (s.mapParts (mapAtoms f)).mapAtom f } false =
          .ok { shape := (s.mapParts (mapAtoms f)).mapAtom f, nullable := false } := by
        refine withNullability_eq_ok_iff.2 ⟨rfl, fun hshape => ?_⟩
        cases s with
        | atom a => exact hnode.nullable (congrArg Shape.atom (hnull a (Shape.atom.inj hshape)))
        | collection | map | row | structured => cases hshape
      simp [Nullability.mark?, hmark, Except.toOption, wrap?]

/-- The phrase of the canonical spelling of a valid type is read as this type. -/
theorem reading?_phrase {t : DataType} (ht : t.Valid) (hk : loader.Knows t) :
    t.phrase.reading? loader = some t := by
  have hread : t.phrase.reading? loader = some (t.mapAtoms id) :=
    reading?_phraseWith (fun _ h => h) ht fun a ha hn hc => a.meaning?_phrase hn hc (hk.atom ha)
  have hid : t.mapAtoms id = t := t.mapAtoms_eq_self fun _ _ => rfl
  rwa [hid] at hread

end DataType

end

/-- The canonical text of a type that can be made is parsed as this type, by a loader that answers
for its raw and legacy types with these types themselves, and the parser nests as deep as the type.
-/
theorem parse_canonical {context : Context} {t : DataType} (ht : t.Obtainable)
    (hraw : ∀ r, .raw r ∈ t.atoms → context.loader.restore r.className r.snapshot = .ok r)
    (hlegacy : ∀ f p, .legacy f p ∈ t.atoms → context.loader.resolve f p = .ok (.legacy f p))
    (hlen : t.canonical.utf8ByteSize ≤ context.limits.maxInputLength)
    (hdepth : t.depth ≤ context.limits.maxNestingDepth) :
    parse context t.canonical = .ok t ∧
      (Parser.start context t.canonical).parse.2.maxDepth = t.depth := by
  have hread := DataType.reading?_phrase ht.valid ⟨hraw, hlegacy⟩
  rw [← t.height_phrase] at hdepth ⊢
  rw [parse_eq hlen]
  rcases Parser.parse_phrase t.tokensOf_canonical hdepth with ⟨u, hu, hparse, hmax⟩ | ⟨hnone, -⟩
  · obtain rfl : u = t := Option.some.inj (hu.symm.trans hread)
    exact ⟨hparse, hmax⟩
  · rw [hread] at hnone
    cases hnone

/-- ``ROW<`a``` ARRAY<RAW('it''s', '')> NOT NULL 'b', `ü` LEGACY('CHAR', 'x') NOT NULL>`` -/
def mixedRow : DataType :=
  let raw : DataType := { shape := .atom (.raw ⟨"it's", ""⟩) }
  let array : DataType := { shape := .collection .array raw, nullable := false }
  let legacy : DataType := { DataType.legacy .char "x" with nullable := false }
  { shape := .row [⟨"a`", array, some "b"⟩, ⟨"ü", legacy, none⟩] }

theorem parse_canonical_mixedRow :
    parse { loader := .verbatim } mixedRow.canonical = .ok mixedRow ∧
      (Parser.start { loader := .verbatim } mixedRow.canonical).parse.2.maxDepth = 3 := by
  have leaf : ∀ a n, a.normalized = a → a.check = .ok () → a ≠ .plain .null →
      DataType.Valid ⟨.atom a, n⟩ := fun a n hn hc hne =>
    .intro ⟨by simp [Shape.normalized, hn], hc, by simp [hne]⟩ (by simp [Shape.parts])
  have hvalid : mixedRow.Valid := by
    have hraw := leaf (.raw ⟨"it's", ""⟩) true rfl rfl (by simp)
    have hlegacy := leaf (.legacy .char "x") false rfl rfl (by simp)
    refine .intro ⟨rfl, by decide +kernel, by simp [mixedRow]⟩ ?_
    simp only [mixedRow, Shape.parts, List.map_cons, List.map_nil, List.forall_mem_cons]
    refine ⟨.intro ⟨rfl, rfl, by simp⟩ ?_, hlegacy, by simp⟩
    simpa [Shape.parts] using hraw
  exact parse_canonical hvalid.obtainable (fun _ _ => rfl) (fun _ _ _ => rfl) (by decide +kernel)
    (by decide +kernel)

end SqlTypes
