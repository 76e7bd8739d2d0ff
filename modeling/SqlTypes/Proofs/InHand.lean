import SqlTypes.Proofs.Canonical
import SqlTypes.Proofs.MemberNames

/-!
# Types in hand

Types come into hand by making them of others, with or without a check, by changing nullability, by
taking others apart, and by reading texts, with loaders that answer with types in hand (`InHand`).
However it has come there, a type in hand is well-formed at every node (`DataType.WellFormed`), and
to make a type of its shape once more gives the same type (`inHand_wellFormed`).
-/

namespace SqlTypes

/-- All parameters are in range, and those that an interval does not use have their defaults. -/
def Atom.WellFormed : Atom → Prop
  | .plain _ | .legacy .. => True
  | .sized _ length => 1 ≤ length ∧ length ≤ 2147483647
  | .decimal precision scale => 1 ≤ precision ∧ precision ≤ 38 ∧ scale ≤ precision
  | .temporal _ precision => precision ≤ 9
  | .yearMonth range years => (1 ≤ years ∧ years ≤ 4) ∧ (range.hasYear = false → years = 2)
  | .dayTime range days fraction =>
    ((1 ≤ days ∧ days ≤ 6) ∧ (range.hasDay = false → days = 2)) ∧
      fraction ≤ 9 ∧ (range.hasFraction = false → fraction = 6)
  | .raw r => r.className ≠ ""
  | .unresolved name =>
    (1 ≤ name.segments.length ∧ name.segments.length ≤ 3) ∧ ∀ s ∈ name.segments, s ≠ ""

/-- The outermost layer of a type is as it must be, whatever the types in it. -/
def DataType.WellFormed (t : DataType) : Prop :=
  match t.shape with
  | .atom a => a.WellFormed ∧ (a = .plain .null → t.nullable = true)
  | .collection .. | .map .. => True
  | .row fields => ProperNames (fields.map (·.name))
  | .structured className attributes =>
    className ≠ "" ∧ ProperNames (attributes.map (·.name))

theorem Atom.normalized_check_iff {a : Atom} :
    a.normalized = a ∧ a.check = .ok () ↔ a.WellFormed := by
  cases a with
  | plain | legacy => exact iff_of_true ⟨rfl, rfl⟩ trivial
  | sized s length =>
    simp [normalized, check, WellFormed, Parameter.check_eq_ok_iff, Parameter.InRange,
      Parameter.least, Parameter.greatest]
  | decimal precision scale =>
    simp [normalized, check, WellFormed, Parameter.check_bind_eq_ok_iff, Parameter.InRange,
      Parameter.least, Parameter.greatest, and_assoc]
  | temporal t precision =>
    simp [normalized, check, WellFormed, Parameter.check_eq_ok_iff, Parameter.InRange,
      Parameter.least, Parameter.greatest]
  | yearMonth range years =>
    cases range <;> simp [normalized, check, WellFormed, Parameter.check_eq_ok_iff,
      Parameter.InRange, Parameter.least, Parameter.greatest, Parameter.omitted, YearMonth.hasYear]
    omega
  | dayTime range days fraction =>
    simp only [normalized, check, WellFormed, Parameter.check_bind_eq_ok_iff,
      Parameter.check_eq_ok_iff, Parameter.InRange, Parameter.least, Parameter.greatest,
      Parameter.omitted, dayTime.injEq]
    cases range.hasDay <;> cases range.hasFraction <;> simp <;> omega
  | raw r => simp [normalized, check, WellFormed]
  | unresolved name =>
    have hpos := List.length_pos_iff.2 name.ne_nil
    exact iff_of_true ⟨rfl, rfl⟩ ⟨⟨hpos, name.length_le⟩, name.ne_empty⟩

namespace DataType

variable {t u : DataType} {s : Shape DataType} {loader : Loader} {heeded : Bool}

/-- A node is well-formed just if it is as `DataType.new` and `withNullability` leave it. -/
theorem validNode_iff : ValidNode t ↔ t.WellFormed := by
  obtain ⟨s, n⟩ := t
  have hvalid : ValidNode ⟨s, n⟩ ↔
      s.normalized = s ∧ s.check = .ok () ∧ (s = .atom (.plain .null) → n = true) :=
    ⟨fun h => ⟨h.1, h.2, h.3⟩, fun h => ⟨h.1, h.2.1, h.2.2⟩⟩
  rw [hvalid]
  cases s with
  | atom a =>
    simp only [Shape.normalized, Shape.check, Shape.atom.injEq, WellFormed]
    rw [← and_assoc, Atom.normalized_check_iff]
  | collection | map => simp [Shape.normalized, Shape.check, WellFormed]
  | row fields => simp [Shape.normalized, Shape.check, WellFormed, checkNames_eq_ok_iff]
  | structured className attributes =>
    simp only [Shape.normalized, Shape.check, WellFormed]
    by_cases hc : className = "" <;> simp [hc, checkNames_eq_ok_iff]

/-- A valid type is valid at every node of its outline. -/
theorem Valid.validNode (h : Valid t) : ∀ e ∈ t.outline, ValidNode e.2 := by
  induction h with
  | @intro t hnode _ ih =>
    intro e he
    rw [outline_eq, List.mem_cons, List.mem_flatMap] at he
    rcases he with rfl | ⟨u, hu, he⟩
    · exact hnode
    · obtain ⟨e', he', rfl⟩ := List.mem_map.1 he
      exact ih u hu e' he'

theorem valid_of_make? (hparts : ∀ u ∈ s.parts, Valid u) (h : Grammar.make? s = some t) :
    Valid t := by
  obtain ⟨hcheck, rfl⟩ := Grammar.make?_eq_some_iff.1 h
  exact .intro ⟨s.normalized_normalized, hcheck, fun _ => rfl⟩ (s.parts_normalized ▸ hparts)

theorem Valid.withNullability {nullable : Bool} (ht : Valid t)
    (h : t.withNullability nullable = .ok u) : Valid u :=
  (Obtainable.withNullability ht.obtainable h).valid

theorem Valid.mark? {n : Grammar.Nullability} (ht : Valid t) (h : n.mark? heeded t = some u) :
    Valid u := by
  have marked : ∀ nullable, (t.withNullability nullable).toOption = some u → Valid u := by
    intro nullable h
    cases hw : t.withNullability nullable with
    | ok v =>
      rw [hw] at h
      cases h
      exact ht.withNullability hw
    | error e => simp [hw, Except.toOption] at h
  cases n with
  | unmarked =>
    cases h
    exact ht
  | null =>
    rw [Grammar.Nullability.mark?] at h
    split_ifs at h
    · exact marked true h
    · cases h
      exact ht
  | notNull => exact marked false h

theorem Valid.wrap? : ∀ {ws t u}, Valid t → Grammar.wrap? heeded t ws = some u → Valid u
  | [], t, u, ht, h => by
    cases h
    exact ht
  | (c, n) :: ws, t, u, ht, h => by
    obtain ⟨t₁, h₁, h⟩ := Grammar.Phrase.wrap?_cons h
    have hwrapped : Valid { shape := .collection c t } :=
      .intro ⟨rfl, rfl, nofun⟩ (by simpa [Shape.parts] using ht)
    exact (hwrapped.mark? h₁).wrap? h

end DataType

namespace Grammar

open DataType (Valid)

variable {loader : Loader} {heeded : Bool} {t u : DataType}

theorem AtomPhrase.valid_of_meaning?
    (hloader : ∀ f payload u, loader.resolve f payload = .ok u → Valid u) {a : AtomPhrase}
    (h : a.meaning? loader = some t) : Valid t := by
  have made : ∀ {x : Atom}, make? (.atom x) = some t → Valid t :=
    fun hm => DataType.valid_of_make? (by simp [Shape.parts]) hm
  cases a with
  | plain | integer | doublePrecision | string | bytes | decimal | months => exact made h
  | sized | time | timestamp | localZonedTimestamp | years | raw | name | nameIn | nameInIn =>
    obtain ⟨_, -, h⟩ := Option.bind_eq_some_iff.1 h
    exact made h
  | decimalOf | dayTime =>
    obtain ⟨_, -, h⟩ := Option.bind_eq_some_iff.1 h
    obtain ⟨_, -, h⟩ := Option.bind_eq_some_iff.1 h
    exact made h
  | legacy family payload =>
    obtain ⟨f, -, h⟩ := Option.bind_eq_some_iff.1 h
    cases hr : loader.resolve f payload with
    | ok u =>
      rw [hr] at h
      cases h
      exact hloader f payload _ hr
    | error e => simp [hr, Except.toOption] at h

namespace Phrase

theorem forall_of_forall₂ {α β : Type} {R : α → β → Prop} {P : β → Prop} {as : List α} {bs : List β}
    (h : List.Forall₂ R as bs) (hP : ∀ a ∈ as, ∀ b, R a b → P b) : ∀ b ∈ bs, P b := by
  intro b hb
  obtain ⟨a, ha, hab⟩ := exists_of_forall₂ h hb
  exact hP a ha b hab

/-- What is read of types that are valid is valid. -/
theorem valid_of_baseType?
    (hloader : ∀ f payload u, loader.resolve f payload = .ok u → Valid u) {b : BasePhrase Phrase}
    (hparts : ∀ p ∈ b.parts, ∀ u, p.type? loader heeded = some u → Valid u)
    (h : baseType? loader heeded b = some t) : Valid t := by
  cases b with
  | atom a => exact a.valid_of_meaning? hloader h
  | collection c e =>
    obtain ⟨u, hu, h⟩ := Option.bind_eq_some_iff.1 h
    have hu := hparts e (by simp [BasePhrase.parts]) u hu
    exact DataType.valid_of_make? (by simpa [Shape.parts] using hu) h
  | map k v =>
    obtain ⟨u, hu, h⟩ := Option.bind_eq_some_iff.1 h
    obtain ⟨w, hw, h⟩ := Option.bind_eq_some_iff.1 h
    have hu := hparts k (by simp [BasePhrase.parts]) u hu
    have hw := hparts v (by simp [BasePhrase.parts]) w hw
    exact DataType.valid_of_make? (by simpa [Shape.parts] using ⟨hu, hw⟩) h
  | row round qs =>
    obtain ⟨ms, hms, h⟩ := Option.bind_eq_some_iff.1 h
    exact DataType.valid_of_make? (s := .row ms) (forall_of_forall₂ (forall₂_types hms) hparts) h
  | structured className qs =>
    obtain ⟨ms, hms, h⟩ := Option.bind_eq_some_iff.1 h
    exact DataType.valid_of_make? (s := .structured className ms)
      (forall_of_forall₂ (forall₂_types hms) hparts) h

theorem valid_of_type? (hloader : ∀ f payload u, loader.resolve f payload = .ok u → Valid u) :
    ∀ (p : Phrase) (t : DataType), p.type? loader heeded = some t → Valid t :=
  forall_of_parts fun b n ws ih t h => by
    obtain ⟨t₁, t₂, h₁, h₂, h₃⟩ := type?_mk h
    exact ((valid_of_baseType? hloader ih h₁).mark? h₂).wrap? h₃

end Phrase

end Grammar

/-- Shapes of which types are made without a check. -/
inductive Shape.Unbounded {τ : Type} : Shape τ → Prop where
  | plain (p : Plain) : Unbounded (.atom (.plain p))
  /-- `STRING` -/
  | string : Unbounded (.atom (.sized .varchar (Parameter.length .varchar).greatest))
  /-- `BYTES` -/
  | bytes : Unbounded (.atom (.sized .varbinary (Parameter.length .varbinary).greatest))
  | legacy (family : Family) (payload : String) : Unbounded (.atom (.legacy family payload))
  | unresolved {segments : List String} {name : QualifiedName} :
    QualifiedName.ofSegments segments = .ok name → Unbounded (.atom (.unresolved name))
  | collection (c : Collection) (element : τ) : Unbounded (.collection c element)
  | map (key value : τ) : Unbounded (.map key value)

/-- The types that come into hand, by whatever operations one after the other. A text may be read
with loaders that answer with types in hand, and a parser may be asked wherever it stands. -/
inductive InHand : DataType → Prop where
  | new {s : Shape DataType} {t : DataType} :
    (∀ u ∈ s.parts, InHand u) → DataType.new s = .ok t → InHand t
  | unchecked {s : Shape DataType} : s.Unbounded → (∀ u ∈ s.parts, InHand u) → InHand { shape := s }
  | withNullability {t u : DataType} {nullable : Bool} :
    InHand t → t.withNullability nullable = .ok u → InHand u
  | part {t u : DataType} : InHand t → u ∈ t.children → InHand u
  | parse {context : Context} {input : String} {t : DataType} :
    (∀ f payload u, context.loader.resolve f payload = .ok u → InHand u) →
      parse context input = .ok t → InHand t
  | parser {p : Parser} {t : DataType} :
    (∀ f payload u, p.context.loader.resolve f payload = .ok u → InHand u) →
      p.parse.1 = .ok t → InHand t

variable {s : Shape DataType} {t : DataType}

/-- What is made without a check would pass it. -/
theorem Shape.Unbounded.new_eq (h : s.Unbounded) : DataType.new s = .ok { shape := s } := by
  rw [DataType.new_eq_ok_iff]
  cases h <;> exact ⟨rfl, rfl⟩

theorem Parser.valid_of_parse {p : Parser}
    (hloader : ∀ f payload u, p.context.loader.resolve f payload = .ok u → u.Valid)
    (h : p.parse.1 = .ok t) : t.Valid := by
  rw [parse] at h
  split at h
  · rename_i u cursor hr
    cases h
    obtain ⟨q, -, hread, -⟩ := Reading.description_passes hr
    exact q.valid_of_type? hloader t hread
  · cases h

/-- Every operation makes valid types of valid types. -/
theorem InHand.valid (h : InHand t) : t.Valid := by
  induction h with
  | new _ hnew ih => exact (DataType.Obtainable.new (fun u hu => (ih u hu).obtainable) hnew).valid
  | unchecked hs _ ih =>
    exact (DataType.Obtainable.new (fun u hu => (ih u hu).obtainable) hs.new_eq).valid
  | withNullability _ h ih => exact ih.withNullability h
  | part _ hu ih =>
    obtain ⟨-, hparts⟩ := ih
    exact hparts _ hu
  | @parse context input t _ h ih =>
    obtain ⟨q, hq⟩ := parse_start_of_parse h
    exact Parser.valid_of_parse (p := .start context input) ih (congrArg Prod.fst hq)
  | parser _ h ih => exact Parser.valid_of_parse ih h

/-- A type in hand is well-formed at every node, and is made of its shape once more, up to the
nullability of the type itself. -/
theorem inHand_wellFormed (h : InHand t) :
    (∀ level node, (level, node) ∈ t.outline → node.WellFormed) ∧
      DataType.new t.shape = .ok { t with nullable := true } := by
  have hvalid := h.valid
  constructor
  · intro level node hmem
    exact DataType.validNode_iff.1 (hvalid.validNode _ hmem)
  · obtain ⟨hnode, -⟩ := hvalid
    rw [DataType.new_eq_ok_iff, hnode.normalized]
    exact ⟨hnode.check, rfl⟩

/-- Read where a legacy type stands for `INT NOT NULL`. -/
def arrayOfLegacyInt : DataType :=
  let notNull : DataType := { shape := .atom (.plain .int), nullable := false }
  { shape := .collection .array notNull, nullable := false }

theorem inHand_arrayOfLegacyInt :
    InHand arrayOfLegacyInt ∧
      (∀ level node, (level, node) ∈ arrayOfLegacyInt.outline → node.WellFormed) ∧
      DataType.new arrayOfLegacyInt.shape = .ok { arrayOfLegacyInt with nullable := true } := by
  have hint : InHand { shape := .atom (.plain .int), nullable := false } :=
    .withNullability (.unchecked (.plain .int) nofun) rfl
  have hloader : ∀ f payload u, legacyInt.loader.resolve f payload = .ok u → InHand u := by
    intro f payload u hu
    simp only [legacyInt, Registry.loader, Registry.resolve, Registry.registerLegacy,
      Registry.empty, List.lookup_cons] at hu
    cases hkey : (f, payload) == (Family.char, "x") <;> rw [hkey] at hu <;> cases hu
    exact hint
  have hparse : parse legacyInt "ARRAY<LEGACY('CHAR', 'x')> NOT NULL" = .ok arrayOfLegacyInt := by
    decide +kernel
  have h : InHand arrayOfLegacyInt := .parse hloader hparse
  exact ⟨h, inHand_wellFormed h⟩

end SqlTypes
