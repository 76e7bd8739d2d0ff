import Mathlib.Data.List.Forall2
import SqlTypes.Proofs.Phrases
import SqlTypes.Proofs.Validity

/-!
# What phrases mean

The type of a phrase has the types of the phrases in it as its parts, and nests as deep as the
phrase unless a legacy type is in it (`depth_of_type?`). Heeding an explicit `NULL` or passing over
it gives a type for the same phrases (`type?_exists`), and the same type just where no `NULL` stands
behind a legacy type that is not nullable (`meaning?_eq_iff`).
-/

namespace SqlTypes

theorem DataType.depth_eq (t : DataType) : t.depth = (t.shape.parts.map depth).foldr max 0 + 1 := by
  obtain ⟨s, n⟩ := t
  rw [depth, fold_mk, Shape.parts_mapParts]
  rfl

namespace Grammar

variable {loader : Loader} {heeded heeded' : Bool} {t u : DataType} {s : Shape DataType}

theorem make?_eq_some_iff :
    make? s = some t ↔ s.normalized.check = .ok () ∧ t = { shape := s.normalized } := by
  rw [← DataType.new_eq_ok_iff, make?]
  cases DataType.new s <;> simp [Except.toOption]

/-- A base of a legacy type. -/
def AtomPhrase.IsLegacy : AtomPhrase → Prop
  | .legacy .. => True
  | _ => False

/-- Other atoms than legacy types mean nullable atoms. -/
theorem AtomPhrase.meaning?_of_not_isLegacy {a : AtomPhrase} (ha : ¬ a.IsLegacy)
    (h : a.meaning? loader = some t) : ∃ x : Atom, t = { shape := .atom x } := by
  have made : ∀ {x : Atom}, make? (.atom x) = some t → ∃ x : Atom, t = { shape := .atom x } :=
    fun hm => ⟨_, (make?_eq_some_iff.1 hm).2⟩
  cases a with
  | plain | integer | doublePrecision | string | bytes | decimal | months => exact made h
  | sized | time | timestamp | localZonedTimestamp | years | raw | name | nameIn | nameInIn =>
    obtain ⟨_, -, h⟩ := Option.bind_eq_some_iff.1 h
    exact made h
  | decimalOf | dayTime =>
    obtain ⟨_, -, h⟩ := Option.bind_eq_some_iff.1 h
    obtain ⟨_, -, h⟩ := Option.bind_eq_some_iff.1 h
    exact made h
  | legacy => exact absurd trivial ha

theorem mark?_eq_some {n : Nullability} (h : n.mark? heeded t = some u) :
    u.shape = t.shape ∧ (n = .notNull → u.nullable = false) ∧
      (n ≠ .notNull → t.nullable = true → u = t) := by
  cases n with
  | unmarked => simp_all [Nullability.mark?]
  | null =>
    cases heeded <;> simp [Nullability.mark?, DataType.withNullability, Except.toOption] at h <;>
    · subst h
      obtain ⟨s, n⟩ := t
      simp_all
  | notNull =>
    rw [Nullability.mark?, DataType.withNullability] at h
    split_ifs at h
    · cases h
    · cases h
      simp

namespace Phrase

theorem forall₂_of_membersType? : ∀ {qs : List (MemberPhrase Phrase)} {ms : List (Member DataType)},
    membersType? loader heeded qs = some ms →
      List.Forall₂ (fun q m => q.type.type? loader heeded = some m.type ∧ m.name = q.name.text ∧
        m.description = q.description) qs ms
  | [], ms, h => by
    cases h
    exact .nil
  | ⟨n, p, d⟩ :: qs, ms, h => by
    obtain ⟨t, ht, h⟩ := Option.bind_eq_some_iff.1 h
    obtain ⟨us, hus, h⟩ := Option.bind_eq_some_iff.1 h
    cases h
    exact .cons ⟨ht, rfl, rfl⟩ (forall₂_of_membersType? hus)

/-- The parts of the type are the types of the parts. -/
def PartsRead (loader : Loader) (heeded : Bool) (b : BasePhrase Phrase) (t : DataType) : Prop :=
  List.Forall₂ (fun p u => p.type? loader heeded = some u) b.parts t.shape.parts

theorem forall₂_types {qs : List (MemberPhrase Phrase)} {ms : List (Member DataType)}
    (h : membersType? loader heeded qs = some ms) :
    List.Forall₂ (fun p u => Phrase.type? loader heeded p = some u) (qs.map (·.type))
      (ms.map (·.type)) := by
  rw [List.forall₂_map_left_iff, List.forall₂_map_right_iff]
  exact (forall₂_of_membersType? h).imp fun _ _ h => h.1

theorem exists_of_forall₂ {α β : Type} {R : α → β → Prop} {as : List α} {bs : List β} {b : β}
    (h : List.Forall₂ R as bs) (hb : b ∈ bs) : ∃ a ∈ as, R a b := by
  induction h with
  | nil => nomatch hb
  | @cons a _ _ _ hab _ ih =>
    rcases List.mem_cons.1 hb with rfl | hb
    · exact ⟨a, List.mem_cons_self, hab⟩
    · obtain ⟨a', ha', hab'⟩ := ih hb
      exact ⟨a', List.mem_cons_of_mem a ha', hab'⟩

/-- A base is an atom, or it makes a nullable type that is none, out of those in it. -/
theorem baseType?_cases {b : BasePhrase Phrase} (h : baseType? loader heeded b = some t) :
    (∃ a, b = .atom a ∧ a.meaning? loader = some t) ∨
      (t.nullable = true ∧ (∀ x, t.shape ≠ .atom x) ∧ PartsRead loader heeded b t) := by
  cases b with
  | atom a => exact .inl ⟨a, rfl, h⟩
  | collection c e =>
    obtain ⟨u, hu, h⟩ := Option.bind_eq_some_iff.1 h
    obtain ⟨-, rfl⟩ := make?_eq_some_iff.1 h
    exact .inr ⟨rfl, by simp [Shape.normalized], .cons hu .nil⟩
  | map k v =>
    obtain ⟨u, hu, h⟩ := Option.bind_eq_some_iff.1 h
    obtain ⟨w, hw, h⟩ := Option.bind_eq_some_iff.1 h
    obtain ⟨-, rfl⟩ := make?_eq_some_iff.1 h
    exact .inr ⟨rfl, by simp [Shape.normalized], .cons hu (.cons hw .nil)⟩
  | row round qs =>
    obtain ⟨ms, hms, h⟩ := Option.bind_eq_some_iff.1 h
    obtain ⟨-, rfl⟩ := make?_eq_some_iff.1 h
    exact .inr ⟨rfl, by simp [Shape.normalized], forall₂_types hms⟩
  | structured className qs =>
    obtain ⟨ms, hms, h⟩ := Option.bind_eq_some_iff.1 h
    obtain ⟨-, rfl⟩ := make?_eq_some_iff.1 h
    exact .inr ⟨rfl, by simp [Shape.normalized], forall₂_types hms⟩

theorem type?_mk {b n ws} (h : type? loader heeded ⟨b, n, ws⟩ = some t) :
    ∃ t₁ t₂, baseType? loader heeded b = some t₁ ∧ n.mark? heeded t₁ = some t₂ ∧
      wrap? heeded t₂ ws = some t := by
  obtain ⟨t₁, h₁, h⟩ := Option.bind_eq_some_iff.1 h
  obtain ⟨t₂, h₂, h⟩ := Option.bind_eq_some_iff.1 h
  exact ⟨t₁, t₂, h₁, h₂, h⟩

theorem wrap?_cons {c : Collection} {n : Nullability} {ws}
    (h : wrap? heeded t ((c, n) :: ws) = some u) :
    ∃ t₁, n.mark? heeded { shape := .collection c t } = some t₁ ∧ wrap? heeded t₁ ws = some u :=
  Option.bind_eq_some_iff.1 h

theorem map_eq_map_of_forall₂ {α β γ : Type} {R : α → β → Prop} {f : α → γ} {g : β → γ}
    {as : List α} {bs : List β} (h : List.Forall₂ R as bs)
    (hfg : ∀ a ∈ as, ∀ b, R a b → f a = g b) : as.map f = bs.map g := by
  induction h with
  | nil => rfl
  | cons hab _ ih =>
    rw [List.map_cons, List.map_cons, hfg _ (by simp) _ hab, ih fun a ha => hfg a (by simp [ha])]

theorem depth_of_shape (h : u.shape = t.shape) : u.depth = t.depth := by
  rw [DataType.depth_eq, DataType.depth_eq, h]

theorem depth_of_wrap? : ∀ {ws t u}, wrap? heeded t ws = some u → u.depth = t.depth + ws.length
  | [], t, u, h => by
    cases h
    rfl
  | (c, n) :: ws, t, u, h => by
    obtain ⟨t₁, h₁, h⟩ := wrap?_cons h
    have hd : t₁.depth = t.depth + 1 := by
      rw [depth_of_shape (mark?_eq_some h₁).1, DataType.depth_eq]
      simp [Shape.parts]
    rw [depth_of_wrap? h, hd, List.length_cons]
    omega

theorem mem_tokens_of_isLegacy {a : AtomPhrase} (ha : a.IsLegacy) :
    .keyword .legacy ∈ a.tokens := by
  cases a with
  | legacy => simp [AtomPhrase.tokens]
  | _ => exact ha.elim

/-- Without a legacy type in it, the type nests as deep as the phrase. -/
theorem depth_of_type? : ∀ (p : Phrase) {t : DataType}, .keyword .legacy ∉ p.tokens →
    p.type? loader heeded = some t → t.depth = p.depth :=
  forall_of_parts fun b n ws ih t hno h => by
    obtain ⟨t₁, t₂, h₁, h₂, h⟩ := type?_mk h
    have hb : .keyword .legacy ∉ baseTokens b := by
      simp only [tokens, List.mem_append, not_or] at hno
      exact hno.1.1
    have hd : t₁.depth = (b.parts.map depth).foldr max 0 + 1 := by
      rcases baseType?_cases h₁ with ⟨a, rfl, ha⟩ | ⟨-, -, hparts⟩
      · obtain ⟨x, rfl⟩ := a.meaning?_of_not_isLegacy (fun hl => hb (mem_tokens_of_isLegacy hl)) ha
        rw [DataType.depth_eq]
        rfl
      · rw [DataType.depth_eq, map_eq_map_of_forall₂ hparts fun p hp u hu => (ih p hp ?_ hu).symm]
        exact fun hl => hb (List.mem_of_mem_tail ((sublist_baseTokens hp).subset hl))
    rw [depth_of_wrap? h, depth_of_shape (mark?_eq_some h₂).1, hd, depth_mk]
    omega

/-! ## Heeding `NULL` or not -/

/-- No `NULL` stands behind a legacy type that is not nullable. -/
inductive NullsHeeded (loader : Loader) : Phrase → Prop where
  | intro {b n ws} : (∀ p ∈ BasePhrase.parts b, NullsHeeded loader p) →
      (n = .null → ∀ a t, b = .atom a → a.IsLegacy → a.meaning? loader = some t →
        t.nullable = true) →
      NullsHeeded loader ⟨b, n, ws⟩

theorem mark?_exists {n : Nullability} {t' : DataType} (h : n.mark? heeded t = some t')
    (hu : u.shape = .atom (.plain .null) → t.shape = .atom (.plain .null)) :
    ∃ u', n.mark? heeded' u = some u' := by
  cases n with
  | unmarked => exact ⟨u, rfl⟩
  | null =>
    cases heeded' with
    | false => exact ⟨u, rfl⟩
    | true => exact ⟨{ u with nullable := true }, by simp [Nullability.mark?,
        DataType.withNullability, Except.toOption]⟩
  | notNull =>
    rw [Nullability.mark?, DataType.withNullability] at h
    split_ifs at h with ht
    · cases h
    · refine ⟨{ u with nullable := false }, ?_⟩
      rw [Nullability.mark?, DataType.withNullability,
        if_neg fun hn => ht ⟨hu hn.1, rfl⟩]
      rfl

theorem wrap?_exists : ∀ ws t, ∃ u, wrap? heeded t ws = some u
  | [], t => ⟨t, rfl⟩
  | (c, n) :: ws, t => by
    have hn : ∃ t₁, n.mark? heeded { shape := .collection c t } = some t₁ := by
      cases n <;> cases heeded <;>
        simp [Nullability.mark?, DataType.withNullability, Except.toOption]
    obtain ⟨t₁, h₁⟩ := hn
    obtain ⟨u, hu⟩ := wrap?_exists ws t₁
    exact ⟨u, Option.bind_eq_some_iff.2 ⟨t₁, h₁, hu⟩⟩

theorem membersType?_exists : ∀ {qs : List (MemberPhrase Phrase)} {ms : List (Member DataType)},
    (∀ q ∈ qs, ∀ {t}, q.type.type? loader heeded = some t →
      ∃ u, q.type.type? loader heeded' = some u) →
    membersType? loader heeded qs = some ms →
      ∃ us, membersType? loader heeded' qs = some us ∧ us.map (·.name) = ms.map (·.name)
  | [], ms, _, h => by
    cases h
    exact ⟨[], rfl, rfl⟩
  | ⟨n, p, d⟩ :: qs, ms, hq, h => by
    obtain ⟨t, ht, h⟩ := Option.bind_eq_some_iff.1 h
    obtain ⟨ms, hms, h⟩ := Option.bind_eq_some_iff.1 h
    cases h
    obtain ⟨u, hu⟩ := hq ⟨n, p, d⟩ (by simp) ht
    obtain ⟨us, hus, hnames⟩ := membersType?_exists (fun q hq' => hq q (by simp [hq'])) hms
    refine ⟨⟨n.text, u, d⟩ :: us, ?_, by simp [hnames]⟩
    simp only at hu
    simp [membersType?, hu, hus]

theorem baseType?_exists {b : BasePhrase Phrase}
    (hb : ∀ p ∈ b.parts, ∀ {t}, p.type? loader heeded = some t →
      ∃ u, p.type? loader heeded' = some u)
    (h : baseType? loader heeded b = some t) :
    ∃ u, baseType? loader heeded' b = some u ∧
      (u.shape = .atom (.plain .null) → t.shape = .atom (.plain .null)) := by
  have made : ∀ {s : Shape DataType} (s' : Shape DataType), make? s = some t →
      s'.normalized.check = s.normalized.check → (∀ x, s'.normalized ≠ .atom x) →
        ∃ u, make? s' = some u ∧
          (u.shape = .atom (.plain .null) → t.shape = .atom (.plain .null)) :=
    fun _ hm hs hx => ⟨_, make?_eq_some_iff.2 ⟨hs.trans (make?_eq_some_iff.1 hm).1, rfl⟩,
      fun hn => absurd hn (hx _)⟩
  cases b with
  | atom a => exact ⟨t, h, id⟩
  | collection c e =>
    obtain ⟨t₁, h₁, h⟩ := Option.bind_eq_some_iff.1 h
    obtain ⟨u₁, hu₁⟩ := hb e (by simp [BasePhrase.parts]) h₁
    obtain ⟨u, hu, hn⟩ := made (.collection c u₁) h rfl (by simp [Shape.normalized])
    exact ⟨u, Option.bind_eq_some_iff.2 ⟨u₁, hu₁, hu⟩, hn⟩
  | map k v =>
    obtain ⟨t₁, h₁, h⟩ := Option.bind_eq_some_iff.1 h
    obtain ⟨t₂, h₂, h⟩ := Option.bind_eq_some_iff.1 h
    obtain ⟨u₁, hu₁⟩ := hb k (by simp [BasePhrase.parts]) h₁
    obtain ⟨u₂, hu₂⟩ := hb v (by simp [BasePhrase.parts]) h₂
    obtain ⟨u, hu, hn⟩ := made (.map u₁ u₂) h rfl (by simp [Shape.normalized])
    exact ⟨u, by simp [baseType?, hu₁, hu₂, hu], hn⟩
  | row round qs =>
    obtain ⟨ms, hms, h⟩ := Option.bind_eq_some_iff.1 h
    obtain ⟨us, hus, hnames⟩ := membersType?_exists
      (fun q hq => hb q.type (List.mem_map_of_mem hq)) hms
    obtain ⟨u, hu, hn⟩ := made (.row us) h (by simp [Shape.normalized, Shape.check, hnames])
      (by simp [Shape.normalized])
    exact ⟨u, by simp [baseType?, hus, hu], hn⟩
  | structured className qs =>
    obtain ⟨ms, hms, h⟩ := Option.bind_eq_some_iff.1 h
    obtain ⟨us, hus, hnames⟩ := membersType?_exists
      (fun q hq => hb q.type (List.mem_map_of_mem hq)) hms
    obtain ⟨u, hu, hn⟩ := made (.structured className us) h
      (by simp [Shape.normalized, Shape.check, hnames]) (by simp [Shape.normalized])
    exact ⟨u, by simp [baseType?, hus, hu], hn⟩

/-- Whether a phrase means a type does not depend on whether its `NULL`s are heeded. -/
theorem type?_exists : ∀ (p : Phrase) {t : DataType}, p.type? loader heeded = some t →
    ∃ u, p.type? loader heeded' = some u :=
  forall_of_parts fun b n ws ih t h => by
    obtain ⟨t₁, t₂, h₁, h₂, h⟩ := type?_mk h
    obtain ⟨u₁, hu₁, hn⟩ := baseType?_exists (fun p hp => ih p hp) h₁
    obtain ⟨u₂, hu₂⟩ : ∃ u₂, n.mark? heeded' u₁ = some u₂ := mark?_exists h₂ hn
    obtain ⟨u, hu⟩ : ∃ u, wrap? heeded' u₂ ws = some u := wrap?_exists ws u₂
    exact ⟨u, by simp [type?, hu₁, hu₂, hu]⟩

theorem mark?_congr {n : Nullability} (hn : n = .null → t.nullable = true) :
    n.mark? true t = n.mark? false t := by
  cases n with
  | unmarked | notNull => rfl
  | null =>
    obtain ⟨s, nullable⟩ := t
    obtain rfl : nullable = true := hn rfl
    simp [Nullability.mark?, DataType.withNullability, Except.toOption]

theorem wrap?_congr : ∀ ws t, wrap? true t ws = wrap? false t ws
  | [], _ => rfl
  | (c, n) :: ws, t => by
    have ih := wrap?_congr ws
    simp only [wrap?, List.foldlM_cons] at ih ⊢
    rw [mark?_congr fun _ => rfl]
    simp only [ih]

theorem membersType?_congr : ∀ {qs : List (MemberPhrase Phrase)},
    (∀ q ∈ qs, q.type.type? loader heeded = q.type.type? loader heeded') →
      membersType? loader heeded qs = membersType? loader heeded' qs
  | [], _ => rfl
  | ⟨n, p, d⟩ :: qs, h => by
    rw [membersType?, membersType?, h ⟨n, p, d⟩ (by simp),
      membersType?_congr fun q hq => h q (by simp [hq])]

theorem baseType?_congr {b : BasePhrase Phrase}
    (h : ∀ p ∈ b.parts, p.type? loader heeded = p.type? loader heeded') :
    baseType? loader heeded b = baseType? loader heeded' b := by
  cases b with
  | atom => rfl
  | collection c e => rw [baseType?, baseType?, h e (by simp [BasePhrase.parts])]
  | map k v =>
    rw [baseType?, baseType?, h k (by simp [BasePhrase.parts]), h v (by simp [BasePhrase.parts])]
  | row | structured =>
    rw [baseType?, baseType?, membersType?_congr fun q hq => h q.type (List.mem_map_of_mem hq)]

theorem NullsHeeded.meaning?_eq : ∀ (p : Phrase), p.NullsHeeded loader →
    p.meaning? loader = p.reading? loader :=
  forall_of_parts fun b n ws ih h => by
    obtain ⟨hparts, hn⟩ := h
    have hb : baseType? loader true b = baseType? loader false b :=
      baseType?_congr fun p hp => ih p hp (hparts p hp)
    rw [meaning?, reading?, type?, type?, hb]
    rcases h₁ : baseType? loader false b with _ | t₁
    · rfl
    have hmark : n = .null → t₁.nullable = true := by
      intro hnull
      rcases baseType?_cases h₁ with ⟨a, rfl, ha⟩ | ⟨ht, -, -⟩
      · by_cases hl : a.IsLegacy
        · exact hn hnull a t₁ rfl hl ha
        · obtain ⟨x, rfl⟩ := a.meaning?_of_not_isLegacy hl ha
          rfl
      · exact ht
    simp only [Option.bind_eq_bind, Option.bind_some, mark?_congr hmark, wrap?_congr]

theorem eq_of_wrap? : ∀ {ws t u t'}, wrap? true t ws = some t' → wrap? false u ws = some t' → t = u
  | [], t, u, t', ht, hu => by
    cases ht
    cases hu
    rfl
  | (c, n) :: ws, t, u, t', ht, hu => by
    obtain ⟨t₁, ht₁, ht⟩ := wrap?_cons ht
    obtain ⟨u₁, hu₁, hu⟩ := wrap?_cons hu
    have hs := (mark?_eq_some ht₁).1.symm.trans ((eq_of_wrap? ht hu) ▸ (mark?_eq_some hu₁).1)
    simpa using hs

theorem forall₂_unique {α β : Type} {R S : α → β → Prop} {as : List α} {bs : List β}
    (hR : List.Forall₂ R as bs) (hS : List.Forall₂ S as bs) :
    ∀ a ∈ as, ∃ b, R a b ∧ S a b := by
  induction hR with
  | nil => simp
  | cons hab _ ih =>
    cases hS with
    | cons hab' hS =>
      intro a ha
      rcases List.mem_cons.1 ha with rfl | ha
      · exact ⟨_, hab, hab'⟩
      · exact ih hS a ha

theorem nullsHeeded_of_eq : ∀ (p : Phrase) {t : DataType}, p.meaning? loader = some t →
    p.reading? loader = some t → p.NullsHeeded loader :=
  forall_of_parts fun b n ws ih t hm hr => by
    obtain ⟨t₁, t₂, ht₁, ht₂, ht⟩ := type?_mk hm
    obtain ⟨u₁, u₂, hu₁, hu₂, hu⟩ := type?_mk hr
    obtain rfl := eq_of_wrap? ht hu
    have hshape : t₁.shape = u₁.shape :=
      (mark?_eq_some ht₂).1.symm.trans (mark?_eq_some hu₂).1
    refine .intro (fun p hp => ?_) ?_
    · rcases baseType?_cases ht₁ with ⟨a, rfl, -⟩ | ⟨-, hx, hparts⟩
      · simp [BasePhrase.parts] at hp
      rcases baseType?_cases hu₁ with ⟨a, rfl, -⟩ | ⟨-, -, hparts'⟩
      · simp [BasePhrase.parts] at hp
      rw [PartsRead, ← hshape] at hparts'
      obtain ⟨v, hv, hv'⟩ := forall₂_unique hparts hparts' p hp
      exact ih p hp hv hv'
    · rintro rfl a u rfl - ha
      obtain rfl : u₁ = t₂ := by simpa [Nullability.mark?] using hu₂
      obtain rfl : u = u₁ := Option.some.inj (ha.symm.trans hu₁)
      have hnull : { t₁ with nullable := true } = u := by
        simpa [Nullability.mark?, DataType.withNullability, Except.toOption] using ht₂
      exact hnull ▸ rfl

/-- A phrase that is read as a type means this type just where its `NULL`s are heeded. -/
theorem meaning?_eq_iff {p : Phrase} (h : p.reading? loader = some t) :
    p.meaning? loader = some t ↔ p.NullsHeeded loader :=
  ⟨fun hm => nullsHeeded_of_eq p hm h, fun hn => (hn.meaning?_eq p).trans h⟩

end Phrase

end Grammar

end SqlTypes
