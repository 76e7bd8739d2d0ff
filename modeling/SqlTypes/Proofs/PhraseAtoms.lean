import SqlTypes.Proofs.Composition
import SqlTypes.Proofs.RoundTrip

/-!
# Atoms in a phrase

A phrase has tokens of its own that ask no loader for anything; all others are those of the atoms in
it (`Phrase.mem_tokens`). If the phrase has a type, so have these atoms, and what is not made of
other types in its type is theirs (`Phrase.mem_atoms_of_type?`).
-/

namespace SqlTypes

open Grammar

/-- Atoms that a loader answers for. -/
def Atom.isOutside : Atom → Bool
  | .raw _ | .legacy .. => true
  | _ => false

/-- Proper tokens that ask no loader. -/
def Token.isInert : Token → Bool
  | .keyword k => !k.isOutside
  | .unterminated | .stray _ => false
  | _ => true

namespace Grammar

variable {loader : Loader} {heeded : Bool} {tok : Token} {t : DataType} {x : Atom}

def AtomPhrase.isOutside : AtomPhrase → Bool
  | .raw .. | .legacy .. => true
  | _ => false

theorem AtomPhrase.all_isInert {a : AtomPhrase} (ha : a.isOutside = false) :
    a.tokens.all Token.isInert := by
  cases a with
  | plain p => cases p <;> rfl
  | integer | doublePrecision | string | bytes | months => rfl
  | sized s d => cases s <;> cases d <;> rfl
  | decimal w => cases w <;> rfl
  | decimalOf w p d => cases w <;> cases d <;> rfl
  | time d b => cases d <;> cases b <;> rfl
  | timestamp d z => cases d <;> cases z <;> rfl
  | localZonedTimestamp d => cases d <;> rfl
  | years d b => cases d <;> cases b <;> rfl
  | dayTime r d f => cases r <;> cases d <;> cases f <;> rfl
  | raw | legacy => cases ha
  | name a => cases a <;> rfl
  | nameIn b a => cases b <;> cases a <;> rfl
  | nameInIn c b a => cases c <;> cases b <;> cases a <;> rfl

/-- A token of an atom is inert, or a keyword of one that a loader answers for. -/
theorem AtomPhrase.mem_tokens {a : AtomPhrase} (h : tok ∈ a.tokens) :
    tok.isInert ∨ (∃ k, tok = .keyword k) ∧ a.isOutside = true := by
  have strings : ∀ {x y}, tok ∈ stringsTokens x y → tok.isInert :=
    fun {x y} h => List.all_eq_true.1 (show (stringsTokens x y).all Token.isInert from rfl) tok h
  by_cases ha : a.isOutside = false
  · exact .inl (List.all_eq_true.1 (all_isInert ha) tok h)
  cases a with
  | raw | legacy =>
    rcases List.mem_cons.1 h with rfl | h
    · exact .inr ⟨⟨_, rfl⟩, rfl⟩
    · exact .inl (strings h)
  | _ => exact absurd rfl ha

namespace Phrase

/-- The atom stands somewhere in the phrase. -/
inductive HasAtom (a : AtomPhrase) : Phrase → Prop where
  | base {n ws} : HasAtom a ⟨.atom a, n, ws⟩
  | inside {b n ws p} : p ∈ BasePhrase.parts b → HasAtom a p → HasAtom a ⟨b, n, ws⟩

theorem mem_membersTokens : ∀ {members : List (MemberPhrase Phrase)}, tok ∈ membersTokens members →
    tok.isInert ∨ ∃ m ∈ members, tok ∈ m.type.tokens
  | ⟨name, p, description⟩ :: members, h => by
    simp only [membersTokens, List.mem_cons, List.mem_append] at h
    rcases h with rfl | rfl | (h | h) | h
    · exact .inl rfl
    · cases name <;> exact .inl rfl
    · exact .inr ⟨_, List.mem_cons_self, h⟩
    · cases description with
      | none => cases h
      | some d =>
        obtain rfl : tok = .string d := by simpa using h
        exact .inl rfl
    · obtain h | ⟨m, hm, h⟩ := mem_membersTokens h
      · exact .inl h
      · exact .inr ⟨m, List.mem_cons_of_mem _ hm, h⟩

/-- A token of a base is inert, or one of the atom that the base is, or of one of its parts. -/
theorem mem_baseTokens {b : BasePhrase Phrase} (h : tok ∈ baseTokens b) :
    tok.isInert ∨ (∃ a, b = .atom a ∧ tok ∈ a.tokens) ∨ ∃ p ∈ b.parts, tok ∈ p.tokens := by
  have members : ∀ {ms}, tok ∈ membersTokens ms →
      tok.isInert ∨ (∃ a, b = .atom a ∧ tok ∈ a.tokens) ∨
        ∃ p ∈ ms.map (·.type), tok ∈ p.tokens := by
    intro ms h
    obtain h | ⟨m, hm, h⟩ := mem_membersTokens h
    · exact .inl h
    · exact .inr (.inr ⟨m.type, List.mem_map_of_mem hm, h⟩)
  cases b with
  | atom a => exact .inr (.inl ⟨a, rfl, h⟩)
  | collection c e =>
    simp only [baseTokens, List.mem_cons, List.mem_append, List.not_mem_nil, or_false] at h
    rcases h with rfl | rfl | h | rfl
    · cases c <;> exact .inl rfl
    · exact .inl rfl
    · exact .inr (.inr ⟨e, List.mem_cons_self, h⟩)
    · exact .inl rfl
  | map k v =>
    simp only [baseTokens, List.mem_cons, List.mem_append, List.not_mem_nil, or_false] at h
    rcases h with rfl | rfl | h | rfl | h | rfl
    · exact .inl rfl
    · exact .inl rfl
    · exact .inr (.inr ⟨k, List.mem_cons_self, h⟩)
    · exact .inl rfl
    · exact .inr (.inr ⟨v, List.mem_cons_of_mem _ List.mem_cons_self, h⟩)
    · exact .inl rfl
  | row round ms =>
    simp only [baseTokens, List.mem_cons, List.mem_append, List.not_mem_nil, or_false] at h
    rcases h with rfl | rfl | h | rfl
    · exact .inl rfl
    · exact .inl rfl
    · exact members (List.mem_of_mem_drop h)
    · exact .inl rfl
  | structured className ms =>
    simp only [baseTokens, List.mem_cons, List.mem_append, List.not_mem_nil, or_false] at h
    rcases h with rfl | rfl | rfl | h | rfl
    · exact .inl rfl
    · exact .inl rfl
    · exact .inl rfl
    · exact members h
    · exact .inl rfl

theorem isInert_of_mem_nullability {n : Nullability} (h : tok ∈ n.tokens) : tok.isInert := by
  have hall : n.tokens.all Token.isInert := by cases n <;> rfl
  exact List.all_eq_true.1 hall tok h

theorem isInert_of_mem_wrapperTokens {ws : List (Collection × Nullability)}
    (h : tok ∈ wrapperTokens ws) : tok.isInert := by
  obtain ⟨⟨c, n⟩, -, h⟩ := List.mem_flatMap.1 h
  rcases List.mem_cons.1 h with rfl | h
  · cases c <;> rfl
  · exact isInert_of_mem_nullability h

theorem mem_tokens_hasAtom : ∀ (p : Phrase), tok ∈ p.tokens →
    tok.isInert ∨ ∃ a, p.HasAtom a ∧ tok ∈ a.tokens :=
  forall_of_parts fun b n ws ih h => by
    rw [tokens, List.mem_append, List.mem_append] at h
    rcases h with (h | h) | h
    · obtain h | ⟨a, rfl, h⟩ | ⟨p, hp, h⟩ := mem_baseTokens h
      · exact .inl h
      · exact .inr ⟨a, .base, h⟩
      · obtain h | ⟨a, ha, h⟩ := ih p hp h
        · exact .inl h
        · exact .inr ⟨a, .inside hp ha, h⟩
    · exact .inl (isInert_of_mem_nullability h)
    · exact .inl (isInert_of_mem_wrapperTokens h)

/-- A token of a phrase is inert, or a keyword of an atom in it that a loader answers for. -/
theorem mem_tokens {p : Phrase} (h : tok ∈ p.tokens) :
    tok.isInert ∨ (∃ k, tok = .keyword k) ∧ ∃ a, p.HasAtom a ∧ a.isOutside = true := by
  obtain h | ⟨a, ha, h⟩ := mem_tokens_hasAtom p h
  · exact .inl h
  · exact (AtomPhrase.mem_tokens h).imp_right fun ⟨hk, hout⟩ => ⟨hk, a, ha, hout⟩

/-- No quote is left open in a phrase. -/
theorem unterminated_notMem (p : Phrase) : .unterminated ∉ p.tokens := by
  intro h
  obtain h | ⟨⟨k, h⟩, -⟩ := mem_tokens h <;> cases h

/-- An atom in a phrase that has a type has one, too. -/
theorem HasAtom.exists_meaning {p : Phrase} {a : AtomPhrase} (ha : p.HasAtom a) {t : DataType}
    (h : p.type? loader heeded = some t) : ∃ u, a.meaning? loader = some u := by
  induction ha generalizing t with
  | base =>
    obtain ⟨t₁, -, h₁, -⟩ := type?_mk h
    exact ⟨t₁, h₁⟩
  | @inside b _ _ p hp _ ih =>
    obtain ⟨t₁, -, h₁, -⟩ := type?_mk h
    rcases baseType?_cases h₁ with ⟨a, rfl, -⟩ | ⟨-, -, hparts⟩
    · nomatch hp
    · obtain ⟨u, -, hu⟩ := exists_of_forall₂ hparts.flip hp
      exact ih hu

theorem mem_atoms_of_wrap? : ∀ {ws t u}, wrap? heeded t ws = some u →
    (x ∈ u.atoms ↔ x ∈ t.atoms)
  | [], t, u, h => by
    cases h
    rfl
  | (c, n) :: ws, t, u, h => by
    obtain ⟨t₁, h₁, h⟩ := wrap?_cons h
    rw [mem_atoms_of_wrap? h, DataType.mem_atoms_iff, (mark?_eq_some h₁).1]
    simp [Shape.parts]

/-- An atom of the type of a phrase is one of the types of the atoms in it. -/
theorem mem_atoms_of_type? : ∀ (p : Phrase) {t : DataType}, p.type? loader heeded = some t →
    x ∈ t.atoms → ∃ a u, p.HasAtom a ∧ a.meaning? loader = some u ∧ x ∈ u.atoms :=
  forall_of_parts fun b n ws ih t h hx => by
    obtain ⟨t₁, t₂, h₁, h₂, h₃⟩ := type?_mk h
    rw [mem_atoms_of_wrap? h₃, DataType.mem_atoms_iff, (mark?_eq_some h₂).1,
      ← DataType.mem_atoms_iff] at hx
    rcases baseType?_cases h₁ with ⟨a, rfl, ha⟩ | ⟨-, hshape, hparts⟩
    · exact ⟨a, t₁, .base, ha, hx⟩
    · obtain ⟨u, hu, hx⟩ := (DataType.mem_atoms_iff.1 hx).resolve_left (hshape x)
      obtain ⟨p, hp, hpu⟩ := exists_of_forall₂ hparts hu
      obtain ⟨a, v, ha, hv, hx⟩ := ih p hp hpu hx
      exact ⟨a, v, .inside hp ha, hv, hx⟩

end Phrase

end Grammar

end SqlTypes
