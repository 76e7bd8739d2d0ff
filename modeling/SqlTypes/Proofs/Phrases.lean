import Mathlib.Data.List.MinMax
import SqlTypes.Grammar

/-!
# Phrases and what is in them

What holds of a phrase when it holds of the phrases that it is directly made of
(`Phrase.forall_of_parts`), and two ways to count how deep a phrase nests. Collections written
behind a base go around all that is in the base (`Phrase.depth`); a reader that closes what is in
the base before it opens them gets less deep (`Phrase.height`). The two agree where a deepest part
of the phrase never has both (`Phrase.height_eq_depth_iff`).
-/

namespace SqlTypes

namespace Grammar

section Greatest

variable {α : Type} {f : α → Nat} {l : List α}

theorem le_foldr_max {a : α} (h : a ∈ l) : f a ≤ (l.map f).foldr max 0 :=
  List.le_max_of_le' 0 (List.mem_map_of_mem h) le_rfl

theorem exists_eq_foldr_max (f : α → Nat) :
    ∀ {l : List α}, l ≠ [] → ∃ a ∈ l, f a = (l.map f).foldr max 0
  | [a], _ => ⟨a, by simp, by simp⟩
  | a :: b :: l, _ => by
    obtain ⟨d, hd, hm⟩ := exists_eq_foldr_max f (l := b :: l) (by simp)
    rw [List.map_cons, List.foldr_cons, ← hm]
    rcases Nat.le_total (f a) (f d) with h | h
    · exact ⟨d, by simp [hd], (Nat.max_eq_right h).symm⟩
    · exact ⟨a, by simp, (Nat.max_eq_left h).symm⟩

theorem foldr_max_le {n : Nat} (h : ∀ a ∈ l, f a ≤ n) : (l.map f).foldr max 0 ≤ n := by
  rcases eq_or_ne l [] with rfl | hl
  · exact Nat.zero_le n
  · obtain ⟨a, ha, hm⟩ := exists_eq_foldr_max f hl
    exact hm ▸ h a ha

end Greatest

namespace BasePhrase

variable {τ : Type}

/-- The phrases that a base is directly made of, in order. -/
def parts : BasePhrase τ → List τ
  | .atom _ => []
  | .collection _ e => [e]
  | .map k v => [k, v]
  | .row _ members | .structured _ members => members.map (·.type)

end BasePhrase

theorem AtomPhrase.tokens_ne_nil (a : AtomPhrase) : a.tokens ≠ [] := by
  cases a <;> simp [AtomPhrase.tokens]

namespace Phrase

mutual

theorem forall_of_parts {P : Phrase → Prop}
    (h : ∀ b n ws, (∀ p ∈ BasePhrase.parts b, P p) → P ⟨b, n, ws⟩) : ∀ p, P p
  | ⟨b, n, ws⟩ => h b n ws (forall_parts h b)

theorem forall_parts {P : Phrase → Prop}
    (h : ∀ b n ws, (∀ p ∈ BasePhrase.parts b, P p) → P ⟨b, n, ws⟩) :
    ∀ b : BasePhrase Phrase, ∀ p ∈ b.parts, P p
  | .atom _, _, hp => by simp [BasePhrase.parts] at hp
  | .collection _ e, p, hp => by
    have he := forall_of_parts h e
    obtain rfl : p = e := by simpa [BasePhrase.parts] using hp
    exact he
  | .map k v, p, hp => by
    have hk := forall_of_parts h k
    have hv := forall_of_parts h v
    simp only [BasePhrase.parts, List.mem_cons, List.not_mem_nil, or_false] at hp
    rcases hp with rfl | rfl
    · exact hk
    · exact hv
  | .row _ members, p, hp => by
    obtain ⟨m, hm, rfl⟩ := List.mem_map.1 hp
    exact forall_members h members m hm
  | .structured _ members, p, hp => by
    obtain ⟨m, hm, rfl⟩ := List.mem_map.1 hp
    exact forall_members h members m hm

theorem forall_members {P : Phrase → Prop}
    (h : ∀ b n ws, (∀ p ∈ BasePhrase.parts b, P p) → P ⟨b, n, ws⟩) :
    ∀ members : List (MemberPhrase Phrase), ∀ m ∈ members, P m.type
  | [], _, hm => by simp at hm
  | ⟨_, p, _⟩ :: members, m, hm => by
    have hp := forall_of_parts h p
    have hms := forall_members h members
    rcases List.mem_cons.1 hm with rfl | hm
    · exact hp
    · exact hms m hm

end

section Nesting

variable (around : Nat → Nat → Nat)

mutual

/-- The nesting of a phrase; `around` says that of a base and so many collections behind it. -/
def nesting : Phrase → Nat
  | ⟨b, _, wrappers⟩ => around (baseNesting b) wrappers.length + 1

def baseNesting : BasePhrase Phrase → Nat
  | .atom _ => 0
  | .collection _ e => nesting e
  | .map k v => max (nesting k) (nesting v)
  | .row _ members => membersNesting members
  | .structured _ members => membersNesting members

def membersNesting : List (MemberPhrase Phrase) → Nat
  | [] => 0
  | ⟨_, p, _⟩ :: members => max (nesting p) (membersNesting members)

end

theorem membersNesting_eq : ∀ members : List (MemberPhrase Phrase),
    membersNesting around members = (members.map fun m => nesting around m.type).foldr max 0
  | [] => rfl
  | ⟨_, p, _⟩ :: members => by
    rw [membersNesting, membersNesting_eq members, List.map_cons, List.foldr_cons]

theorem baseNesting_eq (b : BasePhrase Phrase) :
    baseNesting around b = (b.parts.map (nesting around)).foldr max 0 := by
  cases b <;> simp [baseNesting, BasePhrase.parts, membersNesting_eq, Function.comp_def]

end Nesting

/-- How deep the type nests that a phrase means. -/
def depth (p : Phrase) : Nat :=
  p.nesting (· + ·)

/-- How deep a reading nests that is done with a base before it opens the collections behind it. -/
def height (p : Phrase) : Nat :=
  p.nesting max

/-- The height of a base is that of its highest part. -/
def baseHeight (b : BasePhrase Phrase) : Nat :=
  baseNesting max b

def membersHeight (members : List (MemberPhrase Phrase)) : Nat :=
  membersNesting max members

@[simp] theorem baseHeight_collection (c : Collection) (e : Phrase) :
    baseHeight (.collection c e) = e.height := rfl

@[simp] theorem baseHeight_map (k v : Phrase) :
    baseHeight (.map k v) = max k.height v.height := rfl

@[simp] theorem baseHeight_row (round : Bool) (members : List (MemberPhrase Phrase)) :
    baseHeight (.row round members) = membersHeight members := rfl

@[simp] theorem baseHeight_structured (className : String) (members : List (MemberPhrase Phrase)) :
    baseHeight (.structured className members) = membersHeight members := rfl

@[simp] theorem membersHeight_cons (m : MemberPhrase Phrase) (members) :
    membersHeight (m :: members) = max m.type.height (membersHeight members) := rfl

theorem height_eq (b n ws) : height ⟨b, n, ws⟩ = max (baseHeight b) ws.length + 1 := rfl

theorem baseHeight_eq (b : BasePhrase Phrase) :
    baseHeight b = (b.parts.map height).foldr max 0 :=
  baseNesting_eq max b

/-- A deepest part of the phrase has, on each level, types in the base or collections behind it, not
both. -/
inductive DeepestUnmixed : Phrase → Prop where
  | flat {b n ws} : BasePhrase.parts b = [] → DeepestUnmixed ⟨b, n, ws⟩
  | inside {b n p} : p ∈ BasePhrase.parts b → (∀ q ∈ b.parts, q.depth ≤ p.depth) →
      DeepestUnmixed p → DeepestUnmixed ⟨b, n, []⟩

theorem height_mk (b n ws) :
    height ⟨b, n, ws⟩ = max ((b.parts.map height).foldr max 0) ws.length + 1 := by
  rw [height_eq, baseHeight_eq]

theorem depth_mk (b n ws) :
    depth ⟨b, n, ws⟩ = (b.parts.map depth).foldr max 0 + ws.length + 1 := by
  rw [depth, nesting, baseNesting_eq]
  rfl

theorem height_pos (p : Phrase) : 0 < p.height := by
  obtain ⟨b, n, ws⟩ := p
  rw [height_mk]
  exact Nat.succ_pos _

theorem height_le_depth : ∀ p : Phrase, p.height ≤ p.depth :=
  forall_of_parts fun b n ws ih => by
    rw [height_mk, depth_mk]
    have := foldr_max_le fun p hp => Nat.le_trans (ih p hp) (le_foldr_max hp)
    omega

theorem height_eq_depth_iff : ∀ p : Phrase, p.height = p.depth ↔ p.DeepestUnmixed :=
  forall_of_parts fun b n ws ih => by
    have hle : (b.parts.map height).foldr max 0 ≤ (b.parts.map depth).foldr max 0 :=
      foldr_max_le fun p hp => Nat.le_trans (height_le_depth p) (le_foldr_max hp)
    rw [height_mk, depth_mk]
    constructor
    · intro h
      by_cases hb : b.parts = []
      · exact .flat hb
      -- a part counts at least 1, so there is no room for collections behind it
      obtain ⟨p, hp, hm⟩ := exists_eq_foldr_max height hb
      have hp₁ := height_pos p
      obtain rfl : ws = [] := List.length_eq_zero_iff.1 (by omega)
      have hpd := height_le_depth p
      have hdm := le_foldr_max (f := depth) hp
      simp only [List.length_nil] at h
      refine .inside hp (fun q hq => ?_) ((ih p hp).1 (by omega))
      have := le_foldr_max (f := depth) hq
      omega
    · intro h
      cases h with
      | flat hb => simp [hb]
      | inside hp hmax hun =>
        have h₁ := (ih _ hp).2 hun
        have h₂ := le_foldr_max (f := height) hp
        have h₃ := foldr_max_le hmax
        simp only [List.length_nil]
        omega

theorem sublist_membersTokens : ∀ {members : List (MemberPhrase Phrase)} {m : MemberPhrase Phrase},
    m ∈ members → m.type.tokens.Sublist ((membersTokens members).drop 1)
  | ⟨name, p, description⟩ :: members, m, hm => by
    rw [membersTokens, List.drop_succ_cons, List.drop_zero]
    refine .cons _ ?_
    rcases List.mem_cons.1 hm with rfl | hm
    · rw [List.append_assoc]
      exact List.sublist_append_left _ _
    · have ih := (sublist_membersTokens hm).trans (List.drop_sublist 1 _)
      exact ih.trans (List.sublist_append_right _ _)

/-- Behind its first token, a base has the tokens of all its parts. -/
theorem sublist_baseTokens {b : BasePhrase Phrase} {p : Phrase} (hp : p ∈ b.parts) :
    p.tokens.Sublist (baseTokens b).tail := by
  cases b with
  | atom => simp [BasePhrase.parts] at hp
  | collection c e =>
    obtain rfl : p = e := by simpa [BasePhrase.parts] using hp
    exact .cons _ (List.sublist_append_left _ _)
  | map k v =>
    simp only [BasePhrase.parts, List.mem_cons, List.not_mem_nil, or_false] at hp
    rcases hp with rfl | rfl
    · exact .cons _ (List.sublist_append_left _ _)
    · refine .cons _ (.trans ?_ (List.sublist_append_right _ _))
      exact .cons _ (List.sublist_append_left _ _)
  | row round members =>
    obtain ⟨m, hm, rfl⟩ := List.mem_map.1 hp
    exact .cons _ ((sublist_membersTokens hm).trans (List.sublist_append_left _ _))
  | structured className members =>
    obtain ⟨m, hm, rfl⟩ := List.mem_map.1 hp
    have h := (sublist_membersTokens hm).trans (List.drop_sublist 1 _)
    exact .cons _ (.cons _ (h.trans (List.sublist_append_left _ _)))

theorem baseTokens_ne_nil (b : BasePhrase Phrase) : baseTokens b ≠ [] := by
  cases b with
  | atom a => exact a.tokens_ne_nil
  | collection | map | row | structured => simp [baseTokens]

theorem length_le_wrapperTokens : ∀ ws, List.length ws ≤ (wrapperTokens ws).length
  | [] => Nat.le_refl _
  | (c, n) :: ws => by
    have := length_le_wrapperTokens ws
    simp only [wrapperTokens, List.flatMap_cons, List.length_append, List.length_cons] at this ⊢
    omega

/-- No phrase nests deeper than it has tokens. -/
theorem depth_le_length : ∀ p : Phrase, p.depth ≤ p.tokens.length :=
  forall_of_parts fun b n ws ih => by
    have hb := List.length_pos_iff.2 (baseTokens_ne_nil b)
    have hws := length_le_wrapperTokens ws
    have hd : (b.parts.map depth).foldr max 0 ≤ (baseTokens b).tail.length :=
      foldr_max_le fun p hp => Nat.le_trans (ih p hp) (sublist_baseTokens hp).length_le
    rw [List.length_tail] at hd
    rw [depth_mk, tokens, List.length_append, List.length_append]
    omega

end Phrase

end Grammar

end SqlTypes
