import SqlTypes.Family
import SqlTypes.Interval
import SqlTypes.QualifiedName

/-!
# Data types

A data type is a tree. Each node has a shape, which holds the types it is made of, and says whether
its values may be null. Equality is that of the whole trees.

`fold` takes a tree apart from the leaves up; `fold_mk` and `forall_of_parts` let proofs follow it
without looking inside.
-/

namespace SqlTypes

/-- Types without parameters. -/
inductive Plain where
  | boolean | tinyint | smallint | int | bigint | float | double | date | null | descriptor
  deriving DecidableEq, Repr

/-- A type whose values an external serializer handles: its class, and the serializer's
configuration as text. -/
structure RawType where
  className : String
  snapshot : String
  deriving DecidableEq, Repr

/-- Types that are not made of other types. -/
inductive Atom where
  | plain (p : Plain)
  | sized (s : Sized) (length : Nat)
  | decimal (precision scale : Nat)
  | temporal (t : Temporal) (precision : Nat)
  | yearMonth (range : YearMonth) (years : Nat)
  | dayTime (range : DayTime) (days fraction : Nat)
  | raw (r : RawType)
  /-- A type known by its family and a text that only a legacy system understands. -/
  | legacy (family : Family) (payload : String)
  /-- A name that no catalog has resolved yet. -/
  | unresolved (name : QualifiedName)
  deriving DecidableEq

/-- Types of many values of one element type. -/
inductive Collection where
  | array | multiset
  deriving DecidableEq, Repr

/-- A field of a row or an attribute of a structured type. -/
structure Member (τ : Type) where
  name : String
  type : τ
  description : Option String := none
  deriving DecidableEq

/-- The outermost layer of a type, over its parts. -/
inductive Shape (τ : Type) where
  | atom (a : Atom)
  | collection (c : Collection) (element : τ)
  | map (key value : τ)
  | row (fields : List (Member τ))
  | structured (className : String) (attributes : List (Member τ))
  deriving DecidableEq

structure DataType where
  shape : Shape DataType
  nullable : Bool := true

namespace Member

variable {σ τ : Type}

def map (f : σ → τ) (m : Member σ) : Member τ :=
  ⟨m.name, f m.type, m.description⟩

end Member

namespace Shape

variable {ρ σ τ : Type}

/-- The same layer over other parts. -/
def mapParts (f : σ → τ) : Shape σ → Shape τ
  | .atom a => .atom a
  | .collection c e => .collection c (f e)
  | .map k v => .map (f k) (f v)
  | .row fields => .row (fields.map (·.map f))
  | .structured className attributes => .structured className (attributes.map (·.map f))

/-- The parts, in order. -/
def parts : Shape τ → List τ
  | .atom _ => []
  | .collection _ e => [e]
  | .map k v => [k, v]
  | .row members | .structured _ members => members.map (·.type)

@[simp] theorem parts_mapParts (f : σ → τ) (s : Shape σ) :
    (s.mapParts f).parts = s.parts.map f := by
  cases s <;> simp [mapParts, parts, Member.map]

theorem mapParts_mapParts (f : ρ → σ) (g : σ → τ) (s : Shape ρ) :
    (s.mapParts f).mapParts g = s.mapParts (g ∘ f) := by
  cases s <;> simp [mapParts, Member.map, Function.comp_def]

theorem mapParts_id (s : Shape τ) : s.mapParts id = s := by
  cases s <;> simp [mapParts, Member.map]

theorem mapParts_congr {f g : σ → τ} {s : Shape σ} (h : ∀ u ∈ s.parts, f u = g u) :
    s.mapParts f = s.mapParts g := by
  cases s with
  | atom => rfl
  | collection | map => simp_all [mapParts, parts]
  | row members | structured _ members =>
    simp only [parts, List.forall_mem_map] at h
    simp only [mapParts]
    congr 1
    exact List.map_congr_left fun m hm => by rw [Member.map, Member.map, h m hm]

theorem mapParts_eq_self {f : τ → τ} {s : Shape τ} (h : ∀ u ∈ s.parts, f u = u) :
    s.mapParts f = s :=
  (mapParts_congr h).trans s.mapParts_id

end Shape

/-! ## Trees -/

namespace DataType

mutual

/-- Equality of data types is decidable. -/
def decEq : (t u : DataType) → Decidable (t = u)
  | ⟨s, n⟩, ⟨s', n'⟩ =>
    have := decEqShape s s'
    decidable_of_iff (s = s' ∧ n = n') (by simp)

def decEqShape : (s s' : Shape DataType) → Decidable (s = s')
  | .atom a, .atom a' => decidable_of_iff (a = a') (by simp)
  | .collection c e, .collection c' e' =>
    have := decEq e e'
    decidable_of_iff (c = c' ∧ e = e') (by simp)
  | .map k v, .map k' v' =>
    have := decEq k k'
    have := decEq v v'
    decidable_of_iff (k = k' ∧ v = v') (by simp)
  | .row fields, .row fields' =>
    have := decEqMembers fields fields'
    decidable_of_iff (fields = fields') (by simp)
  | .structured c attributes, .structured c' attributes' =>
    have := decEqMembers attributes attributes'
    decidable_of_iff (c = c' ∧ attributes = attributes') (by simp)
  | .atom _, .collection .. | .atom _, .map .. | .atom _, .row _ | .atom _, .structured ..
  | .collection .., .atom _ | .collection .., .map .. | .collection .., .row _
  | .collection .., .structured .. | .map .., .atom _ | .map .., .collection ..
  | .map .., .row _ | .map .., .structured .. | .row _, .atom _ | .row _, .collection ..
  | .row _, .map .. | .row _, .structured .. | .structured .., .atom _
  | .structured .., .collection .. | .structured .., .map .. | .structured .., .row _ =>
    isFalse (by simp)

def decEqMembers : (ms ms' : List (Member DataType)) → Decidable (ms = ms')
  | [], [] => isTrue rfl
  | [], _ :: _ | _ :: _, [] => isFalse (by simp)
  | ⟨name, t, d⟩ :: ms, ⟨name', t', d'⟩ :: ms' =>
    have := decEq t t'
    have := decEqMembers ms ms'
    decidable_of_iff ((name = name' ∧ t = t' ∧ d = d') ∧ ms = ms') (by simp)

end

instance : DecidableEq DataType := decEq

section Fold

variable {α : Type} (f : Shape α → Bool → α)

mutual

/-- Computes from the leaves up: `f` gets the results for the parts, and whether the node is
nullable. -/
def fold : DataType → α
  | ⟨s, nullable⟩ => f (foldShape s) nullable

def foldShape : Shape DataType → Shape α
  | .atom a => .atom a
  | .collection c e => .collection c (fold e)
  | .map k v => .map (fold k) (fold v)
  | .row fields => .row (foldMembers fields)
  | .structured className attributes => .structured className (foldMembers attributes)

def foldMembers : List (Member DataType) → List (Member α)
  | [] => []
  | ⟨name, t, description⟩ :: ms => ⟨name, fold t, description⟩ :: foldMembers ms

end

theorem foldMembers_eq : ∀ ms : List (Member DataType),
    foldMembers f ms = ms.map (·.map (fold f))
  | [] => rfl
  | ⟨_, _, _⟩ :: ms => by simp [foldMembers, Member.map, foldMembers_eq ms]

theorem foldShape_eq (s : Shape DataType) : foldShape f s = s.mapParts (fold f) := by
  cases s <;> simp [foldShape, Shape.mapParts, foldMembers_eq]

theorem fold_mk (s : Shape DataType) (nullable : Bool) :
    fold f ⟨s, nullable⟩ = f (s.mapParts (fold f)) nullable := by
  rw [fold, foldShape_eq]

end Fold

mutual

theorem forall_of_parts {P : DataType → Prop}
    (h : ∀ s n, (∀ t ∈ s.parts, P t) → P ⟨s, n⟩) : ∀ t, P t
  | ⟨s, n⟩ => h s n (forall_parts h s)

theorem forall_parts {P : DataType → Prop}
    (h : ∀ s n, (∀ t ∈ s.parts, P t) → P ⟨s, n⟩) : ∀ s : Shape DataType, ∀ t ∈ s.parts, P t
  | .atom _, _, ht => by simp [Shape.parts] at ht
  | .collection _ e, t, ht => by
    have he := forall_of_parts h e
    obtain rfl : t = e := by simpa [Shape.parts] using ht
    exact he
  | .map k v, t, ht => by
    have hk := forall_of_parts h k
    have hv := forall_of_parts h v
    simp only [Shape.parts, List.mem_cons, List.not_mem_nil, or_false] at ht
    rcases ht with rfl | rfl
    · exact hk
    · exact hv
  | .row members, t, ht => by
    obtain ⟨m, hm, rfl⟩ := List.mem_map.1 ht
    exact forall_members h members m hm
  | .structured _ members, t, ht => by
    obtain ⟨m, hm, rfl⟩ := List.mem_map.1 ht
    exact forall_members h members m hm

theorem forall_members {P : DataType → Prop}
    (h : ∀ s n, (∀ t ∈ s.parts, P t) → P ⟨s, n⟩) :
    ∀ ms : List (Member DataType), ∀ m ∈ ms, P m.type
  | [], _, hm => by simp at hm
  | ⟨name, t, d⟩ :: ms, m, hm => by
    have ht := forall_of_parts h t
    have hms := forall_members h ms
    rcases List.mem_cons.1 hm with rfl | hm
    · exact ht
    · exact hms m hm

end

/-- The types that a type is directly made of. -/
def children (t : DataType) : List DataType :=
  t.shape.parts

/-- How deep types nest: 1 for a type without children. -/
def depth (t : DataType) : Nat :=
  t.fold fun s _ => s.parts.foldr max 0 + 1

/-- Whether a name in the tree is unresolved. -/
def hasUnresolved (t : DataType) : Bool :=
  t.fold fun s _ =>
    match s with
    | .atom (.unresolved _) => true
    | s => s.parts.any id

/-- A node, and its outline from the level on which it stands. -/
def visit (s : Shape (DataType × (Nat → List (Nat × DataType)))) (nullable : Bool) :
    DataType × (Nat → List (Nat × DataType)) :=
  let node : DataType := ⟨s.mapParts (·.1), nullable⟩
  (node, fun level => (level, node) :: s.parts.flatMap (·.2 (level + 1)))

/-- Every node with its level, parents before children; the top stands on `level`. -/
def outlineFrom (level : Nat) (t : DataType) : List (Nat × DataType) :=
  (t.fold visit).2 level

/-- Every node with its level, parents before children; the level of the top is 0. -/
def outline (t : DataType) : List (Nat × DataType) :=
  t.outlineFrom 0

theorem fst_fold_visit : ∀ t : DataType, (t.fold visit).1 = t :=
  forall_of_parts fun s n ih => by
    have hparts : s.mapParts (Prod.fst ∘ fold visit) = s := Shape.mapParts_eq_self ih
    simp only [fold_mk, visit, Shape.mapParts_mapParts]
    rw [hparts]

theorem outlineFrom_eq (level : Nat) (t : DataType) :
    t.outlineFrom level = (level, t) :: t.children.flatMap (outlineFrom (level + 1)) := by
  have hfst := fst_fold_visit t
  obtain ⟨s, n⟩ := t
  rw [outlineFrom, children]
  rw [fold_mk, visit] at hfst ⊢
  simp only [Shape.parts_mapParts, List.flatMap_map] at hfst ⊢
  rw [hfst]
  rfl

theorem outlineFrom_succ : ∀ (t : DataType) (level : Nat),
    t.outlineFrom (level + 1) = (t.outlineFrom level).map fun e => (e.1 + 1, e.2) :=
  forall_of_parts fun s n ih level => by
    have hparts : s.parts.map (outlineFrom (level + 2)) =
        s.parts.map fun u => (u.outlineFrom (level + 1)).map fun e => (e.1 + 1, e.2) :=
      List.map_congr_left fun u hu => ih u hu (level + 1)
    rw [outlineFrom_eq, outlineFrom_eq level, List.map_cons, List.map_flatMap, children,
      List.flatMap_def, hparts, ← List.flatMap_def]

/-- A type is in its own outline, and the outlines of its parts are one level down. -/
theorem outline_eq (t : DataType) :
    t.outline = (0, t) :: t.children.flatMap fun u => u.outline.map fun e => (e.1 + 1, e.2) := by
  have hparts : outlineFrom 1 = fun u => u.outline.map fun e => (e.1 + 1, e.2) :=
    funext fun u => outlineFrom_succ u 0
  rw [outline, outlineFrom_eq, hparts]

end DataType

def Plain.family : Plain → Family
  | .boolean => .boolean
  | .tinyint => .tinyint
  | .smallint => .smallint
  | .int => .integer
  | .bigint => .bigint
  | .float => .float
  | .double => .double
  | .date => .date
  | .null => .null
  | .descriptor => .descriptor

def Sized.family : Sized → Family
  | .char => .char
  | .varchar => .varchar
  | .binary => .binary
  | .varbinary => .varbinary

def Temporal.family : Temporal → Family
  | .time => .time
  | .timestamp => .timestamp
  | .zonedTimestamp => .zonedTimestamp
  | .localZonedTimestamp => .localZonedTimestamp

/-- A legacy type belongs to the family it declares. -/
def Atom.family : Atom → Family
  | .plain p => p.family
  | .sized s _ => s.family
  | .decimal .. => .decimal
  | .temporal t _ => t.family
  | .yearMonth .. => .yearMonthInterval
  | .dayTime .. => .dayTimeInterval
  | .raw _ => .raw
  | .legacy family _ => family
  | .unresolved _ => .unresolved

def DataType.family (t : DataType) : Family :=
  match t.shape with
  | .atom a => a.family
  | .collection .array _ => .array
  | .collection .multiset _ => .multiset
  | .map .. => .map
  | .row _ => .row
  | .structured .. => .structured

end SqlTypes
