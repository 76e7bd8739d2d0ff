import SqlTypes.BadParameter

/-!
# Qualified names

A name of one to three segments, outermost first: an object, its database, its catalog.
-/

namespace SqlTypes

/-- The most segments of a qualified name. -/
def maxSegments : Nat := 3

structure QualifiedName where
  segments : List String
  ne_nil : segments ≠ []
  length_le : segments.length ≤ maxSegments
  ne_empty : ∀ s ∈ segments, s ≠ ""
  deriving DecidableEq

namespace QualifiedName

/-- The name with these segments, if they number one to three and none is empty. -/
def ofSegments (segments : List String) : Except BadParameter QualifiedName :=
  if hc : segments ≠ [] ∧ segments.length ≤ maxSegments then
    if he : ∀ s ∈ segments, s ≠ "" then .ok ⟨segments, hc.1, hc.2, he⟩ else .error .emptySegment
  else
    .error .segmentCount

/-- The last segment. -/
def object (n : QualifiedName) : String :=
  n.segments.getLast n.ne_nil

/-- The segment before the object. -/
def database? (n : QualifiedName) : Option String :=
  n.segments.reverse[1]?

/-- The segment before the database. -/
def catalog? (n : QualifiedName) : Option String :=
  n.segments.reverse[2]?

theorem ofSegments_segments (n : QualifiedName) : ofSegments n.segments = .ok n := by
  rw [ofSegments, dif_pos ⟨n.ne_nil, n.length_le⟩, dif_pos n.ne_empty]

theorem segments_of_ofSegments {segments : List String} {n : QualifiedName}
    (h : ofSegments segments = .ok n) : n.segments = segments := by
  unfold ofSegments at h
  split at h
  · split at h
    · cases h
      rfl
    · cases h
  · cases h

end QualifiedName

end SqlTypes
