import SqlTypes.Metrics

/-!
# Blueprints

A blueprint says how a type is made: of which shape over which parts, or read from a description. It
is carried out in the order in which it is written, parts first, and ends at the first failure.
-/

namespace SqlTypes

inductive Blueprint where
  | shape (s : Shape Blueprint)
  /-- A name not yet resolved, with these segments. -/
  | unresolved (segments : List String)
  /-- What a text describes, read with the default context. -/
  | described (text : String)
  | withNullability (b : Blueprint) (nullable : Bool)

namespace Blueprint

/-- Makes types and counts what is parsed on the way. -/
abbrev Build := EStateM Failure Metrics

def check {α : Type} : Except BadParameter α → Build α
  | .ok a => pure a
  | .error b => throw (.invalidParameter b.message)

mutual

/-- Carries out a blueprint. -/
def build : Blueprint → Build DataType
  | .shape s => do check (DataType.new (← buildParts s))
  | .unresolved segments => do
    let name ← check (QualifiedName.ofSegments segments)
    check (DataType.new (.atom (.unresolved name)))
  | .described text => parseCounting {} text
  | .withNullability b nullable => do check ((← b.build).withNullability nullable)

def buildParts : Shape Blueprint → Build (Shape DataType)
  | .atom a => return .atom a
  | .collection c element => return .collection c (← element.build)
  | .map key value => return .map (← key.build) (← value.build)
  | .row fields => return .row (← buildMembers fields)
  | .structured className attributes => return .structured className (← buildMembers attributes)

def buildMembers : List (Member Blueprint) → Build (List (Member DataType))
  | [] => return []
  | ⟨name, type, description⟩ :: members => do
    let type ← type.build
    return { name, type, description } :: (← buildMembers members)

end

end Blueprint

end SqlTypes
