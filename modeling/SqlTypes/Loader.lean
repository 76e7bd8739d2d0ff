import SqlTypes.DataType
import SqlTypes.Failure

/-!
# Class loading

A description may name a raw type by its class and a legacy type by its family. What these stand for
is asked of a loader, which may fail for reasons of its own (`LoadError.other`). A registry is a
loader filled by registrations, of which the last one for a key counts.
-/

namespace SqlTypes

structure Loader where
  /-- The raw type of a class with a stored serializer configuration. -/
  restore : (className snapshot : String) → Except LoadError RawType
  /-- The type that a legacy payload of a family stands for. -/
  resolve : Family → (payload : String) → Except LoadError DataType

/-- A nullable legacy type that stands for itself. -/
def DataType.legacy (family : Family) (payload : String) : DataType :=
  { shape := .atom (.legacy family payload) }

namespace Loader

/-- Refuses everything. -/
def refusing : Loader where
  restore className _ := .error (.classNotFound className)
  resolve _ _ := .error (.unsupported "no legacy type bridge configured")

/-- Accepts everything as it stands. -/
def verbatim : Loader where
  restore className snapshot := .ok ⟨className, snapshot⟩
  resolve family payload := .ok (.legacy family payload)

end Loader

/-- Raw classes, and legacy types under their family and payload, the latest first. -/
structure Registry where
  rawClasses : List String := []
  legacyTypes : List ((Family × String) × DataType) := []

namespace Registry

def empty : Registry := {}

def registerRaw (className : String) (r : Registry) : Registry :=
  { r with rawClasses := className :: r.rawClasses }

def registerLegacy (family : Family) (payload : String) (t : DataType) (r : Registry) : Registry :=
  { r with legacyTypes := ((family, payload), t) :: r.legacyTypes }

/-- Registers a legacy type for itself. -/
def registerPassthrough (family : Family) (payload : String) (r : Registry) : Registry :=
  r.registerLegacy family payload (.legacy family payload)

def hasRaw (r : Registry) (className : String) : Bool :=
  r.rawClasses.contains className

/-- A registered class restores every configuration but the empty one. -/
def restore (r : Registry) (className snapshot : String) : Except LoadError RawType :=
  if r.hasRaw className then
    if snapshot = "" then .error (.corruptSnapshot className "snapshot is empty")
    else .ok ⟨className, snapshot⟩
  else
    .error (.classNotFound className)

/-- The type last registered for a family and payload. -/
def resolve (r : Registry) (family : Family) (payload : String) : Except LoadError DataType :=
  match r.legacyTypes.lookup (family, payload) with
  | some t => .ok t
  | none => .error (.unknownLegacyType family.name payload)

def loader (r : Registry) : Loader where
  restore := r.restore
  resolve := r.resolve

end Registry

/-- Whom to ask for raw and legacy types. -/
inductive LoaderChoice where
  | refusing | verbatim | registry | registryForRaw | registryForLegacy
  deriving DecidableEq, Repr

/-- The chosen loader; what a registry is not asked for is refused. -/
def LoaderChoice.loader (r : Registry) : LoaderChoice → Loader
  | .refusing => .refusing
  | .verbatim => .verbatim
  | .registry => r.loader
  | .registryForRaw => { Loader.refusing with restore := r.restore }
  | .registryForLegacy => { Loader.refusing with resolve := r.resolve }

end SqlTypes
