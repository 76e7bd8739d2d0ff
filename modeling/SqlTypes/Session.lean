import SqlTypes.Blueprint
import SqlTypes.Limits.Json

/-!
# Sessions

A session keeps the limits, the choice of a loader, a registry and the metrics between one request
and the next.
-/

namespace SqlTypes

structure Session where
  limits : Limits := {}
  choice : LoaderChoice := .refusing
  registry : Registry := {}
  metrics : Metrics := {}

namespace Session

def loader (s : Session) : Loader :=
  s.choice.loader s.registry

def context (s : Session) : Context :=
  { limits := s.limits, loader := s.loader }

/-- Takes the limits from a JSON text; a text that gives none changes nothing. -/
def configure? (codec : JsonCodec) (text : String) (s : Session) : Option Session :=
  (Limits.ofJson? codec text).map fun limits => { s with limits }

/-- Registers a type made after a blueprint. What the blueprint parses counts even if it fails. -/
def registerLegacy (family : Family) (payload : String) (b : Blueprint) (s : Session) :
    Except Failure Unit × Session :=
  match b.build.run s.metrics with
  | .ok t metrics =>
    (.ok (), { s with metrics, registry := s.registry.registerLegacy family payload t })
  | .error e metrics => (.error e, { s with metrics })

/-- Parses a text in the context of the session. -/
def parse (input : String) (s : Session) : Except Failure DataType × Session :=
  match (parseCounting s.context input).run s.metrics with
  | .ok t metrics => (.ok t, { s with metrics })
  | .error e metrics => (.error e, { s with metrics })

end Session

end SqlTypes
