import LogRelay.Describe

/-!
# The sink registry

Sinks are added at the tail and never removed, so every message meets them in the
order of their registration.  A snapshot is a private copy of the registry that is
brought up to date only when something was registered since it last was.
-/

namespace LogRelay

/-- A registered sink.  A detached one has a name only and is passed over. -/
structure Registration (β : Type) where
  name : String
  sink : Option β
  deriving Repr, DecidableEq

/-- The sinks in the order of their registration. -/
structure Registry (β : Type) where
  sinks : List (Registration β) := []
  /-- Counts registrations. -/
  generation : Nat := 0

/-- A copy of a registry as it once was. -/
structure Snapshot (β : Type) where
  sinks : List (Registration β) := []
  generation : Nat := 0

variable {β : Type}

namespace Registration

def isDetached (registration : Registration β) : Bool :=
  registration.sink.isNone

def describe (registration : Registration β) : String :=
  Describe.structured "SinkHandle"
    [("name", Describe.text registration.name),
      ("detached", Describe.truth registration.isDetached)]

end Registration

namespace Registry

def names (registry : Registry β) : List String :=
  registry.sinks.map (·.name)

/-- Adds a sink at the tail and gives its position. -/
def register (registry : Registry β) (registration : Registration β) : Nat × Registry β :=
  (registry.sinks.length,
    { sinks := registry.sinks ++ [registration], generation := registry.generation + 1 })

/-- Brings a snapshot up to date; true when that changed it. -/
def refresh (registry : Registry β) (snapshot : Snapshot β) : Snapshot β × Bool :=
  if registry.generation = snapshot.generation then (snapshot, false)
  else ({ sinks := registry.sinks, generation := registry.generation }, true)

def describe (registry : Registry β) : String :=
  Describe.listed (registry.sinks.map Registration.describe)

end Registry

end LogRelay
