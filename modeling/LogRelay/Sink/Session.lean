import LogRelay.Sink.Registry

/-!
# Working with a registry

A session is a registry together with any number of snapshots.  Each of them is empty when
it is made, at the beginning or at any later time.
-/

namespace LogRelay.Registry

variable {β : Type}

inductive Step (β : Type) where
  | register (registration : Registration β)
  /-- Brings the snapshot with this number up to date. -/
  | refresh (number : Nat)

inductive Answer where
  | registered (position : Nat)
  | refreshed (changed : Bool)
  deriving Repr, DecidableEq

/-- A registry and its numbered snapshots. -/
structure Session (β : Type) where
  registry : Registry β := {}
  snapshots : Nat → Snapshot β := fun _ => {}

def Session.step (session : Session β) : Step β → Session β × Answer
  | .register registration =>
    let (position, registry) := session.registry.register registration
    ({ session with registry }, .registered position)
  | .refresh number =>
    let (snapshot, changed) := session.registry.refresh (session.snapshots number)
    ({ session with
        snapshots := fun other => if other = number then snapshot else session.snapshots other },
      .refreshed changed)

/-- Puts a new snapshot in the place of the one with this number. -/
def Session.create (session : Session β) (number : Nat) : Session β :=
  { session with
    snapshots := fun other => if other = number then {} else session.snapshots other }

/-- What can be done with a registry and its snapshots. -/
inductive Turn (β : Type) where
  | step (step : Step β)
  | create (number : Nat)

def Session.turn (session : Session β) : Turn β → Session β
  | .step step => (session.step step).1
  | .create number => session.create number

def Session.after (session : Session β) (turns : List (Turn β)) : Session β :=
  turns.foldl Session.turn session

end LogRelay.Registry
