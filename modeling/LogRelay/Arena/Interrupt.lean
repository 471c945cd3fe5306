import LogRelay.Arena.Access
import LogRelay.Arena.Session

/-!
# Working with an arena from interrupt context

A user of an arena who does without its guard is refused a slot, and may leave bytes set
aside that nobody has.  Whether the guard is had is part of what the user does.
-/

namespace LogRelay.Arena

/-- What a user of an arena can do in interrupt context, or in any other. -/
inductive Turn where
  /-- A step of a caller that waits for the guard. -/
  | step (step : Step)
  /-- `entered` tells whether the caller has the guard. -/
  | allocate (entered : Bool) (length : Nat)
  | free (entered : Bool) (number : Nat)
  deriving Repr, DecidableEq

namespace Session

def turn (session : Session) : Turn → Session × Answer
  | .step step => session.step step
  | .allocate entered length =>
    match session.arena.allocateIn entered length with
    | .error cause => (session, .refused cause)
    | .ok (slot, arena) =>
      let (number, slots) := session.slots.add slot
      (⟨arena, slots⟩, .allocated number slot)
  | .free entered number =>
    match session.slots.get? number with
    | none => (session, .gone)
    | some slot => (⟨session.arena.freeIn entered slot, session.slots.remove number⟩, .done)

def after (session : Session) (turns : List Turn) : Session :=
  turns.foldl (fun current turn => (current.turn turn).1) session

def responses : Session → List Turn → List Answer
  | _, [] => []
  | session, turn :: rest => (session.turn turn).2 :: responses (session.turn turn).1 rest

end Session

end LogRelay.Arena
