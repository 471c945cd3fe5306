import LogRelay.Logger.Session

/-!
# Working with a logger from interrupt context

In interrupt context the guard of the arena is not waited for, so that what a user of a
logger does there may fail of it, or leave bytes behind.
-/

namespace LogRelay

namespace Logger

variable {β ω : Type}

/-- What a user of a logger can do in interrupt context, or in any other. -/
inductive Turn (β : Type) where
  /-- A step of a caller that waits, or of the consumer. -/
  | step (step : Step β)
  | emit (caller : Caller) (request : Request)
  | allocate (access : Arena.Access) (length : Nat)
  | free (access : Arena.Access) (number : Nat)

namespace Session

def turn (behaviour : Behaviour β ω) (session : Session β ω) : Turn β → Session β ω × Answer
  | .step step => session.step behaviour step
  | .emit caller request =>
    match session.logger.emitIn caller request with
    | (logger, .ok ()) => ({ session with logger }, .done)
    | (logger, .error failure) => ({ session with logger }, .failed failure)
  | .allocate access length =>
    match session.logger.arena.allocateIn (session.logger.enters access) length with
    | .error cause => (session, .arena (.refused cause))
    | .ok (slot, arena) =>
      let (number, slots) := session.slots.add slot
      ({ session with logger := { session.logger with arena }, slots },
        .arena (.allocated number slot))
  | .free access number =>
    match session.slots.get? number with
    | none => (session, .arena .gone)
    | some slot =>
      let arena := session.logger.arena.freeIn (session.logger.enters access) slot
      ({ session with
          logger := { session.logger with arena }
          slots := session.slots.remove number },
        .arena .done)

def after (behaviour : Behaviour β ω) (session : Session β ω) (turns : List (Turn β)) :
    Session β ω :=
  turns.foldl (fun current turn => (current.turn behaviour turn).1) session

end Session

end Logger

end LogRelay
