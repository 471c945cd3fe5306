import LogRelay.Arena.Session
import LogRelay.Logger.Basic

/-!
# Working with a logger

A session is a logger together with the arena slots and the queued messages that its
user has taken into hand.  Each step is one whole operation; the dispatch of a
message is a step of its own.
-/

namespace LogRelay.Logger

inductive Step (β : Type) where
  | register (registration : Registration β)
  | start
  | shutdown
  | emit (request : Request)
  /-- The consumer dispatches one message. -/
  | dispatch
  /-- Takes the oldest message out of the queue. -/
  | pop
  /-- Puts a message that was taken out back at the tail of the queue. -/
  | push (number : Nat)
  /-- Gives the slot of a message that was taken out back to the arena. -/
  | drop (number : Nat)
  /-- Works with the logger's arena. -/
  | arena (step : Arena.Step)
  /-- Describes the logger. -/
  | describe
  /-- Describes a message that was taken out. -/
  | describeMessage (number : Nat)

inductive Answer where
  | done
  /-- The counters at the end. -/
  | stopped (stats : Stats)
  | registered (position : Nat)
  | failed (failure : Failure)
  | popped (number : Nat) (message : Message)
  /-- The queue was empty. -/
  | nothing
  /-- A message came back under a new number. -/
  | refused (cause : Exhaustion) (number : Nat)
  /-- The message is not held, or no longer. -/
  | gone
  | arena (answer : Arena.Answer)
  | description (text : String)

/-- A logger, and the slots and messages held from it. -/
structure Session (β ω : Type) where
  logger : Logger β ω
  slots : Numbered Slot := {}
  messages : Numbered Message := {}

namespace Session

variable {β ω : Type}

def step (behaviour : Behaviour β ω) (session : Session β ω) : Step β → Session β ω × Answer
  | .register registration =>
    let (position, logger) := session.logger.register registration
    ({ session with logger }, .registered position)
  | .start =>
    match session.logger.start with
    | .ok logger => ({ session with logger }, .done)
    | .error fault => (session, .failed (.setup fault))
  | .shutdown =>
    let logger := session.logger.shutdown behaviour
    ({ session with logger }, .stopped logger.stats)
  | .emit request =>
    match session.logger.emit request with
    | (logger, .ok ()) => ({ session with logger }, .done)
    | (logger, .error failure) => ({ session with logger }, .failed failure)
  | .dispatch => ({ session with logger := session.logger.dispatch behaviour }, .done)
  | .pop =>
    match session.logger.queue.pop? with
    | none => (session, .nothing)
    | some (message, queue) =>
      let (number, messages) := session.messages.add message
      ({ session with logger := { session.logger with queue }, messages },
        .popped number message)
  | .push number =>
    match session.messages.get? number with
    | none => (session, .gone)
    | some message =>
      let others := session.messages.remove number
      match session.logger.queue.push message with
      | .ok queue =>
        ({ session with logger := { session.logger with queue }, messages := others }, .done)
      | .error cause =>
        let (next, messages) := others.add message
        ({ session with messages }, .refused cause next)
  | .drop number =>
    match session.messages.get? number with
    | none => (session, .gone)
    | some message =>
      let arena := session.logger.arena.free message.slot
      ({ session with
          logger := { session.logger with arena }
          messages := session.messages.remove number },
        .done)
  | .arena step =>
    let (after, answer) := Arena.Session.step ⟨session.logger.arena, session.slots⟩ step
    ({ session with logger := { session.logger with arena := after.arena }, slots := after.slots },
      .arena answer)
  | .describe => (session, .description session.logger.describe)
  | .describeMessage number =>
    match session.messages.get? number with
    | none => (session, .gone)
    | some message => (session, .description (message.describe session.logger.arena))

/-- Dispatches until nothing is queued, or `limit` messages are dispatched. -/
def settle (behaviour : Behaviour β ω) : (limit : Nat) → Session β ω → Session β ω
  | 0, session => session
  | limit + 1, session =>
    if session.logger.isRunning ∧ ¬session.logger.queue.isEmpty then
      settle behaviour limit (session.step behaviour .dispatch).1
    else session

end Session

end LogRelay.Logger
