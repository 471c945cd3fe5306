import LogRelay.Arena.Interrupt
import LogRelay.Message
import LogRelay.Queue

/-!
# Working with a queue

A session is a queue together with arenas, and with the messages that its users have in
hand.  A message is built in one of the arenas, pushed and popped, and dropped in the end,
while the arenas are used for other things as well.
-/

namespace LogRelay.Queue

/-- A message with the number of the arena that it lives in.  What it was built from is kept
beside it. -/
structure Parcel where
  arena : Nat
  message : Message
  ticks : UInt64
  request : Request

/-- What the users of a queue can do, and those of the arenas. -/
inductive Step where
  /-- Builds a message in an arena.  `took` and `gave` tell whether whoever builds it has the
  arena's guard to take a slot and to give it back. -/
  | build (arena : Nat) (took gave : Bool) (ticks : UInt64) (request : Request)
  | push (number : Nat)
  /-- Takes the oldest message out, if there is one. -/
  | pop
  /-- Gives the slot of a message back, with or without the guard of its arena. -/
  | drop (entered : Bool) (number : Nat)
  /-- Closes the queue, as a shutdown does; a running consumer then pops what is queued. -/
  | close
  /-- Shuts down without a consumer: closes the queue and discards what is queued. -/
  | shutdown
  /-- Works with an arena's slots other than those of messages. -/
  | arena (number : Nat) (turn : Arena.Turn)

inductive Answer where
  | built (number : Nat)
  | failed (failure : Failure)
  | accepted (parcel : Parcel)
  /-- A message came back under a new number. -/
  | refused (cause : Exhaustion) (number : Nat) (parcel : Parcel)
  | popped (number : Nat) (parcel : Parcel)
  /-- The queue was empty. -/
  | nothing
  | discarded (parcels : List Parcel)
  /-- The message is not held, or no longer. -/
  | gone
  | done
  | arena (answer : Arena.Answer)

/-- A queue, numbered arenas, and the messages in users' hands. -/
structure Session where
  queue : Queue Parcel
  arenas : Nat → Arena.Session
  parcels : Numbered Parcel := {}

def replace (arenas : Nat → Arena.Session) (number : Nat) (arena : Arena.Session) :
    Nat → Arena.Session :=
  fun other => if other = number then arena else arenas other

/-- The arenas once the slot of a message is back. -/
def giveBack (entered : Bool) (arenas : Nat → Arena.Session) (parcel : Parcel) :
    Nat → Arena.Session :=
  let used := arenas parcel.arena
  replace arenas parcel.arena
    { used with arena := used.arena.freeIn entered parcel.message.slot }

namespace Session

def step (session : Session) : Step → Session × Answer
  | .build number took gave ticks request =>
    match request.format with
    | none => (session, .failed (.invalidArgument .absentFormat))
    | some format =>
      let used := session.arenas number
      match Message.createIn took gave used.arena ticks request format with
      | (arena, .error failure) =>
        ({ session with arenas := replace session.arenas number { used with arena } },
          .failed failure)
      | (arena, .ok message) =>
        let (next, parcels) := session.parcels.add ⟨number, message, ticks, request⟩
        ({ session with arenas := replace session.arenas number { used with arena }, parcels },
          .built next)
  | .push number =>
    match session.parcels.get? number with
    | none => (session, .gone)
    | some parcel =>
      let others := session.parcels.remove number
      match session.queue.push parcel with
      | .ok queue => ({ session with queue, parcels := others }, .accepted parcel)
      | .error cause =>
        let (next, parcels) := others.add parcel
        ({ session with parcels }, .refused cause next parcel)
  | .pop =>
    match session.queue.pop? with
    | none => (session, .nothing)
    | some (parcel, queue) =>
      let (number, parcels) := session.parcels.add parcel
      ({ session with queue, parcels }, .popped number parcel)
  | .drop entered number =>
    match session.parcels.get? number with
    | none => (session, .gone)
    | some parcel =>
      ({ session with
          arenas := giveBack entered session.arenas parcel
          parcels := session.parcels.remove number },
        .done)
  | .close => ({ session with queue := session.queue.close }, .done)
  | .shutdown =>
    ({ session with
        queue := session.queue.close.clear
        arenas := session.queue.items.foldl (giveBack true) session.arenas },
      .discarded session.queue.items)
  | .arena number turn =>
    let (after, answer) := (session.arenas number).turn turn
    ({ session with arenas := replace session.arenas number after }, .arena answer)

def after (session : Session) (steps : List Step) : Session :=
  steps.foldl (fun current step => (current.step step).1) session

def answers : Session → List Step → List Answer
  | _, [] => []
  | session, step :: rest => (session.step step).2 :: answers (session.step step).1 rest

end Session

end LogRelay.Queue
