import LogRelay.Config
import LogRelay.Queue
import LogRelay.Render.Replay
import LogRelay.Sink.Delivery
import LogRelay.Stats

/-!
# The logger

Call sites emit: they record their arguments in the arena and queue the message,
without rendering anything and without waiting.  The consumer dispatches: it renders
the oldest message and hands it to the sinks.  An emit that fails leaves nothing
behind but the count of its cause, and the slot that an interrupt handler had no guard
to give back.
-/

namespace LogRelay

inductive Consumer (β : Type) where
  | idle
  /-- Has its own copy of the registry, and memory that it renders into. -/
  | running (snapshot : Snapshot β) (memory : Memory)
  | stopped

/-- How a caller gets hold of the arena's guard, to take a slot and to give it back. -/
structure Caller where
  taking : Arena.Access := .waiting
  giving : Arena.Access := .waiting

/-- A caller who waits for the guard. -/
def Caller.task : Caller := {}

structure Logger (β ω : Type) where
  config : Config
  arena : Arena
  queue : Queue Message
  registry : Registry β := {}
  consumer : Consumer β := .idle
  stats : Stats := {}
  /-- The time stamp of the next message.  It stands in for a reading of the tick clock, whose
  values nothing here depends on: it counts the messages accepted. -/
  clock : UInt64 := 0
  /-- The static texts of the program that logs. -/
  texts : StaticTexts
  /-- What the sinks keep. -/
  world : ω

namespace Logger

variable {β ω α : Type}

/-- A logger without sinks whose consumer is yet to be started. -/
def create (hostMemory : Nat) (texts : StaticTexts) (world : ω) (config : Config) :
    Except SetupFault (Logger β ω) := do
  config.validate
  let arena ← Arena.create hostMemory config.arenaCapacity config.maxInFlight config.policy
  let queue ← Queue.create config.queueCapacity
  return { config, arena, queue, texts, world }

def isRunning (logger : Logger β ω) : Bool :=
  match logger.consumer with
  | .running _ _ => true
  | .idle | .stopped => false

/-- Adds a sink behind all others and gives its position. -/
def register (logger : Logger β ω) (registration : Registration β) : Nat × Logger β ω :=
  let (position, registry) := logger.registry.register registration
  (position, { logger with registry })

/-- Starts the consumer, which can be done once and only before the shutdown. -/
def start (logger : Logger β ω) : Except SetupFault (Logger β ω) :=
  match logger.consumer with
  | .idle => .ok { logger with consumer := .running {} {} }
  | .running _ _ => .error .alreadyStarted
  | .stopped => .error .shutDown

/-- Places a message and queues it, without counting failures. -/
def placeIn (took gave : Bool) (logger : Logger β ω) (request : Request) :
    Logger β ω × Except Failure Unit :=
  match request.format with
  | none => (logger, .error (.invalidArgument .absentFormat))
  | some format =>
    match Message.createIn took gave logger.arena logger.clock request format with
    | (arena, .error failure) => ({ logger with arena }, .error failure)
    | (arena, .ok message) =>
      match logger.queue.push message with
      | .ok queue =>
        ({ logger with
            arena, queue
            clock := logger.clock + 1
            stats := logger.stats.recordEmitted },
          .ok ())
      | .error cause =>
        ({ logger with arena := arena.freeIn gave message.slot },
          .error (.resourceExhausted cause))

/-- Whether a caller has the arena's guard when it is needed. -/
def enters (logger : Logger β ω) (access : Arena.Access) : Bool :=
  access.succeeds logger.config.interruptLockAttempts

/-- Queues a message of some caller for the sinks. -/
def emitIn (caller : Caller) (logger : Logger β ω) (request : Request) :
    Logger β ω × Except Failure Unit :=
  match placeIn (logger.enters caller.taking) (logger.enters caller.giving) logger request with
  | (placed, .ok ()) => (placed, .ok ())
  | (unplaced, .error failure) =>
    ({ unplaced with stats := unplaced.stats.recordFailure failure }, .error failure)

/-- Queues a message of a task for the sinks. -/
def emit (logger : Logger β ω) (request : Request) : Logger β ω × Except Failure Unit :=
  emitIn .task logger request

/-- Carries out what sinks do; no result when it ends in a panic. -/
def perform (logger : Logger β ω) : Act β ω α → Logger β ω × Option α
  | .done result => (logger, some result)
  | .panic => (logger, none)
  | .share change next =>
    perform { logger with world := change logger.world } (next logger.world)
  | .emit request next =>
    let (emitted, outcome) := logger.emit request
    perform emitted (next outcome)
  | .register registration next =>
    let (position, registered) := logger.register registration
    perform registered (next position)

/-- Dispatches the oldest queued message: renders it, hands it to the sinks that are
registered by now, and takes its slot back.  Nothing happens unless the consumer runs
and something is queued. -/
def dispatch (behaviour : Behaviour β ω) (logger : Logger β ω) : Logger β ω :=
  match logger.consumer, logger.queue.pop? with
  | .running snapshot memory, some (message, queue) =>
    let (current, _) := logger.registry.refresh snapshot
    let rendered :=
      Render.replayInto logger.texts (message.captured logger.arena)
        ⟨logger.config.formatBufferLength, memory, 0⟩ message.format
    let entry := message.entry logger.arena rendered.buffer.text
    let handling := { logger with queue, consumer := .running current rendered.buffer.memory }
    let (handled, result) := handling.perform (fanOut behaviour current.sinks entry)
    let tally := result.getD {}
    { handled with
      arena := handled.arena.free message.slot
      stats := handled.stats.recordDispatched (!rendered.complete) tally.panicked tally.skipped }
  | _, _ => logger

def dispatchMany (behaviour : Behaviour β ω) : Nat → Logger β ω → Logger β ω
  | 0, logger => logger
  | count + 1, logger => dispatchMany behaviour count (logger.dispatch behaviour)

/-- Takes every queued message out undispatched and its slot back. -/
def discardPending (logger : Logger β ω) : Logger β ω :=
  { logger with
    queue := logger.queue.clear
    arena := logger.queue.items.foldl (fun arena message => arena.free message.slot) logger.arena
    stats := logger.stats.recordDiscarded logger.queue.length }

/-- Closes the queue and stops the consumer.  A running consumer dispatches what is
queued first; without one, what is queued is discarded. -/
def shutdown (behaviour : Behaviour β ω) (logger : Logger β ω) : Logger β ω :=
  let closed := { logger with queue := logger.queue.close }
  match logger.consumer with
  | .idle => { closed.discardPending with consumer := .stopped }
  | .running _ _ => { dispatchMany behaviour closed.queue.length closed with consumer := .stopped }
  | .stopped => logger

def describe (logger : Logger β ω) : String :=
  Describe.structured "Logger"
    [("arena", logger.arena.describe), ("queue", logger.queue.describe),
      ("sinks", logger.registry.describe), ("running", Describe.truth logger.isRunning)]

end Logger

end LogRelay
