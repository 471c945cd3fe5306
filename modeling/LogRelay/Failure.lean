import LogRelay.Argument

/-!
# Failures

Why a message is refused or a logger cannot be set up.  Causes are told apart by
what went wrong; the wording is given once, by `Failure.message`.
-/

namespace LogRelay

open Format (Kind)

/-- The bounded resource that ran out. -/
inductive Exhaustion where
  | arenaFull
  | arenaContended
  | slotTooSmall (requested slotSize : Nat)
  | tooManyInFlight (limit : Nat)
  | queueFull
  | queueClosed
  deriving Repr, DecidableEq

/-- Why an argument list cannot be recorded for a format. -/
inductive CaptureFault where
  | missingArgument (index : Nat) (expected : Kind)
  | typeMismatch (index : Nat) (expected : Kind) (found : String)
  | surplusArguments (expected found : Nat)
  | bufferTooSmall (required available : Nat)
  deriving Repr, DecidableEq

inductive SetupFault where
  | zeroSetting (name : String)
  | noRoomForHeader (headerSize : Nat)
  | nulInThreadName
  | slotSizeOutOfRange (slotSize headerSize capacity : Nat)
  | emptyArena
  | nothingInFlight
  | emptySlot
  | arenaSmallerThanSlot
  | arenaBeyondAddressSpace
  | arenaBeyondMemory (capacity : Nat)
  | emptyQueue
  | alreadyStarted
  | shutDown
  /-- A fault given in words. -/
  | stated (reason : String)
  deriving Repr, DecidableEq

/-- Why a message cannot even be considered. -/
inductive InvalidInput where
  | absentFormat
  /-- A fault given in words. -/
  | stated (reason : String)
  deriving Repr, DecidableEq

/-- Every way in which an operation can fail. -/
inductive Failure where
  | invalidArgument (input : InvalidInput)
  | resourceExhausted (cause : Exhaustion)
  | transcription (fault : CaptureFault)
  | setup (fault : SetupFault)
  deriving Repr, DecidableEq

def Exhaustion.name : Exhaustion → String
  | arenaFull => "ArenaFull"
  | arenaContended => "ArenaContended"
  | slotTooSmall _ _ => "SlotTooSmall"
  | tooManyInFlight _ => "TooManyInFlight"
  | queueFull => "QueueFull"
  | queueClosed => "QueueClosed"

def Exhaustion.message : Exhaustion → String
  | arenaFull => "message arena is full"
  | arenaContended => "message arena guard was contended in interrupt context"
  | slotTooSmall requested slotSize =>
    s!"message needs {requested} bytes but slots hold {slotSize}"
  | tooManyInFlight limit => s!"{limit} messages already in flight"
  | queueFull => "dispatch queue is full"
  | queueClosed => "dispatch queue is closed"

def CaptureFault.name : CaptureFault → String
  | missingArgument _ _ => "MissingArgument"
  | typeMismatch _ _ _ => "TypeMismatch"
  | surplusArguments _ _ => "SurplusArguments"
  | bufferTooSmall _ _ => "BufferTooSmall"

def CaptureFault.message : CaptureFault → String
  | missingArgument index expected =>
    s!"conversion #{index} ({expected.name}) has no argument"
  | typeMismatch index expected found =>
    s!"conversion #{index} expects {expected.name} but got {found}"
  | surplusArguments expected found =>
    s!"format consumes {expected} arguments but {found} were supplied"
  | bufferTooSmall required available =>
    s!"destination holds {available} bytes but {required} are required"

def SetupFault.message : SetupFault → String
  | zeroSetting name => s!"{name} must be non-zero"
  | noRoomForHeader headerSize =>
    s!"arena_capacity must hold a {headerSize}-byte message header"
  | nulInThreadName => "consumer thread name contains a NUL byte"
  | slotSizeOutOfRange slotSize headerSize capacity =>
    s!"slab slot size {slotSize} must lie between {headerSize} and {capacity} bytes"
  | emptyArena => "arena capacity must be non-zero"
  | nothingInFlight => "arena must allow at least one message in flight"
  | emptySlot => "slab slot size must be non-zero"
  | arenaSmallerThanSlot => "arena capacity is smaller than one slab slot"
  | arenaBeyondAddressSpace => "arena layout: invalid parameters to Layout::from_size_align"
  | arenaBeyondMemory capacity => s!"could not allocate {capacity} arena bytes"
  | emptyQueue => "dispatch queue capacity must be non-zero"
  | alreadyStarted => "consumer already started"
  | shutDown => "logger is shut down"
  | stated reason => reason

def InvalidInput.message : InvalidInput → String
  | absentFormat => "format string is absent"
  | stated reason => reason

def Failure.name : Failure → String
  | invalidArgument _ => "InvalidArgument"
  | resourceExhausted _ => "ResourceExhausted"
  | transcription _ => "TranscriptionFailure"
  | setup _ => "InitializationFailure"

def Failure.message : Failure → String
  | invalidArgument input => s!"invalid argument: {input.message}"
  | resourceExhausted cause => s!"resource exhausted: {cause.message}"
  | transcription fault => s!"argument transcription failed: {fault.message}"
  | setup fault => s!"initialization failed: {fault.message}"

end LogRelay
