import LogRelay.Failure

/-!
# Counters

Dropping a message is silent where it happens, but each drop is counted by its
cause, so that one can tell afterwards how much was lost and why.
-/

namespace LogRelay

structure Stats where
  /-- Messages accepted into the queue. -/
  emitted : Nat := 0
  /-- Messages handed to the sinks. -/
  dispatched : Nat := 0
  droppedArena : Nat := 0
  droppedQueue : Nat := 0
  droppedTranscription : Nat := 0
  rejectedInvalid : Nat := 0
  /-- Accepted messages that were never dispatched. -/
  discarded : Nat := 0
  /-- Dispatched messages whose text was cut off. -/
  truncated : Nat := 0
  sinkPanics : Nat := 0
  sinksSkipped : Nat := 0
  deriving Repr, DecidableEq

namespace Stats

/-- Messages lost, for whatever reason but an invalid call. -/
def dropped (stats : Stats) : Nat :=
  stats.droppedArena + stats.droppedQueue + stats.droppedTranscription + stats.discarded

/-- Messages accepted and still to be dispatched. -/
def pending (stats : Stats) : Nat :=
  stats.emitted - stats.dispatched - stats.discarded

def recordEmitted (stats : Stats) : Stats :=
  { stats with emitted := stats.emitted + 1 }

def recordDiscarded (stats : Stats) (count : Nat) : Stats :=
  { stats with discarded := stats.discarded + count }

/-- Counts a dispatched message and what its sinks did. -/
def recordDispatched (stats : Stats) (truncated : Bool) (panics skips : Nat) : Stats :=
  { stats with
    dispatched := stats.dispatched + 1
    truncated := stats.truncated + if truncated then 1 else 0
    sinkPanics := stats.sinkPanics + panics
    sinksSkipped := stats.sinksSkipped + skips }

/-- Counts a refused message by the cause of its refusal. -/
def recordFailure (stats : Stats) : Failure → Stats
  | .invalidArgument _ => { stats with rejectedInvalid := stats.rejectedInvalid + 1 }
  | .transcription _ => { stats with droppedTranscription := stats.droppedTranscription + 1 }
  | .resourceExhausted .queueFull | .resourceExhausted .queueClosed =>
    { stats with droppedQueue := stats.droppedQueue + 1 }
  | .resourceExhausted _ => { stats with droppedArena := stats.droppedArena + 1 }
  | .setup _ => stats

end Stats

end LogRelay
