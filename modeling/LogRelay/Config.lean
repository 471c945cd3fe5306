import LogRelay.Message

/-!
# Configuration

The sizes and names that a logger is made with, and what makes them usable.
-/

namespace LogRelay

structure Config where
  arenaCapacity : Nat := 1024
  queueCapacity : Nat := 32
  maxInFlight : Nat := 32
  consumerStackSize : Nat := 2048
  consumerThreadName : String := "LogThread"
  /-- The most bytes of text that a message is rendered to. -/
  formatBufferLength : Nat := 256
  /-- How often interrupt context tries to enter the arena before it gives up. -/
  interruptLockAttempts : Nat := 1
  policy : Policy := .bump
  deriving Repr, DecidableEq

namespace Config

/-- The least stack that the consumer runs on. -/
def minConsumerStack : Nat := 64 * 1024

def effectiveStackSize (config : Config) : Nat :=
  max config.consumerStackSize minConsumerStack

/-- The settings that must not be zero, by name. -/
def positiveSettings (config : Config) : List (String × Nat) :=
  [("arena_capacity", config.arenaCapacity), ("queue_capacity", config.queueCapacity),
    ("max_in_flight", config.maxInFlight), ("format_buffer_len", config.formatBufferLength)]

/-- The first thing that is wrong with a configuration, if anything is. -/
def validate (config : Config) : Except SetupFault Unit :=
  match config.positiveSettings.find? (·.2 = 0) with
  | some (name, _) => .error (.zeroSetting name)
  | none =>
    if config.arenaCapacity < Message.headerSize then
      .error (.noRoomForHeader Message.headerSize)
    else if config.consumerThreadName.contains '\x00' then .error .nulInThreadName
    else
      match config.policy with
      | .bump => .ok ()
      | .slab slotSize =>
        if slotSize < Message.headerSize ∨ config.arenaCapacity < slotSize then
          .error (.slotSizeOutOfRange slotSize Message.headerSize config.arenaCapacity)
        else .ok ()

end Config

end LogRelay
