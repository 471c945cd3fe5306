import LogRelay.Describe
import LogRelay.Failure
import LogRelay.Memory

/-!
# The message arena

An arena hands out slots, byte ranges of one region of fixed capacity, and takes
them back.  Under the bump policy slots lie one behind the other up to a cursor,
and a freed slot gives its bytes back only when it ends at the cursor.  Under the
slab policy the region is cut into slots of one size, kept by index on a stack of
free ones, so that any order of frees gives everything back.
-/

namespace LogRelay

/-- How freed slots return to the arena. -/
inductive Policy where
  | bump
  | slab (slotSize : Nat)
  deriving Repr, DecidableEq

/-- A range of arena bytes in one owner's hands. -/
structure Slot where
  offset : Nat
  length : Nat
  /-- The bytes set aside for the slot: its length, or a whole slab slot. -/
  reserved : Nat
  deriving Repr, DecidableEq

structure Arena where
  capacity : Nat
  /-- The most slots that may be live at once. -/
  maxInFlight : Nat
  policy : Policy
  region : Memory := {}
  /-- End of the bump allocations. -/
  cursor : Nat := 0
  /-- Free slab indices, the next to be handed out first. -/
  freeSlots : List Nat
  /-- Slots handed out and not yet freed. -/
  live : Nat := 0
  /-- The most bytes ever in use. -/
  peak : Nat := 0
  deriving Repr, DecidableEq

namespace Arena

/-- The most bytes a region can have once it is aligned to eight. -/
def addressSpace : Nat := Nat.pow 2 63 - 8

def slotCount : Policy → Nat → Nat
  | .bump, _ => 0
  | .slab slotSize, capacity => capacity / slotSize

/-- The free stack of an unused arena: every slab index, lowest first. -/
def allSlots (policy : Policy) (capacity : Nat) : List Nat :=
  List.range (slotCount policy capacity)

/-- An unused arena of zeroed bytes, on a host that can provide `hostMemory` bytes. -/
def create (hostMemory capacity maxInFlight : Nat) (policy : Policy) :
    Except SetupFault Arena :=
  if capacity = 0 then .error .emptyArena
  else if maxInFlight = 0 then .error .nothingInFlight
  else if policy = .slab 0 then .error .emptySlot
  else if policy ≠ .bump ∧ slotCount policy capacity = 0 then .error .arenaSmallerThanSlot
  else if addressSpace < capacity then .error .arenaBeyondAddressSpace
  else if hostMemory < capacity then .error (.arenaBeyondMemory capacity)
  else .ok { capacity, maxInFlight, policy, freeSlots := allSlots policy capacity }

/-- The bytes set aside, for live slots or stranded behind them. -/
def usedBytes (arena : Arena) : Nat :=
  match arena.policy with
  | .bump => arena.cursor
  | .slab slotSize =>
    (slotCount arena.policy arena.capacity - arena.freeSlots.length) * slotSize

/-- Sets a slot of `length` bytes aside: the slot, the cursor after it and the free
stack after it.  The live limit is not looked at. -/
def place (arena : Arena) (length : Nat) : Except Exhaustion (Slot × Nat × List Nat) :=
  match arena.policy with
  | .bump =>
    if arena.capacity - arena.cursor < length then .error .arenaFull
    else
      .ok (⟨arena.cursor, length, length⟩, arena.cursor + length, arena.freeSlots)
  | .slab slotSize =>
    if slotSize < length then .error (.slotTooSmall length slotSize)
    else
      match arena.freeSlots with
      | [] => .error .arenaFull
      | index :: rest => .ok (⟨index * slotSize, length, slotSize⟩, arena.cursor, rest)

/-- Hands out a slot of `length` bytes.  Want of space is reported, never waited
for. -/
def allocate (arena : Arena) (length : Nat) : Except Exhaustion (Slot × Arena) :=
  if arena.maxInFlight ≤ arena.live then .error (.tooManyInFlight arena.maxInFlight)
  else
    match arena.place length with
    | .error cause => .error cause
    | .ok (slot, cursor, freeSlots) =>
      let taken := { arena with cursor, freeSlots, live := arena.live + 1 }
      .ok (slot, { taken with peak := max taken.peak taken.usedBytes })

def free (arena : Arena) (slot : Slot) : Arena :=
  let released := { arena with live := arena.live - 1 }
  match arena.policy with
  | .bump =>
    if slot.offset + slot.reserved = arena.cursor then { released with cursor := slot.offset }
    else released
  | .slab slotSize =>
    { released with freeSlots := slot.offset / slotSize :: arena.freeSlots }

/-- Takes the whole region back, unless a slot is live. -/
def reset (arena : Arena) : Arena × Bool :=
  if arena.live = 0 then
    ({ arena with cursor := 0, freeSlots := allSlots arena.policy arena.capacity }, true)
  else (arena, false)

def read (arena : Arena) (slot : Slot) : List UInt8 :=
  arena.region.read slot.offset slot.length

/-- Puts bytes into a slot, `start` bytes behind its beginning; bytes beyond its end
are not written. -/
def write (arena : Arena) (slot : Slot) (start : Nat) (bytes : List UInt8) : Arena :=
  { arena with
    region := arena.region.write (slot.offset + start) (bytes.take (slot.length - start)) }

end Arena

def Policy.describe : Policy → String
  | bump => "Bump"
  | slab slotSize => Describe.structured "Slab" [("slot_size", toString slotSize)]

def Arena.describe (arena : Arena) : String :=
  Describe.structured "MessageArena"
    [("capacity", toString arena.capacity), ("policy", arena.policy.describe),
      ("used_bytes", toString arena.usedBytes), ("live_slots", toString arena.live)]

def Slot.describe (slot : Slot) : String :=
  Describe.structured "ArgSlot"
    [("offset", toString slot.offset), ("len", toString slot.length)]

end LogRelay
