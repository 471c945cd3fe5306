import LogRelay.Arena.Basic
import LogRelay.Numbered

/-!
# Working with an arena

A session is an arena together with the slots that its user holds.  Each step is
one call on the arena or one access to a held slot; a step on a slot that is not
held changes nothing.
-/

namespace LogRelay.Arena

inductive Step where
  | allocate (length : Nat)
  | free (number : Nat)
  | reset
  /-- Overwrites a whole slot with one byte. -/
  | fill (number : Nat) (byte : UInt8)
  /-- Puts bytes into a slot, `start` bytes behind its beginning. -/
  | write (number start : Nat) (bytes : List UInt8)
  | read (number : Nat)
  /-- Describes the arena. -/
  | describe
  /-- Describes a slot. -/
  | describeSlot (number : Nat)
  deriving Repr, DecidableEq

inductive Answer where
  | allocated (number : Nat) (slot : Slot)
  | refused (cause : Exhaustion)
  | done
  | wasReset (success : Bool)
  | bytes (content : List UInt8)
  | description (text : String)
  /-- The slot is not held, or no longer. -/
  | gone
  deriving Repr, DecidableEq

/-- An arena and the slots held on it. -/
structure Session where
  arena : Arena
  slots : Numbered Slot := {}
  deriving Repr, DecidableEq

namespace Session

def step (session : Session) : Step → Session × Answer
  | .allocate length =>
    match session.arena.allocate length with
    | .error cause => (session, .refused cause)
    | .ok (slot, arena) =>
      let (number, slots) := session.slots.add slot
      (⟨arena, slots⟩, .allocated number slot)
  | .free number =>
    match session.slots.get? number with
    | none => (session, .gone)
    | some slot => (⟨session.arena.free slot, session.slots.remove number⟩, .done)
  | .reset =>
    let (arena, success) := session.arena.reset
    ({ session with arena }, .wasReset success)
  | .fill number byte =>
    match session.slots.get? number with
    | none => (session, .gone)
    | some slot =>
      ({ session with arena := session.arena.write slot 0 (List.replicate slot.length byte) },
        .done)
  | .write number start bytes =>
    match session.slots.get? number with
    | none => (session, .gone)
    | some slot => ({ session with arena := session.arena.write slot start bytes }, .done)
  | .read number =>
    match session.slots.get? number with
    | none => (session, .gone)
    | some slot => (session, .bytes (session.arena.read slot))
  | .describe => (session, .description session.arena.describe)
  | .describeSlot number =>
    match session.slots.get? number with
    | none => (session, .gone)
    | some slot => (session, .description slot.describe)

end Session

end LogRelay.Arena
