import LogRelay.Arena.Basic

/-!
# Getting at an arena

A guard keeps the callers of an arena apart.  A task waits for it.  Interrupt context
must not wait: it tries for the guard a bounded number of times and then does without.
What it wanted to take is refused then, and a slot that it wanted to give back is counted
as given back while its bytes stay set aside until the arena is reset.
-/

namespace LogRelay.Arena

inductive Access where
  | waiting
  /-- `isFree` tells which of the tries find the guard free. -/
  | trying (isFree : Nat → Bool)

/-- Whether the guard is had within a number of tries, one of which is made in any
case. -/
def Access.succeeds (attempts : Nat) : Access → Bool
  | .waiting => true
  | .trying isFree => (List.range (max attempts 1)).any isFree

/-- Hands out a slot to a caller with or without the guard. -/
def allocateIn (arena : Arena) (entered : Bool) (length : Nat) :
    Except Exhaustion (Slot × Arena) :=
  if entered then arena.allocate length else .error .arenaContended

/-- Takes a slot back from a caller with or without the guard. -/
def freeIn (arena : Arena) (entered : Bool) (slot : Slot) : Arena :=
  if entered then arena.free slot else { arena with live := arena.live - 1 }

@[simp]
theorem allocateIn_true (arena : Arena) (length : Nat) :
    arena.allocateIn true length = arena.allocate length := rfl

/-- Without the guard nothing is handed out. -/
theorem allocate_of_allocateIn {arena after : Arena} {entered : Bool} {length : Nat} {slot : Slot}
    (heq : arena.allocateIn entered length = .ok (slot, after)) :
    arena.allocate length = .ok (slot, after) := by
  cases entered with
  | true => exact heq
  | false => exact absurd heq (by simp [allocateIn])

@[simp]
theorem freeIn_true (arena : Arena) (slot : Slot) : arena.freeIn true slot = arena.free slot := rfl

end LogRelay.Arena
