import LogRelay.Describe
import LogRelay.Failure

/-!
# The dispatch queue

A queue holds a bounded number of items in order of arrival.  A push never waits: a
full queue refuses it, and so does a closed one, full or not.  Items that were
already in a queue when it closed can still be taken out.
-/

namespace LogRelay

structure Queue (α : Type) where
  capacity : Nat
  closed : Bool := false
  /-- What is queued, the oldest first. -/
  items : List α := []
  deriving Repr, DecidableEq

namespace Queue

variable {α : Type}

def create (capacity : Nat) : Except SetupFault (Queue α) :=
  if capacity = 0 then .error .emptyQueue else .ok { capacity }

def length (queue : Queue α) : Nat :=
  queue.items.length

def isEmpty (queue : Queue α) : Bool :=
  queue.items.isEmpty

def isFull (queue : Queue α) : Bool :=
  queue.capacity ≤ queue.length

def push (queue : Queue α) (item : α) : Except Exhaustion (Queue α) :=
  if queue.closed then .error .queueClosed
  else if queue.isFull then .error .queueFull
  else .ok { queue with items := queue.items ++ [item] }

/-- Takes the oldest item out. -/
def pop? (queue : Queue α) : Option (α × Queue α) :=
  match queue.items with
  | [] => none
  | item :: rest => some (item, { queue with items := rest })

/-- Refuses all pushes from now on. -/
def close (queue : Queue α) : Queue α :=
  { queue with closed := true }

def clear (queue : Queue α) : Queue α :=
  { queue with items := [] }

theorem push_eq_ok_iff (queue after : Queue α) (item : α) :
    queue.push item = .ok after ↔
      (queue.closed = false ∧ queue.length < queue.capacity) ∧
        after = { queue with items := queue.items ++ [item] } := by
  cases hclosed : queue.closed with
  | true => simp [push, hclosed]
  | false =>
    by_cases hfull : queue.capacity ≤ queue.length
    · simp [push, isFull, hclosed, hfull, Nat.not_lt_of_le hfull]
    · simp [push, isFull, hclosed, hfull, Nat.lt_of_not_le hfull, eq_comm]

theorem push_eq_error {queue : Queue α} {item : α} {cause : Exhaustion}
    (heq : queue.push item = .error cause) : cause = .queueClosed ∨ cause = .queueFull := by
  rw [push] at heq
  split at heq
  · exact Or.inl (Except.error.inj heq).symm
  · split at heq
    · exact Or.inr (Except.error.inj heq).symm
    · exact absurd heq (by simp)

theorem items_of_pop?_eq_some {queue after : Queue α} {item : α}
    (heq : queue.pop? = some (item, after)) : queue.items = item :: after.items := by
  rw [pop?] at heq
  split at heq
  · exact absurd heq (by simp)
  · next first rest hitems =>
    obtain ⟨rfl, rfl⟩ := Prod.mk.inj (Option.some.inj heq)
    exact hitems

def describe (queue : Queue α) : String :=
  Describe.structured "DispatchQueue"
    [("len", toString queue.length), ("capacity", toString queue.capacity),
      ("closed", Describe.truth queue.closed)]

def describeRefusal (cause : Exhaustion) : String :=
  Describe.structured "PushError" [("cause", cause.name)]

end Queue

end LogRelay
