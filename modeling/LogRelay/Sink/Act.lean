import LogRelay.Failure
import LogRelay.Message
import LogRelay.Sink.Registry

/-!
# What sinks do

A sink handed an entry may look at and change state of its own, emit further
messages and register further sinks on the logger that called it, and it may panic.
An act is a description of such doings, each continued with its result; the logger
carries it out.  `β` names sinks and `ω` is the state they keep.
-/

namespace LogRelay

/-- A course of action that ends with a result or in a panic. -/
inductive Act (β ω α : Type) where
  | done (result : α)
  | panic
  /-- Changes the sinks' state and goes on with the state from before. -/
  | share (change : ω → ω) (next : ω → Act β ω α)
  /-- Emits a message and goes on with the outcome. -/
  | emit (request : Request) (next : Except Failure Unit → Act β ω α)
  /-- Registers a sink and goes on with its position. -/
  | register (registration : Registration β) (next : Nat → Act β ω α)

namespace Act

variable {β ω α γ : Type}

/-- One act after the other. -/
def bind : Act β ω α → (α → Act β ω γ) → Act β ω γ
  | done result, rest => rest result
  | panic, _ => panic
  | share change next, rest => share change fun world => (next world).bind rest
  | emit request next, rest => emit request fun outcome => (next outcome).bind rest
  | register registration next, rest =>
    register registration fun position => (next position).bind rest

instance : Monad (Act β ω) where
  pure := done
  bind := bind

/-- The same act with a panic turned into a missing result. -/
def attempt : Act β ω α → Act β ω (Option α)
  | done result => done (some result)
  | panic => done none
  | share change next => share change fun world => (next world).attempt
  | emit request next => emit request fun outcome => (next outcome).attempt
  | register registration next => register registration fun position => (next position).attempt

def world : Act β ω ω :=
  share id done

def modify (change : ω → ω) : Act β ω Unit :=
  share change fun _ => done ()

end Act

end LogRelay
