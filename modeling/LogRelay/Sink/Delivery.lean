import LogRelay.Entry
import LogRelay.Sink.Act

/-!
# Delivery to sinks

An entry is delivered to sinks one after the other.  A detached sink is passed over,
and a panic ends only the sink that panicked.
-/

namespace LogRelay

/-- What came of handing an entry to a sink. -/
inductive Delivery where
  | delivered
  | skipped
  | panicked
  deriving Repr, DecidableEq

structure Tally where
  delivered : Nat := 0
  skipped : Nat := 0
  panicked : Nat := 0
  deriving Repr, DecidableEq

def Tally.count (tally : Tally) : Delivery → Tally
  | .delivered => { tally with delivered := tally.delivered + 1 }
  | .skipped => { tally with skipped := tally.skipped + 1 }
  | .panicked => { tally with panicked := tally.panicked + 1 }

/-- What each sink does with an entry. -/
abbrev Behaviour (β ω : Type) := β → Entry → Act β ω Unit

variable {β ω : Type}

def deliver (behaviour : Behaviour β ω) (entry : Entry) (registration : Registration β) :
    Act β ω Delivery :=
  match registration.sink with
  | none => .done .skipped
  | some sink =>
    (behaviour sink entry).attempt.bind fun finished =>
      .done (if finished.isSome then .delivered else .panicked)

/-- Hands an entry to sinks in order, counting on from `tally`. -/
def fanOutFrom (behaviour : Behaviour β ω) (entry : Entry) (tally : Tally) :
    List (Registration β) → Act β ω Tally
  | [] => .done tally
  | registration :: rest =>
    (deliver behaviour entry registration).bind fun delivery =>
      fanOutFrom behaviour entry (tally.count delivery) rest

def fanOut (behaviour : Behaviour β ω) (sinks : List (Registration β)) (entry : Entry) :
    Act β ω Tally :=
  fanOutFrom behaviour entry {} sinks

end LogRelay
