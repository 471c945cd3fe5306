import LogRelay.Argument

/-!
# Sources of values

Rendering asks a source for one value per conversion, naming the class it wants.
A source has a state of its own and answers with no value when it is exhausted or
has nothing of that class to give.
-/

namespace LogRelay.Render

open LogRelay.Format

/-- Answers requests for values, from a state that each request may change. -/
structure Source (σ : Type) where
  next : Kind → σ → Option Value × σ

namespace Source

/-- Call-site arguments in order, each coerced to the class asked for. -/
def arguments : Source (List Argument) where
  next
    | _, [] => (none, [])
    | kind, argument :: rest => (argument.coerce? kind, rest)

/-- Given answers in order, whatever class is asked for. -/
def listed : Source (List (Option Value)) where
  next
    | _, [] => (none, [])
    | _, value :: rest => (value, rest)

/-- The same source, noting the classes asked for, the latest first. -/
def noting {σ : Type} (source : Source σ) : Source (σ × List Kind) where
  next kind := fun (state, asked) =>
    let (value, next) := source.next kind state
    (value, next, kind :: asked)

end Source

end LogRelay.Render
