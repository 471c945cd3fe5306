import LogRelay.Demo

/-!
# The demonstration program

Takes the number of producers as its argument.  Console lines go to standard output,
those for the facility to standard error.
-/

open LogRelay

def main (arguments : List String) : IO UInt32 := do
  match Demo.run (Demo.producers arguments) with
  | .ok received =>
    IO.print received.console.target.written
    for event in received.facade.reverse do
      IO.eprintln s!"{event.level.name} {event.target} - {event.line}"
    return 0
  | .error failure =>
    IO.eprintln s!"Error: {failure.message}"
    return 1
