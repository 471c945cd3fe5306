import LogRelay.Entry

/-!
# Writing lines

A writer puts one line for each entry on its target.  It counts the writes that its
target refuses and reports them to nobody.
-/

namespace LogRelay

structure LineStyle where
  colored : Bool := false
  ending : String := "\r\n"
  deriving Repr, DecidableEq

def LineStyle.render (style : LineStyle) (entry : Entry) : String :=
  (if style.colored then entry.coloredLine else entry.line) ++ style.ending

/-- Takes written text, or refuses every write. -/
structure Target where
  broken : Bool := false
  written : String := ""
  deriving Repr, DecidableEq

/-- The target after a write, if it takes the text. -/
def Target.write? (target : Target) (text : String) : Option Target :=
  if target.broken then none else some { target with written := target.written ++ text }

structure Writer where
  style : LineStyle := {}
  target : Target := {}
  /-- Entries that the target refused. -/
  errors : Nat := 0
  deriving Repr, DecidableEq

def Writer.dispatch (writer : Writer) (entry : Entry) : Writer :=
  match writer.target.write? (writer.style.render entry) with
  | some target => { writer with target }
  | none => { writer with errors := writer.errors + 1 }

end LogRelay
