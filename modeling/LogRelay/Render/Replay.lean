import LogRelay.Record.Codec
import LogRelay.Render.Format

/-!
# Replaying records

Recorded arguments are a source of values like any other.  A record of another
class than the one asked for is used up all the same, so that later arguments stay
in step with their conversions.
-/

namespace LogRelay.Render

open LogRelay.Record LogRelay.Text

/-- Records in order, each answering only a request for its own class. -/
def Source.records (texts : StaticTexts) : Source (List UInt8) where
  next kind bytes :=
    match takeRecord texts bytes with
    | (some (found, value), rest) => (if found = kind then some value else none, rest)
    | (none, rest) => (none, rest)

def replay (texts : StaticTexts) (records : List UInt8) (format : String) : String :=
  render (Source.records texts) records format

/-- The text of a format over records, as far as it fits into a buffer. -/
def replayInto (texts : StaticTexts) (records : List UInt8) (buffer : Buffer) (format : String) :
    Outcome (List UInt8) :=
  renderInto (Source.records texts) records buffer format

end LogRelay.Render
