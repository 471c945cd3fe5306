import LogRelay.Format.Segment

/-!
# Space for arguments

A format alone decides how many arguments it takes and how many bytes they need,
promoted and recorded, before any argument is seen.
-/

namespace LogRelay.Format

/-- What the arguments of a format need. -/
structure Layout where
  /-- The number of arguments. -/
  count : Nat := 0
  /-- Their bytes at promoted sizes. -/
  promotedBytes : Nat := 0
  /-- The bytes of their records. -/
  encodedBytes : Nat := 0
  deriving Repr, DecidableEq

def Layout.add (layout : Layout) (kind : Kind) : Layout :=
  { count := layout.count + 1
    promotedBytes := layout.promotedBytes + kind.promotedSize
    encodedBytes := layout.encodedBytes + kind.recordSize }

def layout (format : String) : Layout :=
  (conversions format).foldl (fun layout spec => layout.add spec.kind) {}

end LogRelay.Format
