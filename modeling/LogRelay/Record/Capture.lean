import LogRelay.Failure
import LogRelay.Format.Layout
import LogRelay.Memory
import LogRelay.Record.Codec

/-!
# Capturing arguments

The arguments of a format are recorded one after the other, one for each
conversion.  The list must match the conversions exactly; the first fault ends the
capture, with the records before it already written.
-/

namespace LogRelay.Record

open Format (Kind)

/-- The records written and the fault that ended the writing, if any. -/
structure Transcript where
  bytes : List UInt8 := []
  fault : Option CaptureFault := none
  deriving Repr, DecidableEq

/-- Records arguments for conversions of the given classes, which are counted from
`index`. -/
def transcribe : (index : Nat) → List Kind → List Argument → Transcript
  | _, [], _ => {}
  | index, kind :: _, [] => { fault := some (.missingArgument index kind) }
  | index, kind :: kinds, argument :: arguments =>
    match argument.coerce? kind with
    | none => { fault := some (.typeMismatch index kind argument.typeName) }
    | some value =>
      let rest := transcribe (index + 1) kinds arguments
      { rest with bytes := encode kind value ++ rest.bytes }

/-- Records the arguments of a format for a destination of `available` bytes. -/
def capture (format : String) (arguments : List Argument) (available : Nat) : Transcript :=
  let layout := Format.layout format
  if layout.count < arguments.length then
    { fault := some (.surplusArguments layout.count arguments.length) }
  else if available < layout.encodedBytes then
    { fault := some (.bufferTooSmall layout.encodedBytes available) }
  else
    transcribe 0 ((Format.conversions format).map Format.Spec.kind) arguments

/-- The records of a format's arguments, when they match. -/
def captureAll (format : String) (arguments : List Argument) : Except CaptureFault (List UInt8) :=
  let transcript := capture format arguments (Format.layout format).encodedBytes
  match transcript.fault with
  | none => .ok transcript.bytes
  | some fault => .error fault

/-- Captures into `available` bytes of memory at `offset`, and gives the number of
bytes that hold records. -/
def captureInto (memory : Memory) (offset available : Nat) (format : String)
    (arguments : List Argument) : Memory × Except CaptureFault Nat :=
  let transcript := capture format arguments available
  (memory.write offset transcript.bytes,
    match transcript.fault with
    | none => .ok transcript.bytes.length
    | some fault => .error fault)

end LogRelay.Record
