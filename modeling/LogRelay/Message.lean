import LogRelay.Arena.Access
import LogRelay.Level
import LogRelay.Record.Capture

/-!
# Messages

A message waits in an arena slot: a header with its time stamp and level, then the
recorded arguments.  Names and format live as long as the program and travel beside
the slot.

| bytes   | content                        |
|---------|--------------------------------|
| 0 to 7  | time stamp, lowest byte first  |
| 8       | level                          |
| 9 to 15 | zero                           |
| from 16 | recorded arguments             |
-/

namespace LogRelay

/-- What a call site asks to be logged. -/
structure Request where
  moduleName : String
  functionName : String
  level : Level
  /-- A call site may turn out to have no format. -/
  format : Option String
  arguments : List Argument := []

/-- A message in an arena. -/
structure Message where
  moduleName : String
  functionName : String
  format : String
  slot : Slot
  deriving Repr, DecidableEq

namespace Message

def headerSize : Nat := 16

def sizeFor (format : String) : Nat :=
  headerSize + (Format.layout format).encodedBytes

/-- The bytes that hold a time stamp and a level. -/
def header (ticks : UInt64) (level : Level) : List UInt8 :=
  Record.word ticks ++ level.number :: List.replicate 7 0

@[simp]
theorem length_header (ticks : UInt64) (level : Level) :
    (header ticks level).length = headerSize := by
  simp [header, Record.word, headerSize]

/-- Places a message in the arena.  When its arguments do not match the format, the
slot goes back; bytes of it may have been written by then.  `took` and `gave` tell whether
the caller has the arena's guard to take the slot and to give it back. -/
def createIn (took gave : Bool) (arena : Arena) (ticks : UInt64) (request : Request)
    (format : String) : Arena × Except Failure Message :=
  match arena.allocateIn took (sizeFor format) with
  | .error cause => (arena, .error (.resourceExhausted cause))
  | .ok (slot, taken) =>
    let (region, captured) :=
      Record.captureInto taken.region (slot.offset + headerSize) (slot.length - headerSize)
        format request.arguments
    let filled := { taken with region }
    match captured with
    | .error fault => (filled.freeIn gave slot, .error (.transcription fault))
    | .ok _ =>
      (filled.write slot 0 (header ticks request.level),
        .ok ⟨request.moduleName, request.functionName, format, slot⟩)

/-- Places a message in the arena for a caller who waits for the guard. -/
def create (arena : Arena) (ticks : UInt64) (request : Request) (format : String) :
    Arena × Except Failure Message :=
  createIn true true arena ticks request format

def size (message : Message) : Nat :=
  message.slot.length

def ticks (message : Message) (arena : Arena) : UInt64 :=
  UInt64.ofNat (Record.ofLittleEndian ((arena.read message.slot).take 8))

/-- The level in the header; no severity should the byte stand for none. -/
def level (message : Message) (arena : Arena) : Level :=
  (Level.ofNumber? ((arena.read message.slot).getD 8 0)).getD default

def captured (message : Message) (arena : Arena) : List UInt8 :=
  (arena.read message.slot).drop headerSize

def describe (message : Message) (arena : Arena) : String :=
  Describe.structured "Message"
    [("module", Describe.text message.moduleName),
      ("function", Describe.text message.functionName),
      ("level", (message.level arena).name), ("format", Describe.text message.format),
      ("ticks", toString (message.ticks arena)), ("size", toString message.size)]

end Message

end LogRelay
