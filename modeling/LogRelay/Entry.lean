import LogRelay.Message

/-!
# What sinks are handed

An entry is a dispatched message with its rendered text.  It has one line of text of
its own and counterparts for facilities that take lines or named fields.
-/

namespace LogRelay

structure Entry where
  moduleName : String
  functionName : String
  level : Level
  format : String
  ticks : UInt64
  /-- The rendered text, cut off where the consumer's buffer ended. -/
  text : String
  /-- The recorded arguments. -/
  captured : List UInt8
  deriving Repr, DecidableEq

/-- A line for a general log facility, addressed by module. -/
structure FacadeEvent where
  target : String
  level : FacadeLevel
  line : String
  deriving Repr, DecidableEq

structure FieldEvent where
  level : FacadeLevel
  moduleName : String
  functionName : String
  ticks : UInt64
  message : String
  deriving Repr, DecidableEq

/-- The entry of a message, with the text it was rendered to. -/
def Message.entry (message : Message) (arena : Arena) (text : String) : Entry where
  moduleName := message.moduleName
  functionName := message.functionName
  level := message.level arena
  format := message.format
  ticks := message.ticks arena
  text := text
  captured := message.captured arena

namespace Entry

def line (entry : Entry) : String :=
  s!"[{entry.ticks}] <{entry.level.tag}> {entry.moduleName}::{entry.functionName}: {entry.text}"

/-- The line in the colour of its level. -/
def coloredLine (entry : Entry) : String :=
  entry.level.color ++ entry.line ++ resetColor

def facadeEvent (entry : Entry) : FacadeEvent where
  target := entry.moduleName
  level := entry.level.facade
  line := s!"[{entry.ticks}] {entry.functionName}: {entry.text}"

def fieldEvent (entry : Entry) : FieldEvent where
  level := entry.level.facade
  moduleName := entry.moduleName
  functionName := entry.functionName
  ticks := entry.ticks
  message := entry.text

end Entry

end LogRelay
