/-!
# Severity levels

Levels are ordered by their numbers, from no severity to the least urgent.  Each
has a tag for rendered lines, a terminal colour, and a counterpart among the five
levels of general log facilities.
-/

namespace LogRelay

inductive Level where
  | none
  | error
  | warning
  | info
  | debug
  deriving Repr, DecidableEq

/-- The levels of general log facilities, which know no level below them. -/
inductive FacadeLevel where
  | error
  | warn
  | info
  | debug
  | trace
  deriving Repr, DecidableEq

def FacadeLevel.name : FacadeLevel → String
  | error => "ERROR"
  | warn => "WARN"
  | info => "INFO"
  | debug => "DEBUG"
  | trace => "TRACE"

namespace Level

/-- The byte that stores a level. -/
def number : Level → UInt8
  | none => 0
  | error => 1
  | warning => 2
  | info => 3
  | debug => 4

def ofNumber? : UInt8 → Option Level
  | 0 => some none
  | 1 => some error
  | 2 => some warning
  | 3 => some info
  | 4 => some debug
  | _ => Option.none

def all : List Level :=
  [none, error, warning, info, debug]

def below (level : Level) : List Level :=
  all.filter fun other => other.number < level.number

instance : Inhabited Level := ⟨none⟩

def name : Level → String
  | none => "None"
  | error => "Error"
  | warning => "Warning"
  | info => "Info"
  | debug => "Debug"

/-- The three letters shown in rendered lines; no letters for no severity. -/
def tag : Level → String
  | none => ""
  | error => "ERR"
  | warning => "WRN"
  | info => "INF"
  | debug => "DBG"

/-- The terminal sequence that starts the level's colour. -/
def color : Level → String
  | none => ""
  | error => "\x1b[31m"
  | warning => "\x1b[33m"
  | info => "\x1b[37m"
  | debug => "\x1b[34m"

/-- A level's counterpart; messages without severity are traces. -/
def facade : Level → FacadeLevel
  | none => .trace
  | error => .error
  | warning => .warn
  | info => .info
  | debug => .debug

@[simp]
theorem ofNumber?_number (level : Level) : ofNumber? level.number = some level := by
  cases level <;> rfl

end Level

/-- The terminal sequence that ends a colour. -/
def resetColor : String := "\x1b[0m"

end LogRelay
