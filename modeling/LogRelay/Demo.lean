import LogRelay.Logger.Basic
import LogRelay.Sink.Writer

/-!
# The demonstration

A number of producers log through one logger to a console, to two facilities and to
a sink that is not attached.  Each producer works in eight steps and logs at each of
them, at a level and with a format that depend on the step.
-/

namespace LogRelay.Demo

inductive DemoSink where
  | console
  | facade
  | fields
  deriving Repr, DecidableEq

structure Received where
  console : Writer := { style := { colored := true } }
  facade : List FacadeEvent := []
  fields : List FieldEvent := []

/-- Keeps each entry in the form that the sink takes it in. -/
def behaviour : Behaviour DemoSink Received
  | .console, entry =>
    Act.modify fun received => { received with console := received.console.dispatch entry }
  | .facade, entry =>
    Act.modify fun received => { received with facade := entry.facadeEvent :: received.facade }
  | .fields, entry =>
    Act.modify fun received => { received with fields := entry.fieldEvent :: received.fields }

def config : Config :=
  { arenaCapacity := 8 * 1024, queueCapacity := 64, maxInFlight := 64, policy := .slab 128 }

def sinks : List (Registration DemoSink) :=
  [⟨"console", some .console⟩, ⟨"facade", some .facade⟩, ⟨"fields", some .fields⟩, ⟨"uart", none⟩]

/-- The pin that interrupts come from. -/
def gpio : StaticText := ⟨0x10000, "gpio"⟩

def success : StaticText := ⟨0x10010, "ok"⟩

def request (level : Level) (format : String) (arguments : List Argument) : Request :=
  { moduleName := "deferred_logger", functionName := "main", level, format, arguments }

def stepAddress (worker : Nat) : Address :=
  ⟨UInt64.ofNat (0x7f0000000000 + 0x200000 * worker)⟩

def workerRequest (worker : Nat) (step : Nat) : Request :=
  let number := Loggable.toArgument (Int32.ofNat worker)
  match step % 4 with
  | 0 => request .debug "worker %d step %u" [number, Loggable.toArgument (UInt32.ofNat step)]
  | 1 =>
    let load : Binary64 := ⟨(Float.ofNat step / 8).toBits⟩
    request .info "worker %d load %.2f" [number, Loggable.toArgument load]
  | 2 => request .warning "worker %d at %p" [number, Loggable.toArgument (stepAddress worker)]
  | _ =>
    request .error "irq %#x on %s"
      [Loggable.toArgument (UInt32.ofNat step), Loggable.toArgument gpio]

def opening (producers : Nat) : Request :=
  request .info "starting %zu producers" [Loggable.toArgument (UInt64.ofNat producers)]

def closing : Request :=
  request .error "demo finished: %s" [Loggable.toArgument success]

/-- What the producers log, one producer after the other. -/
def work (producers : Nat) : List Request :=
  (List.range producers).flatMap fun worker => (List.range 8).map (workerRequest worker)

/-- The number of producers that a first command-line argument asks for: decimal
digits after an optional plus sign, below 2^64.  Without a usable argument it is
four. -/
def producers (arguments : List String) : Nat :=
  let digits : List Char :=
    match arguments.head?.map String.toList with
    | some ('+' :: rest) => rest
    | some other => other
    | none => []
  let number := digits.foldl (fun value digit => 10 * value + (digit.toNat - '0'.toNat)) 0
  if digits ≠ [] ∧ digits.all Char.isDigit ∧ number < Nat.pow 2 64 then number else 4

/-- Emits a message and dispatches it at once. -/
def log (logger : Logger DemoSink Received) (message : Request) :
    Logger DemoSink Received × Except Failure Unit :=
  let (emitted, outcome) := logger.emit message
  (emitted.dispatch behaviour, outcome)

/-- Runs the demonstration and gives what the sinks got.  Producers may lose
messages; the opening and the closing one must get through. -/
def run (producers : Nat) : Except Failure Received := do
  let logger ← (Logger.create (Nat.pow 2 48) [gpio, success] {} config).mapError Failure.setup
  let attached := sinks.foldl (fun logger sink => (logger.register sink).2) logger
  let started ← attached.start.mapError Failure.setup
  let (opened, outcome) := log started (opening producers)
  outcome
  let worked := (work producers).foldl (fun logger message => (log logger message).1) opened
  let (closed, outcome) := log worked closing
  outcome
  return (closed.shutdown behaviour).world

end LogRelay.Demo
