import LogRelay.Proofs.Checked.Message
import LogRelay.Proofs.Checked.Render
import LogRelay.Proofs.Logger.Accounting
import LogRelay.Proofs.Logger.Holdings

/-!
# Emitting and dispatching

Emits and dispatches are done with checked operations throughout.  Two facts about a logger
see to it that they come to the same end as plain ones: its arena accounts for the slots that
are out, and every queued message has room for its header.  Both hold after anything that can
be done with a logger.
-/

namespace LogRelay

open LogRelay.Checked

variable {β ω α γ : Type}

/-! ## What sinks ask for -/

/-- A request whose format, if there is one, can be laid out within a word. -/
def Request.Short (request : Request) : Prop :=
  ∀ format, request.format = some format → format.utf8ByteSize < formatLimit

namespace Act

/-- Whatever comes of what it does, an act emits requests of `P` only. -/
def Asks (P : Request → Prop) : Act β ω α → Prop
  | done _ => True
  | panic => True
  | share _ next => ∀ world, (next world).Asks P
  | emit request next => P request ∧ ∀ outcome, (next outcome).Asks P
  | register _ next => ∀ position, (next position).Asks P

variable {P : Request → Prop} {act : Act β ω α}

theorem Asks.bind (hasks : act.Asks P) {rest : α → Act β ω γ}
    (hrest : ∀ result, (rest result).Asks P) : (act.bind rest).Asks P := by
  induction act with
  | done result => exact hrest result
  | panic => exact trivial
  | share change next ih => exact fun world => ih world (hasks world)
  | emit request next ih => exact ⟨hasks.1, fun outcome => ih outcome (hasks.2 outcome)⟩
  | register registration next ih => exact fun position => ih position (hasks position)

theorem Asks.attempt (hasks : act.Asks P) : act.attempt.Asks P := by
  induction act with
  | done result => exact trivial
  | panic => exact trivial
  | share change next ih => exact fun world => ih world (hasks world)
  | emit request next ih => exact ⟨hasks.1, fun outcome => ih outcome (hasks.2 outcome)⟩
  | register registration next ih => exact fun position => ih position (hasks position)

end Act

/-- Sinks emit requests of `P` only, whatever entry they are handed. -/
def Behaviour.Asks (P : Request → Prop) (behaviour : Behaviour β ω) : Prop :=
  ∀ sink entry, (behaviour sink entry).Asks P

section

variable {P : Request → Prop} {behaviour : Behaviour β ω}
  (hbehaviour : Behaviour.Asks P behaviour) (entry : Entry)

include hbehaviour

theorem asks_deliver (registration : Registration β) :
    (deliver behaviour entry registration).Asks P := by
  rw [deliver]
  split
  · exact trivial
  · next sink _ => exact (hbehaviour sink entry).attempt.bind fun _ => trivial

/-- Fanning out asks for what the sinks ask for, and for nothing else. -/
theorem asks_fanOutFrom (tally : Tally) (sinks : List (Registration β)) :
    (fanOutFrom behaviour entry tally sinks).Asks P := by
  induction sinks generalizing tally with
  | nil => exact trivial
  | cons registration rest ih =>
    exact (asks_deliver hbehaviour entry registration).bind fun delivery => ih _

end

namespace Logger

/-! ## Checked operations -/

def placeIn? (took gave : Bool) (logger : Logger β ω) (request : Request) :
    Option (Logger β ω × Except Failure Unit) :=
  match request.format with
  | none => return (logger, .error (.invalidArgument .absentFormat))
  | some format => do
    match ← Message.createIn? took gave logger.arena logger.clock request format with
    | (arena, .error failure) => return ({ logger with arena }, .error failure)
    | (arena, .ok message) =>
      match logger.queue.push message with
      | .ok queue =>
        return ({ logger with
            arena, queue
            clock := logger.clock + 1
            stats := logger.stats.recordEmitted },
          .ok ())
      | .error cause =>
        let arena ← arena.freeIn? gave message.slot
        return ({ logger with arena }, .error (.resourceExhausted cause))

def emitIn? (caller : Caller) (logger : Logger β ω) (request : Request) :
    Option (Logger β ω × Except Failure Unit) := do
  match ← placeIn? (logger.enters caller.taking) (logger.enters caller.giving) logger request with
  | (placed, .ok ()) => return (placed, .ok ())
  | (unplaced, .error failure) =>
    return ({ unplaced with stats := unplaced.stats.recordFailure failure }, .error failure)

/-- Adds a sink, whose position is one less than the number of sinks. -/
def register? (logger : Logger β ω) (registration : Registration β) :
    Option (Nat × Logger β ω) := do
  let registered := (logger.register registration).2
  let position ← sub? registered.registry.sinks.length 1
  return (position, registered)

def perform? (logger : Logger β ω) : Act β ω α → Option (Logger β ω × Option α)
  | .done result => return (logger, some result)
  | .panic => return (logger, none)
  | .share change next =>
    perform? { logger with world := change logger.world } (next logger.world)
  | .emit request next => do
    let (emitted, outcome) ← emitIn? .task logger request
    perform? emitted (next outcome)
  | .register registration next => do
    let (position, registered) ← logger.register? registration
    perform? registered (next position)

def dispatch? (behaviour : Behaviour β ω) (logger : Logger β ω) : Option (Logger β ω) :=
  match logger.consumer, logger.queue.pop? with
  | .running snapshot memory, some (message, queue) => do
    let (current, _) := logger.registry.refresh snapshot
    let captured ← message.captured? logger.arena
    let rendered ← Render.replayInto? logger.texts captured
      ⟨logger.config.formatBufferLength, memory, 0⟩ message.format
    let text ← rendered.buffer.text?
    let entry ← message.entryWith? logger.arena text
    let handling := { logger with queue, consumer := .running current rendered.buffer.memory }
    let (handled, result) ← handling.perform? (fanOut behaviour current.sinks entry)
    let tally := result.getD {}
    let arena ← handled.arena.free? message.slot
    return { handled with
      arena
      stats := handled.stats.recordDispatched (!rendered.complete) tally.panicked tally.skipped }
  | _, _ => return logger

def dispatchMany? (behaviour : Behaviour β ω) : Nat → Logger β ω → Option (Logger β ω)
  | 0, logger => return logger
  | count + 1, logger => do
    let dispatched ← logger.dispatch? behaviour
    dispatchMany? behaviour count dispatched

def discardPending? (logger : Logger β ω) : Option (Logger β ω) := do
  let arena ← logger.queue.items.foldlM (fun arena message => arena.free? message.slot) logger.arena
  return { logger with
    queue := logger.queue.clear
    arena
    stats := logger.stats.recordDiscarded logger.queue.length }

def shutdown? (behaviour : Behaviour β ω) (logger : Logger β ω) : Option (Logger β ω) :=
  let closed := { logger with queue := logger.queue.close }
  match logger.consumer with
  | .idle => do
    let discarded ← closed.discardPending?
    return { discarded with consumer := .stopped }
  | .running _ _ => do
    let dispatched ← dispatchMany? behaviour closed.queue.length closed
    return { dispatched with consumer := .stopped }
  | .stopped => return logger

/-! ## Nothing goes wrong -/

variable {logger : Logger β ω} {elsewhere : List Slot} {behaviour : Behaviour β ω}

theorem register?_eq (logger : Logger β ω) (registration : Registration β) :
    logger.register? registration = some (logger.register registration) := by
  have hlength : (logger.register registration).2.registry.sinks.length =
      logger.registry.sinks.length + 1 := List.length_append
  rw [register?, hlength, sub?_of_le (Nat.le_add_left _ _)]
  rfl

theorem placeIn?_eq (haccounts : logger.Accounts elsewhere) {request : Request}
    (hshort : request.Short) (took gave : Bool) :
    placeIn? took gave logger request = some (placeIn took gave logger request) := by
  rw [placeIn?, placeIn]
  cases hformat : request.format with
  | none => rfl
  | some format =>
    have hcreate := Message.createIn?_eq haccounts (hshort format hformat) took gave logger.clock
      request
    simp only [hcreate, Option.bind_eq_bind, Option.bind_some]
    cases hplaced : Message.createIn took gave logger.arena logger.clock request format with
    | mk arena created =>
      cases created with
      | error failure => rfl
      | ok message =>
        have hmessage := Message.accounts_of_createIn haccounts hplaced
        cases hpush : logger.queue.push message with
        | ok queue => simp only [hpush]; rfl
        | error cause =>
          simp only [hpush, hmessage.freeIn?_eq]
          rfl

/-- No step of an emit goes wrong in a logger whose arena accounts for all slots. -/
theorem emitIn?_eq (haccounts : logger.Accounts elsewhere) (caller : Caller) {request : Request}
    (hshort : request.Short) :
    emitIn? caller logger request = some (emitIn caller logger request) := by
  rw [emitIn?, emitIn, placeIn?_eq haccounts hshort]
  simp only [Option.bind_eq_bind, Option.bind_some]
  cases placeIn (logger.enters caller.taking) (logger.enters caller.giving) logger request with
  | mk placed outcome => cases outcome <;> rfl

/-- Nor does anything that sinks do while they have an entry in hand. -/
theorem perform?_eq (haccounts : logger.Accounts elsewhere) {act : Act β ω α}
    (hasks : act.Asks Request.Short) : logger.perform? act = some (logger.perform act) := by
  induction act generalizing logger with
  | done result => rfl
  | panic => rfl
  | share change next ih =>
    have hshared : Accounts { logger with world := change logger.world } elsewhere := haccounts
    exact ih logger.world hshared (hasks logger.world)
  | emit request next ih =>
    obtain ⟨hshort, hnext⟩ := hasks
    rw [perform?, perform, emitIn?_eq haccounts .task hshort]
    exact ih _ (haccounts.emitIn .task request) (hnext _)
  | register registration next ih =>
    have hregistered : (logger.register registration).2.Accounts elsewhere := haccounts
    rw [perform?, perform, register?_eq]
    exact ih _ hregistered (hasks _)

/-- The oldest message is read from its own slot, rendered within the consumer's memory, and its
slot, which is out until then, goes back. -/
theorem dispatch?_of_running (haccounts : logger.Accounts elsewhere)
    (hheaded : logger.Queues Message.Headed)
    (hbehaviour : Behaviour.Asks Request.Short behaviour) {snapshot : Snapshot β} {memory : Memory}
    {message : Message} {rest : List Message}
    (hconsumer : logger.consumer = .running snapshot memory)
    (hitems : logger.queue.items = message :: rest) :
    logger.dispatch? behaviour = some (logger.dispatch behaviour) := by
  have hpop : logger.queue.pop? = some (message, { logger.queue with items := rest }) := by
    rw [Queue.pop?, hitems]
  -- The oldest message has a slot of its own, with room for the header.
  have hslot : message.slot ∈ logger.queue.items.map Message.slot ++ elsewhere := by
    rw [hitems]
    exact List.mem_cons_self
  have hroom : message.Headed := by
    apply hheaded
    rw [hitems]
    exact List.mem_cons_self
  obtain ⟨hreplay, hsound⟩ := Render.replayInto?_eq logger.texts (message.captured logger.arena)
    logger.config.formatBufferLength memory message.format
  -- While the sinks have the entry, the consumer has the slot.
  have hhandling := haccounts.handling snapshot memory hitems
  let act := fanOut behaviour (logger.registry.refresh snapshot).1.sinks
    (logger.entryOf memory message)
  have hasks : act.Asks Request.Short := asks_fanOutFrom hbehaviour _ _ _
  have hperform := perform?_eq hhandling hasks
  have hhanded := hhandling.perform act
  have hfree := hhanded.inHand.free?_eq
  rw [dispatch_of_running behaviour hconsumer hitems]
  simp only [dispatch?, hconsumer, hpop, Message.captured?_eq haccounts hslot hroom, hreplay,
    hsound.text?_eq, Message.entryWith?_eq haccounts hslot hroom, Option.bind_eq_bind,
    Option.bind_some]
  exact Option.bind_eq_some_iff.mpr ⟨_, hperform, Option.bind_eq_some_iff.mpr ⟨_, hfree, rfl⟩⟩

theorem dispatch?_of_not_running (behaviour : Behaviour β ω)
    (hrunning : ¬(logger.isRunning ∧ ¬logger.queue.isEmpty)) :
    logger.dispatch? behaviour = some logger := by
  rw [dispatch?]
  split
  · next hconsumer hpop => exact absurd (running_of_pop? hconsumer hpop) hrunning
  · rfl

/-- A dispatch never goes wrong, whether anything is due or not. -/
theorem dispatch?_eq (haccounts : logger.Accounts elsewhere)
    (hheaded : logger.Queues Message.Headed)
    (hbehaviour : Behaviour.Asks Request.Short behaviour) :
    logger.dispatch? behaviour = some (logger.dispatch behaviour) := by
  by_cases hrunning : logger.isRunning ∧ ¬logger.queue.isEmpty
  · obtain ⟨snapshot, memory, message, rest, hconsumer, hitems⟩ := running_cases hrunning
    exact dispatch?_of_running haccounts hheaded hbehaviour hconsumer hitems
  · rw [dispatch?_of_not_running behaviour hrunning, dispatch_of_not_running behaviour hrunning]

theorem dispatchMany?_eq (haccounts : logger.Accounts elsewhere)
    (hheaded : logger.Queues Message.Headed)
    (hbehaviour : Behaviour.Asks Request.Short behaviour) (count : Nat) :
    dispatchMany? behaviour count logger = some (dispatchMany behaviour count logger) := by
  induction count generalizing logger with
  | zero => rfl
  | succ count ih =>
    rw [dispatchMany?, dispatchMany, dispatch?_eq haccounts hheaded hbehaviour]
    exact ih (haccounts.dispatch behaviour) (hheaded.dispatch makes_headed behaviour)

theorem foldlM_free? {items : List Message} {arena : Arena}
    (harena : arena.Accounts (items.map Message.slot ++ elsewhere)) :
    items.foldlM (fun arena message => arena.free? message.slot) arena =
      some (items.foldl (fun arena message => arena.free message.slot) arena) := by
  induction items generalizing arena with
  | nil => rfl
  | cons message rest ih =>
    rw [List.foldlM_cons, harena.free?_eq]
    exact ih harena.free

theorem discardPending?_eq (haccounts : logger.Accounts elsewhere) :
    logger.discardPending? = some logger.discardPending := by
  rw [discardPending?, foldlM_free? haccounts]
  rfl

/-- Nor does a shutdown, with a consumer that drains the queue or without one. -/
theorem shutdown?_eq (haccounts : logger.Accounts elsewhere)
    (hheaded : logger.Queues Message.Headed)
    (hbehaviour : Behaviour.Asks Request.Short behaviour) :
    logger.shutdown? behaviour = some (logger.shutdown behaviour) := by
  have hclosed : Accounts { logger with queue := logger.queue.close } elsewhere := haccounts
  have hqueue : Queues Message.Headed { logger with queue := logger.queue.close } := hheaded
  rw [shutdown?, shutdown]
  generalize { logger with queue := logger.queue.close } = closed at hclosed hqueue ⊢
  cases logger.consumer with
  | idle =>
    simp only [discardPending?_eq hclosed]
    rfl
  | running snapshot memory =>
    simp only [dispatchMany?_eq hclosed hqueue hbehaviour]
    rfl
  | stopped => rfl

/-- Whatever was done with a logger before, by tasks or in interrupt context: an emit of a short
request, a dispatch and a shutdown are done without a difference below zero, a sum beyond a
word, a slice outside of its bytes or within a character, or a copy of another length.  They end
as they do when nothing is checked. -/
theorem checked_after {hostMemory : Nat} {texts : StaticTexts} {world : ω} {config : Config}
    {logger : Logger β ω} (hcreate : create hostMemory texts world config = .ok logger)
    {behaviour : Behaviour β ω} (hbehaviour : Behaviour.Asks Request.Short behaviour)
    (turns : List (Turn β)) :
    let final := (Session.after behaviour { logger } turns).logger
    (∀ (caller : Caller) (request : Request), request.Short →
      emitIn? caller final request = some (emitIn caller final request)) ∧
      final.dispatch? behaviour = some (final.dispatch behaviour) ∧
      final.shutdown? behaviour = some (final.shutdown behaviour) := by
  intro final
  have hnew := Session.Holds.of_create (P := Message.Headed) hcreate
  obtain ⟨arena, -, harena, rfl⟩ := create_eq_ok hcreate
  have hbegin : arena.Accounts [] := Arena.accounts_of_create harena
  have haccounts : final.Accounts _ := Session.accounts_after hbegin behaviour turns
  have hheaded : final.Queues Message.Headed := (hnew.after makes_headed behaviour turns).queued
  exact ⟨fun caller _ hshort => emitIn?_eq haccounts caller hshort,
    dispatch?_eq haccounts hheaded hbehaviour, shutdown?_eq haccounts hheaded hbehaviour⟩

/-- An interrupt handler gets at the arena at its second try and logs a number; a sink keeps the
text, which is cut off within a character, and logs in turn. -/
theorem checked_after_interrupt :
    let config : Config :=
      { arenaCapacity := 128, formatBufferLength := 12, interruptLockAttempts := 2,
        policy := .slab 40 }
    let arena : Arena :=
      { capacity := 128, maxInFlight := 32, policy := .slab 40, freeSlots := [0, 1, 2] }
    let logger : Logger Unit (List String) :=
      { config, arena, queue := { capacity := 32 }, texts := [], world := [] }
    let again : Request := ⟨"net", "poll", .error, some "again", []⟩
    let behaviour : Behaviour Unit (List String) := fun _ entry =>
      .share (· ++ [entry.text]) fun _ => .emit again fun _ => .done ()
    let handler : Caller := ⟨.trying fun attempt => attempt == 1, .trying fun _ => false⟩
    let turns : List (Turn Unit) :=
      [.step (.register ⟨"keeps", some ()⟩), .step .start,
        .emit handler ⟨"net", "poll", .debug, some "%g Hz é", [.float ⟨0x4136e36000000000⟩]⟩]
    let final := (Session.after behaviour { logger } turns).logger
    create 4096 [] [] config = .ok logger ∧ Behaviour.Asks Request.Short behaviour ∧
      emitIn? handler final again = some (emitIn handler final again) ∧
      final.dispatch? behaviour = some (final.dispatch behaviour) ∧
      (final.dispatch behaviour).world = ["1.5e+06 Hz "] ∧
      (final.dispatch behaviour).queue.length = 1 := by
  intro config arena logger again behaviour handler turns final
  have hvalid : config.validate = .ok () := by
    simp [Config.validate, Config.positiveSettings, Message.headerSize, config]
  have harena : Arena.create 4096 config.arenaCapacity config.maxInFlight config.policy =
      .ok arena :=
    show Arena.create 4096 128 32 (.slab 40) = .ok arena from rfl
  have hcreate : create 4096 [] [] config = .ok logger := by
    rw [create, hvalid, harena]
    rfl
  have hagain : again.Short := by
    intro format hformat
    rw [← Option.some.inj hformat]
    decide +kernel
  have hbehaviour : Behaviour.Asks Request.Short behaviour :=
    fun _ _ _ => ⟨hagain, fun _ => trivial⟩
  obtain ⟨hemit, hdispatch, -⟩ := checked_after hcreate hbehaviour turns
  exact ⟨hcreate, hbehaviour, hemit handler again hagain, hdispatch, by decide +kernel,
    by decide +kernel⟩

end Logger

end LogRelay
