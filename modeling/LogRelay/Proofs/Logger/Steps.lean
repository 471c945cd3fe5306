import LogRelay.Arena.Interrupt
import LogRelay.Logger.Interrupt

/-!
# What a logger's operations do

Each operation is taken apart once, into what it needs and what it changes; whatever
is shown of runs builds on these cases.
-/

namespace LogRelay.Logger

variable {β ω α γ : Type}

/-! ## Setting up -/

/-- A logger that could be made is a new one, on an arena and a queue of the configured
sizes. -/
theorem create_eq_ok {hostMemory : Nat} {texts : StaticTexts} {world : ω} {config : Config}
    {logger : Logger β ω} (heq : create hostMemory texts world config = .ok logger) :
    ∃ arena, config.validate = .ok () ∧
      Arena.create hostMemory config.arenaCapacity config.maxInFlight config.policy = .ok arena ∧
      logger = { config, arena, queue := { capacity := config.queueCapacity }, texts, world } := by
  simp only [create, bind, Except.bind, pure, Except.pure] at heq
  split at heq
  · exact absurd heq (by simp)
  · next hvalidate =>
    split at heq
    · exact absurd heq (by simp)
    · next arena harena =>
      rw [Queue.create] at heq
      split at heq
      · exact absurd heq (by simp)
      · next hqueue =>
        split at hqueue
        · exact absurd hqueue (by simp)
        · cases hqueue
          exact ⟨arena, hvalidate, harena, (Except.ok.inj heq).symm⟩

/-! ## Emitting -/

/-- The logger with one more message in its queue. -/
def accept (logger : Logger β ω) (arena : Arena) (message : Message) : Logger β ω :=
  { logger with
    arena
    queue := { logger.queue with items := logger.queue.items ++ [message] }
    clock := logger.clock + 1
    stats := logger.stats.recordEmitted }

@[simp]
theorem stats_accept (logger : Logger β ω) (arena : Arena) (message : Message) :
    (logger.accept arena message).stats = logger.stats.recordEmitted := rfl

@[simp]
theorem length_queue_accept (logger : Logger β ω) (arena : Arena) (message : Message) :
    (logger.accept arena message).queue.length = logger.queue.length + 1 :=
  List.length_append

/-- The logger with these messages in its queue instead. -/
def requeue (logger : Logger β ω) (items : List Message) : Logger β ω :=
  { logger with queue := { logger.queue with items } }

@[simp]
theorem stats_requeue (logger : Logger β ω) (items : List Message) :
    (logger.requeue items).stats = logger.stats := rfl

@[simp]
theorem length_queue_requeue (logger : Logger β ω) (items : List Message) :
    (logger.requeue items).queue.length = items.length := rfl

/-- The logger after a message that was not queued. -/
def refuse (logger : Logger β ω) (arena : Arena) (failure : Failure) : Logger β ω :=
  { logger with arena, stats := logger.stats.recordFailure failure }

@[simp]
theorem stats_refuse (logger : Logger β ω) (arena : Arena) (failure : Failure) :
    (logger.refuse arena failure).stats = logger.stats.recordFailure failure := rfl

@[simp]
theorem queue_refuse (logger : Logger β ω) (arena : Arena) (failure : Failure) :
    (logger.refuse arena failure).queue = logger.queue := rfl

/-- The ways of an emit to fail, with the arena that each of them leaves. -/
inductive Refuses (caller : Caller) (logger : Logger β ω) (request : Request) :
    Arena → Failure → Prop where
  | absentFormat (format_eq : request.format = none) :
      Refuses caller logger request logger.arena (.invalidArgument .absentFormat)
  | unplaced {format : String} {arena : Arena} {failure : Failure}
      (format_eq : request.format = some format)
      (create_eq : Message.createIn (logger.enters caller.taking) (logger.enters caller.giving)
        logger.arena logger.clock request format = (arena, .error failure)) :
      Refuses caller logger request arena failure
  | unqueued {format : String} {arena : Arena} {message : Message} {cause : Exhaustion}
      (format_eq : request.format = some format)
      (create_eq : Message.createIn (logger.enters caller.taking) (logger.enters caller.giving)
        logger.arena logger.clock request format = (arena, .ok message))
      (push_eq : logger.queue.push message = .error cause) :
      Refuses caller logger request
        (arena.freeIn (logger.enters caller.giving) message.slot) (.resourceExhausted cause)

/-- An emit queues the message that was made of its request, or leaves the queue as it
was and counts why. -/
theorem emitIn_cases (caller : Caller) (logger : Logger β ω) (request : Request) :
    (∃ format arena message, request.format = some format ∧
      Message.createIn (logger.enters caller.taking) (logger.enters caller.giving) logger.arena
        logger.clock request format = (arena, .ok message) ∧
      logger.queue.closed = false ∧ logger.queue.length < logger.queue.capacity ∧
      logger.emitIn caller request = (logger.accept arena message, .ok ())) ∨
    ∃ arena failure, Refuses caller logger request arena failure ∧
      logger.emitIn caller request = (logger.refuse arena failure, .error failure) := by
  cases hformat : request.format with
  | none =>
    refine Or.inr ⟨_, _, .absentFormat hformat, ?_⟩
    simp only [emitIn, placeIn, hformat, refuse]
  | some format =>
    cases hcreate : Message.createIn (logger.enters caller.taking) (logger.enters caller.giving)
        logger.arena logger.clock request format with
    | mk arena created =>
      cases created with
      | error failure =>
        refine Or.inr ⟨_, _, .unplaced hformat hcreate, ?_⟩
        simp only [emitIn, placeIn, hformat, hcreate, refuse]
      | ok message =>
        cases hpush : logger.queue.push message with
        | error cause =>
          refine Or.inr ⟨_, _, .unqueued hformat hcreate hpush, ?_⟩
          simp only [emitIn, placeIn, hformat, hcreate, hpush, refuse]
        | ok queue =>
          obtain ⟨⟨hopen, hroom⟩, rfl⟩ := (Queue.push_eq_ok_iff _ _ _).mp hpush
          refine Or.inl ⟨format, arena, message, rfl, hcreate, hopen, hroom, ?_⟩
          simp only [emitIn, placeIn, hformat, hcreate, hpush, accept]

/-- A task has the guard both times, so an emit of it ends in one of these ways. -/
theorem emit_cases (logger : Logger β ω) (request : Request) :
    (∃ format arena message, request.format = some format ∧
      Message.create logger.arena logger.clock request format = (arena, .ok message) ∧
      logger.queue.closed = false ∧ logger.queue.length < logger.queue.capacity ∧
      logger.emit request = (logger.accept arena message, .ok ())) ∨
    ∃ arena failure, Refuses .task logger request arena failure ∧
      logger.emit request = (logger.refuse arena failure, .error failure) :=
  emitIn_cases .task logger request

/-- What an emit can change. -/
theorem exists_emitIn (caller : Caller) (logger : Logger β ω) (request : Request) :
    ∃ arena queue clock stats,
      (logger.emitIn caller request).1 = { logger with arena, queue, clock, stats } := by
  rcases emitIn_cases caller logger request with ⟨_, _, _, -, -, -, -, hemit⟩ | ⟨_, _, -, hemit⟩
  · rw [hemit]
    exact ⟨_, _, _, _, rfl⟩
  · rw [hemit]
    exact ⟨_, _, _, _, rfl⟩

theorem exists_emit (logger : Logger β ω) (request : Request) :
    ∃ arena queue clock stats,
      (logger.emit request).1 = { logger with arena, queue, clock, stats } :=
  exists_emitIn .task logger request

/-! ## Carrying out acts -/

/-- Acts in a row are carried out in a row, up to the first panic. -/
theorem perform_bind (logger : Logger β ω) (act : Act β ω α) (rest : α → Act β ω γ) :
    logger.perform (act.bind rest) =
      match logger.perform act with
      | (after, some result) => after.perform (rest result)
      | (after, none) => (after, none) := by
  induction act generalizing logger with
  | done result => rfl
  | panic => rfl
  | share change next ih => exact ih _ _
  | emit request next ih => exact ih _ _
  | register registration next ih => exact ih _ _

/-- A panic ends what a sink does and goes no further. -/
theorem perform_attempt (logger : Logger β ω) (act : Act β ω α) :
    logger.perform act.attempt = ((logger.perform act).1, some (logger.perform act).2) := by
  induction act generalizing logger with
  | done result => rfl
  | panic => rfl
  | share change next ih => exact ih _ _
  | emit request next ih => exact ih _ _
  | register registration next ih => exact ih _ _

theorem perform_deliver_attached (behaviour : Behaviour β ω) (logger : Logger β ω) (entry : Entry)
    (name : String) (sink : β) :
    logger.perform (deliver behaviour entry ⟨name, some sink⟩) =
      ((logger.perform (behaviour sink entry)).1,
        some (if (logger.perform (behaviour sink entry)).2.isSome then .delivered
          else .panicked)) := by
  rw [deliver, perform_bind, perform_attempt]
  rfl

/-- One sink panicking does not keep the entry from those behind it. -/
theorem perform_fanOutFrom_cons (behaviour : Behaviour β ω) (logger : Logger β ω) (entry : Entry)
    (tally : Tally) (registration : Registration β) (rest : List (Registration β)) :
    ∃ delivery, (logger.perform (deliver behaviour entry registration)).2 = some delivery ∧
      logger.perform (fanOutFrom behaviour entry tally (registration :: rest)) =
        (logger.perform (deliver behaviour entry registration)).1.perform
          (fanOutFrom behaviour entry (tally.count delivery) rest) := by
  obtain ⟨name, sink⟩ := registration
  cases sink with
  | none => exact ⟨.skipped, rfl, rfl⟩
  | some sink =>
    have hdeliver := perform_deliver_attached behaviour logger entry name sink
    rw [fanOutFrom, perform_bind, hdeliver]
    exact ⟨_, rfl, rfl⟩

/-! ## Dispatching one message -/

def rendered (logger : Logger β ω) (memory : Memory) (message : Message) :
    Render.Outcome (List UInt8) :=
  Render.replayInto logger.texts (message.captured logger.arena)
    ⟨logger.config.formatBufferLength, memory, 0⟩ message.format

/-- The logger while its sinks are handed the oldest message: `rest` is what is queued
behind it. -/
def handling (logger : Logger β ω) (snapshot : Snapshot β) (memory : Memory) (message : Message)
    (rest : List Message) : Logger β ω :=
  { logger with
    queue := { logger.queue with items := rest }
    consumer :=
      .running (logger.registry.refresh snapshot).1
        (logger.rendered memory message).buffer.memory }

@[simp]
theorem stats_handling (logger : Logger β ω) (snapshot : Snapshot β) (memory : Memory)
    (message : Message) (rest : List Message) :
    (logger.handling snapshot memory message rest).stats = logger.stats := rfl

@[simp]
theorem length_queue_handling (logger : Logger β ω) (snapshot : Snapshot β) (memory : Memory)
    (message : Message) (rest : List Message) :
    (logger.handling snapshot memory message rest).queue.length = rest.length := rfl

def entryOf (logger : Logger β ω) (memory : Memory) (message : Message) : Entry :=
  message.entry logger.arena (logger.rendered memory message).buffer.text

/-- Takes the slot of a message back and counts what became of the message. -/
def finish (logger : Logger β ω) (message : Message) (complete : Bool) (tally : Tally) :
    Logger β ω :=
  { logger with
    arena := logger.arena.free message.slot
    stats := logger.stats.recordDispatched (!complete) tally.panicked tally.skipped }

theorem dispatch_of_running (behaviour : Behaviour β ω) {logger : Logger β ω}
    {snapshot : Snapshot β} {memory : Memory} {message : Message} {rest : List Message}
    (hconsumer : logger.consumer = .running snapshot memory)
    (hitems : logger.queue.items = message :: rest) :
    logger.dispatch behaviour =
      let handed := (logger.handling snapshot memory message rest).perform
        (fanOut behaviour (logger.registry.refresh snapshot).1.sinks
          (logger.entryOf memory message))
      handed.1.finish message (logger.rendered memory message).complete (handed.2.getD {}) := by
  have hpop : logger.queue.pop? = some (message, { logger.queue with items := rest }) := by
    rw [Queue.pop?, hitems]
  simp only [dispatch, hconsumer, hpop]
  rfl

theorem running_of_pop? {logger : Logger β ω} {snapshot : Snapshot β} {memory : Memory}
    {message : Message} {queue : Queue Message}
    (hconsumer : logger.consumer = .running snapshot memory)
    (hpop : logger.queue.pop? = some (message, queue)) :
    logger.isRunning ∧ ¬logger.queue.isEmpty := by
  constructor
  · rw [isRunning, hconsumer]
  · rw [Queue.isEmpty, Queue.items_of_pop?_eq_some hpop]
    simp

theorem dispatch_of_not_running (behaviour : Behaviour β ω) {logger : Logger β ω}
    (hrunning : ¬(logger.isRunning ∧ ¬logger.queue.isEmpty)) :
    logger.dispatch behaviour = logger := by
  rw [dispatch]
  split
  · next hconsumer hpop => exact absurd (running_of_pop? hconsumer hpop) hrunning
  · rfl

/-- A logger that can dispatch has a message to dispatch. -/
theorem running_cases {logger : Logger β ω} (hrunning : logger.isRunning ∧ ¬logger.queue.isEmpty) :
    ∃ snapshot memory message rest, logger.consumer = .running snapshot memory ∧
      logger.queue.items = message :: rest := by
  obtain ⟨hrunning, hqueue⟩ := hrunning
  rw [Queue.isEmpty, List.isEmpty_iff] at hqueue
  obtain ⟨message, rest, hitems⟩ := List.exists_cons_of_ne_nil hqueue
  cases hconsumer : logger.consumer with
  | running snapshot memory => exact ⟨snapshot, memory, message, rest, rfl, hitems⟩
  | idle | stopped => exact absurd hrunning (by simp [isRunning, hconsumer])

theorem shutdown_of_running (behaviour : Behaviour β ω) {logger : Logger β ω}
    {snapshot : Snapshot β} {memory : Memory}
    (hconsumer : logger.consumer = .running snapshot memory) :
    logger.shutdown behaviour =
      { dispatchMany behaviour logger.queue.length { logger with queue := logger.queue.close } with
        consumer := .stopped } := by
  rw [shutdown]
  split
  · next hidle => exact absurd (hidle.symm.trans hconsumer) (by simp)
  · rfl
  · next hstopped => exact absurd (hstopped.symm.trans hconsumer) (by simp)

/-! ## Steps of users -/

namespace Session

theorem step_start_cases (behaviour : Behaviour β ω) (session : Session β ω) :
    (session.logger.consumer ≠ .idle ∧ (session.step behaviour .start).1 = session) ∨
      (session.logger.consumer = .idle ∧ (session.step behaviour .start).1 =
        { session with logger := { session.logger with consumer := .running {} {} } }) := by
  cases hconsumer : session.logger.consumer with
  | idle =>
    refine Or.inr ⟨rfl, ?_⟩
    simp only [step, Logger.start, hconsumer]
  | running _ _ | stopped =>
    refine Or.inl ⟨by simp, ?_⟩
    simp only [step, Logger.start, hconsumer]

theorem step_emit (behaviour : Behaviour β ω) (session : Session β ω) (request : Request) :
    (session.step behaviour (.emit request)).1 =
      { session with logger := (session.logger.emit request).1 } := by
  rw [step]
  split
  · next heq => rw [heq]
  · next heq => rw [heq]

theorem turn_emit (behaviour : Behaviour β ω) (session : Session β ω) (caller : Caller)
    (request : Request) :
    (session.turn behaviour (.emit caller request)).1 =
      { session with logger := (session.logger.emitIn caller request).1 } := by
  rw [turn]
  split
  · next heq => rw [heq]
  · next heq => rw [heq]

theorem step_pop_cases (behaviour : Behaviour β ω) (session : Session β ω) :
    (session.logger.queue.items = [] ∧ session.step behaviour .pop = (session, .nothing)) ∨
      ∃ message rest, session.logger.queue.items = message :: rest ∧
        session.step behaviour .pop =
          ({ session with
              logger := session.logger.requeue rest
              messages := (session.messages.add message).2 },
            .popped (session.messages.add message).1 message) := by
  cases hitems : session.logger.queue.items with
  | nil =>
    refine Or.inl ⟨rfl, ?_⟩
    simp only [step, Queue.pop?, hitems]
  | cons message rest =>
    refine Or.inr ⟨message, rest, rfl, ?_⟩
    simp only [step, Queue.pop?, hitems]
    rfl

/-- A push goes through, or hands the message back, if the user has one under that number. -/
theorem step_push_cases (behaviour : Behaviour β ω) (session : Session β ω) (number : Nat) :
    session.step behaviour (.push number) = (session, .gone) ∨
      ∃ message, session.messages.get? number = some message ∧
        ((session.logger.queue.closed = false ∧
          session.step behaviour (.push number) =
            ({ session with
                logger := session.logger.requeue (session.logger.queue.items ++ [message])
                messages := session.messages.remove number },
              .done)) ∨
          ∃ cause, session.step behaviour (.push number) =
            ({ session with messages := ((session.messages.remove number).add message).2 },
              .refused cause ((session.messages.remove number).add message).1)) := by
  cases hheld : session.messages.get? number with
  | none =>
    left
    simp only [step, hheld]
  | some message =>
    refine Or.inr ⟨message, rfl, ?_⟩
    cases hpush : session.logger.queue.push message with
    | ok queue =>
      obtain ⟨⟨hopen, -⟩, rfl⟩ := (Queue.push_eq_ok_iff _ _ _).mp hpush
      refine Or.inl ⟨hopen, ?_⟩
      simp only [step, hheld, hpush]
      rfl
    | error cause =>
      refine Or.inr ⟨cause, ?_⟩
      simp only [step, hheld, hpush]

theorem step_drop_cases (behaviour : Behaviour β ω) (session : Session β ω) (number : Nat) :
    session.step behaviour (.drop number) = (session, .gone) ∨
      ∃ message, session.messages.get? number = some message ∧
        session.step behaviour (.drop number) =
          ({ session with
              logger := { session.logger with arena := session.logger.arena.free message.slot }
              messages := session.messages.remove number },
            .done) := by
  cases hheld : session.messages.get? number with
  | none =>
    left
    simp only [step, hheld]
  | some message =>
    refine Or.inr ⟨message, rfl, ?_⟩
    simp only [step, hheld]

/-- Describing a message shows it and changes nothing. -/
theorem step_describeMessage (behaviour : Behaviour β ω) (session : Session β ω) (number : Nat) :
    (session.step behaviour (.describeMessage number)).1 = session := by
  cases hheld : session.messages.get? number with
  | none | some _ => simp only [step, hheld]

/-! ## Users' work in the arena -/

/-- The session after a user's work in the arena alone. -/
def worked (session : Session β ω) (turn : Arena.Turn) : Session β ω :=
  let after := ((Arena.Session.mk session.logger.arena session.slots).turn turn).1
  { session with logger := { session.logger with arena := after.arena }, slots := after.slots }

theorem turn_allocate (behaviour : Behaviour β ω) (session : Session β ω) (access : Arena.Access)
    (length : Nat) :
    (session.turn behaviour (.allocate access length)).1 =
      session.worked (.allocate (session.logger.enters access) length) := by
  simp only [Session.turn, worked, Arena.Session.turn]
  cases session.logger.arena.allocateIn (session.logger.enters access) length <;> rfl

theorem turn_free (behaviour : Behaviour β ω) (session : Session β ω) (access : Arena.Access)
    (number : Nat) :
    (session.turn behaviour (.free access number)).1 =
      session.worked (.free (session.logger.enters access) number) := by
  simp only [Session.turn, worked, Arena.Session.turn]
  cases session.slots.get? number <;> rfl

end Session

end LogRelay.Logger
