import LogRelay.Proofs.Logger.Steps

/-!
# The history of a run

What a logger has done cannot be told from the state it is in.  A watched run is a run
of the same logger whose sinks also keep a history: whatever is registered, emitted,
begun, handed over, taken out or put back is noted there when it happens.  Forgetting
the history gives the run that nobody watched.
-/

namespace LogRelay

inductive Event (β : Type) where
  | registered (registration : Registration β)
  | emitted (request : Request) (outcome : Except Failure Unit)
  /-- The dispatch of the oldest queued message begins. -/
  | begun
  | handed (sink : β) (entry : Entry)
  /-- A user took a message out of the queue. -/
  | taken
  /-- A user put a message back. -/
  | returned

variable {β ω α : Type}

namespace Event

def isEmit : Event β → Bool
  | .emitted _ _ => true
  | _ => false

def isBegun : Event β → Bool
  | .begun => true
  | _ => false

def isHanded : Event β → Bool
  | .handed _ _ => true
  | _ => false

def isTaken : Event β → Bool
  | .taken => true
  | _ => false

def isReturned : Event β → Bool
  | .returned => true
  | _ => false

/-- Neither an emit nor a dispatch, and nothing that a user does to the queue. -/
def isAside : Event β → Bool
  | .registered _ | .handed _ _ => true
  | .emitted _ _ | .begun | .taken | .returned => false

def accepted? : Event β → Option Request
  | .emitted request (.ok ()) => some request
  | _ => none

def registration? : Event β → Option (Registration β)
  | .registered registration => some registration
  | _ => none

end Event

namespace History

/-- The requests accepted so far, the oldest first. -/
def accepted (history : List (Event β)) : List Request :=
  history.filterMap Event.accepted?

/-- The sinks registered so far, detached ones included. -/
def registered (history : List (Event β)) : List (Registration β) :=
  history.filterMap Event.registration?

/-- The sinks that can be handed something, in the order of their registration. -/
def attached (history : List (Event β)) : List β :=
  (registered history).filterMap Registration.sink

theorem accepted_append (history events : List (Event β)) :
    accepted (history ++ events) = accepted history ++ accepted events :=
  List.filterMap_append

theorem registered_append (history events : List (Event β)) :
    registered (history ++ events) = registered history ++ registered events :=
  List.filterMap_append

end History

/-- What the sinks keep, and what happened so far. -/
structure Watched (β ω : Type) where
  world : ω
  history : List (Event β) := []

namespace Watched

def note (watched : Watched β ω) (event : Event β) : Watched β ω :=
  { watched with history := watched.history ++ [event] }

def change (change : ω → ω) (watched : Watched β ω) : Watched β ω :=
  { watched with world := change watched.world }

end Watched

/-- The same act, with a note of each message emitted and each sink registered. -/
def Act.watched : Act β ω α → Act β (Watched β ω) α
  | .done result => .done result
  | .panic => .panic
  | .share change next => .share (Watched.change change) fun watched => (next watched.world).watched
  | .emit request next =>
    .emit request fun outcome =>
      .share (·.note (.emitted request outcome)) fun _ => (next outcome).watched
  | .register registration next =>
    .register registration fun position =>
      .share (·.note (.registered registration)) fun _ => (next position).watched

/-- The same behaviour, with a note of each entry handed to a sink. -/
def Behaviour.watched (behaviour : Behaviour β ω) : Behaviour β (Watched β ω) :=
  fun sink entry => .share (·.note (.handed sink entry)) fun _ => (behaviour sink entry).watched

namespace Logger

/-! ## Watching -/

def history (logger : Logger β (Watched β ω)) : List (Event β) :=
  logger.world.history

def note (logger : Logger β (Watched β ω)) (event : Event β) : Logger β (Watched β ω) :=
  { logger with world := logger.world.note event }

@[simp]
theorem history_note (logger : Logger β (Watched β ω)) (event : Event β) :
    (logger.note event).history = logger.history ++ [event] := rfl

@[simp]
theorem stats_note (logger : Logger β (Watched β ω)) (event : Event β) :
    (logger.note event).stats = logger.stats := rfl

@[simp]
theorem queue_note (logger : Logger β (Watched β ω)) (event : Event β) :
    (logger.note event).queue = logger.queue := rfl

@[simp]
theorem history_accept (logger : Logger β (Watched β ω)) (arena : Arena) (message : Message) :
    (logger.accept arena message).history = logger.history := rfl

@[simp]
theorem history_refuse (logger : Logger β (Watched β ω)) (arena : Arena) (failure : Failure) :
    (logger.refuse arena failure).history = logger.history := rfl

@[simp]
theorem history_requeue (logger : Logger β (Watched β ω)) (items : List Message) :
    (logger.requeue items).history = logger.history := rfl

@[simp]
theorem history_handling (logger : Logger β (Watched β ω)) (snapshot : Snapshot β)
    (memory : Memory) (message : Message) (rest : List Message) :
    (logger.handling snapshot memory message rest).history = logger.history := rfl

/-- An emit does not note itself. -/
theorem history_emitIn (caller : Caller) (logger : Logger β (Watched β ω)) (request : Request) :
    (logger.emitIn caller request).1.history = logger.history := by
  obtain ⟨arena, queue, clock, stats, hemit⟩ := exists_emitIn caller logger request
  rw [hemit]
  rfl

theorem history_emit (logger : Logger β (Watched β ω)) (request : Request) :
    (logger.emit request).1.history = logger.history :=
  history_emitIn .task logger request

/-- A logger about to be watched. -/
def watched (logger : Logger β ω) : Logger β (Watched β ω) :=
  { logger with world := { world := logger.world } }

/-- The logger without its history. -/
def unwatched (logger : Logger β (Watched β ω)) : Logger β ω :=
  { logger with world := logger.world.world }

def watchedDispatch (behaviour : Behaviour β ω) (logger : Logger β (Watched β ω)) :
    Logger β (Watched β ω) :=
  if logger.isRunning ∧ ¬logger.queue.isEmpty then (logger.note .begun).dispatch behaviour.watched
  else logger

/-- A watched dispatch is a dispatch with a note that it began. -/
theorem watchedDispatch_of_running (behaviour : Behaviour β ω) {logger : Logger β (Watched β ω)}
    {snapshot : Snapshot β} {memory : Memory} {message : Message} {rest : List Message}
    (hconsumer : logger.consumer = .running snapshot memory)
    (hitems : logger.queue.items = message :: rest) :
    logger.watchedDispatch behaviour =
      let handed := ((logger.note .begun).handling snapshot memory message rest).perform
        (fanOut behaviour.watched (logger.registry.refresh snapshot).1.sinks
          (logger.entryOf memory message))
      handed.1.finish message (logger.rendered memory message).complete (handed.2.getD {}) := by
  have hrunning : logger.isRunning ∧ ¬logger.queue.isEmpty := by
    simp [isRunning, hconsumer, Queue.isEmpty, hitems]
  have hdispatch : (logger.note .begun).dispatch behaviour.watched = _ :=
    dispatch_of_running behaviour.watched hconsumer hitems
  rw [watchedDispatch, if_pos hrunning, hdispatch]
  rfl

theorem watchedDispatch_of_not_running (behaviour : Behaviour β ω)
    {logger : Logger β (Watched β ω)} (hrunning : ¬(logger.isRunning ∧ ¬logger.queue.isEmpty)) :
    logger.watchedDispatch behaviour = logger := by
  rw [watchedDispatch, if_neg hrunning]

/-- Either there is nothing to dispatch, or the oldest message is handed to the sinks
and finished. -/
theorem watchedDispatch_cases (behaviour : Behaviour β ω) (logger : Logger β (Watched β ω)) :
    ((logger.isRunning → logger.queue.items = []) ∧ logger.watchedDispatch behaviour = logger) ∨
      ∃ snapshot memory message rest, logger.consumer = .running snapshot memory ∧
        logger.queue.items = message :: rest ∧
        ∃ complete tally, logger.watchedDispatch behaviour =
          (((logger.note .begun).handling snapshot memory message rest).perform
            (fanOut behaviour.watched (logger.registry.refresh snapshot).1.sinks
              (logger.entryOf memory message))).1.finish message complete tally := by
  by_cases hrunning : logger.isRunning ∧ ¬logger.queue.isEmpty
  · obtain ⟨snapshot, memory, message, rest, hconsumer, hitems⟩ := running_cases hrunning
    exact Or.inr ⟨snapshot, memory, message, rest, hconsumer, hitems, _, _,
      watchedDispatch_of_running behaviour hconsumer hitems⟩
  · refine Or.inl ⟨fun hrunning' => ?_, watchedDispatch_of_not_running behaviour hrunning⟩
    rw [Decidable.not_and_not_right] at hrunning
    exact List.isEmpty_iff.mp (hrunning hrunning')

def watchedDispatchMany (behaviour : Behaviour β ω) :
    Nat → Logger β (Watched β ω) → Logger β (Watched β ω)
  | 0, logger => logger
  | count + 1, logger => watchedDispatchMany behaviour count (logger.watchedDispatch behaviour)

def watchedShutdown (behaviour : Behaviour β ω) (logger : Logger β (Watched β ω)) :
    Logger β (Watched β ω) :=
  let closed := { logger with queue := logger.queue.close }
  match logger.consumer with
  | .idle => { closed.discardPending with consumer := .stopped }
  | .running _ _ =>
    { watchedDispatchMany behaviour closed.queue.length closed with consumer := .stopped }
  | .stopped => logger

theorem watchedShutdown_of_running (behaviour : Behaviour β ω) {logger : Logger β (Watched β ω)}
    {snapshot : Snapshot β} {memory : Memory}
    (hconsumer : logger.consumer = .running snapshot memory) :
    logger.watchedShutdown behaviour =
      { watchedDispatchMany behaviour logger.queue.length
          { logger with queue := logger.queue.close } with
        consumer := .stopped } := by
  rw [watchedShutdown]
  split
  · next hidle => exact absurd (hidle.symm.trans hconsumer) (by simp)
  · rfl
  · next hstopped => exact absurd (hstopped.symm.trans hconsumer) (by simp)

/-! ## Forgetting what was noted -/

theorem unwatched_placeIn (took gave : Bool) (logger : Logger β (Watched β ω))
    (request : Request) :
    logger.unwatched.placeIn took gave request =
      ((logger.placeIn took gave request).1.unwatched,
        (logger.placeIn took gave request).2) := by
  cases hformat : request.format with
  | none => simp only [placeIn, hformat]
  | some format =>
    simp only [placeIn, hformat, unwatched]
    cases Message.createIn took gave logger.arena logger.clock request format with
    | mk arena created =>
      cases created with
      | error failure => rfl
      | ok message => cases hpush : logger.queue.push message <;> simp only [hpush]

/-- Watching changes nothing of what is watched: whoever emits gets the same answer. -/
theorem unwatched_emitIn (caller : Caller) (logger : Logger β (Watched β ω))
    (request : Request) :
    logger.unwatched.emitIn caller request =
      ((logger.emitIn caller request).1.unwatched, (logger.emitIn caller request).2) := by
  have hplace : logger.unwatched.placeIn (logger.unwatched.enters caller.taking)
      (logger.unwatched.enters caller.giving) request = _ :=
    unwatched_placeIn (logger.enters caller.taking) (logger.enters caller.giving) logger request
  rw [emitIn, hplace, emitIn]
  cases logger.placeIn (logger.enters caller.taking) (logger.enters caller.giving) request with
  | mk placed outcome => cases outcome <;> rfl

theorem unwatched_emit (logger : Logger β (Watched β ω)) (request : Request) :
    logger.unwatched.emit request =
      ((logger.emit request).1.unwatched, (logger.emit request).2) :=
  unwatched_emitIn .task logger request

/-- What an act does to the logger and what it results in do not depend on the notes. -/
theorem unwatched_perform (logger : Logger β (Watched β ω)) (act : Act β ω α) :
    logger.unwatched.perform act =
      ((logger.perform act.watched).1.unwatched, (logger.perform act.watched).2) := by
  induction act generalizing logger with
  | done result => rfl
  | panic => rfl
  | share change next ih => exact ih _ { logger with world := logger.world.change change }
  | emit request next ih =>
    rw [perform, unwatched_emit]
    exact ih _ ((logger.emit request).1.note (.emitted request (logger.emit request).2))
  | register registration next ih =>
    exact ih _ ((logger.register registration).2.note (.registered registration))

theorem unwatched_deliver (behaviour : Behaviour β ω) (logger : Logger β (Watched β ω))
    (entry : Entry) (registration : Registration β) :
    logger.unwatched.perform (deliver behaviour entry registration) =
      ((logger.perform (deliver behaviour.watched entry registration)).1.unwatched,
        (logger.perform (deliver behaviour.watched entry registration)).2) := by
  obtain ⟨name, sink⟩ := registration
  cases sink with
  | none => rfl
  | some sink =>
    have hsink : logger.unwatched.perform (behaviour sink entry) =
        ((logger.perform (behaviour.watched sink entry)).1.unwatched,
          (logger.perform (behaviour.watched sink entry)).2) :=
      unwatched_perform (logger.note (.handed sink entry)) (behaviour sink entry)
    rw [perform_deliver_attached, perform_deliver_attached, hsink]

theorem unwatched_fanOutFrom (behaviour : Behaviour β ω) (logger : Logger β (Watched β ω))
    (entry : Entry) (tally : Tally) (sinks : List (Registration β)) :
    logger.unwatched.perform (fanOutFrom behaviour entry tally sinks) =
      ((logger.perform (fanOutFrom behaviour.watched entry tally sinks)).1.unwatched,
        (logger.perform (fanOutFrom behaviour.watched entry tally sinks)).2) := by
  induction sinks generalizing logger tally with
  | nil => rfl
  | cons registration rest ih =>
    obtain ⟨delivery, hdelivery, hperform⟩ :=
      perform_fanOutFrom_cons behaviour logger.unwatched entry tally registration rest
    obtain ⟨delivery', hdelivery', hperform'⟩ :=
      perform_fanOutFrom_cons behaviour.watched logger entry tally registration rest
    rw [unwatched_deliver] at hdelivery hperform
    obtain rfl : delivery = delivery' := Option.some.inj (hdelivery.symm.trans hdelivery')
    rw [hperform, hperform', ih]

theorem unwatched_dispatch (behaviour : Behaviour β ω) (logger : Logger β (Watched β ω)) :
    (logger.watchedDispatch behaviour).unwatched = logger.unwatched.dispatch behaviour := by
  by_cases hrunning : logger.isRunning ∧ ¬logger.queue.isEmpty
  · obtain ⟨snapshot, memory, message, rest, hconsumer, hitems⟩ := running_cases hrunning
    have hplain : logger.unwatched.dispatch behaviour = _ :=
      dispatch_of_running behaviour hconsumer hitems
    have hhanded := unwatched_fanOutFrom behaviour
      ((logger.note .begun).handling snapshot memory message rest)
      (logger.entryOf memory message) {} (logger.registry.refresh snapshot).1.sinks
    rw [watchedDispatch_of_running behaviour hconsumer hitems, hplain]
    exact congrArg (fun handed : Logger β ω × Option Tally =>
      handed.1.finish message (logger.rendered memory message).complete (handed.2.getD {}))
      hhanded.symm
  · rw [watchedDispatch_of_not_running behaviour hrunning]
    exact (dispatch_of_not_running behaviour hrunning).symm

theorem unwatched_dispatchMany (behaviour : Behaviour β ω) (count : Nat)
    (logger : Logger β (Watched β ω)) :
    (logger.watchedDispatchMany behaviour count).unwatched =
      logger.unwatched.dispatchMany behaviour count := by
  induction count generalizing logger with
  | zero => rfl
  | succ count ih => rw [watchedDispatchMany, ih, unwatched_dispatch, dispatchMany]

theorem unwatched_shutdown (behaviour : Behaviour β ω) (logger : Logger β (Watched β ω)) :
    (logger.watchedShutdown behaviour).unwatched = logger.unwatched.shutdown behaviour := by
  cases hconsumer : logger.consumer with
  | idle | stopped =>
    simp only [watchedShutdown, shutdown, hconsumer, unwatched, discardPending]
  | running snapshot memory =>
    have hunwatched : logger.unwatched.consumer = .running snapshot memory := hconsumer
    have hmany := unwatched_dispatchMany behaviour logger.queue.length
      { logger with queue := logger.queue.close }
    rw [watchedShutdown_of_running behaviour hconsumer, shutdown_of_running behaviour hunwatched]
    exact congrArg (fun after : Logger β ω => { after with consumer := .stopped }) hmany

end Logger

/-! ## What sinks cannot change -/

namespace Logger

/-- Whatever a sink does while it is watched, the property stays. -/
structure KeptBySinks (motive : Logger β (Watched β ω) → Prop) : Prop where
  change : ∀ logger change, motive logger →
    motive { logger with world := logger.world.change change }
  emit : ∀ logger request, motive logger →
    motive ((logger.emit request).1.note (.emitted request (logger.emit request).2))
  register : ∀ logger registration, motive logger →
    motive ((logger.register registration).2.note (.registered registration))

variable {motive : Logger β (Watched β ω) → Prop} {logger : Logger β (Watched β ω)}

/-- By recursion on the act: each thing that it does keeps the property. -/
theorem KeptBySinks.perform (hkept : KeptBySinks motive) (act : Act β ω α)
    (hlogger : motive logger) : motive (logger.perform act.watched).1 := by
  induction act generalizing logger with
  | done result => exact hlogger
  | panic => exact hlogger
  | share change next ih => exact ih _ (hkept.change _ _ hlogger)
  | emit request next ih => exact ih _ (hkept.emit _ request hlogger)
  | register registration next ih => exact ih _ (hkept.register _ registration hlogger)

/-- A property that stays whatever one sink does stays through a whole fan-out, if it
does not depend on what was handed over. -/
theorem KeptBySinks.fanOutFrom (hkept : KeptBySinks motive) (behaviour : Behaviour β ω)
    (entry : Entry)
    (hhand : ∀ logger sink, motive logger → motive (logger.note (.handed sink entry)))
    (tally : Tally) (sinks : List (Registration β)) (hlogger : motive logger) :
    motive (logger.perform (LogRelay.fanOutFrom behaviour.watched entry tally sinks)).1 := by
  induction sinks generalizing logger tally with
  | nil => exact hlogger
  | cons registration rest ih =>
    obtain ⟨delivery, -, hperform⟩ :=
      perform_fanOutFrom_cons behaviour.watched logger entry tally registration rest
    rw [hperform]
    apply ih
    obtain ⟨name, sink⟩ := registration
    cases sink with
    | none => exact hlogger
    | some sink =>
      rw [perform_deliver_attached]
      exact hkept.perform (behaviour sink entry) (hhand logger sink hlogger)

end Logger

namespace Logger.Session

def run (behaviour : Behaviour β ω) (session : Session β ω) (steps : List (Step β)) :
    Session β ω :=
  steps.foldl (fun session step => (session.step behaviour step).1) session

def watched (session : Session β ω) : Session β (Watched β ω) :=
  { session with logger := session.logger.watched }

def unwatched (session : Session β (Watched β ω)) : Session β ω :=
  { session with logger := session.logger.unwatched }

def note (session : Session β (Watched β ω)) (event : Event β) : Session β (Watched β ω) :=
  { session with logger := session.logger.note event }

def watchedStep (behaviour : Behaviour β ω) (session : Session β (Watched β ω)) :
    Step β → Session β (Watched β ω)
  | .register registration =>
    let (_, logger) := session.logger.register registration
    { session with logger := logger.note (.registered registration) }
  | .emit request =>
    let (logger, outcome) := session.logger.emit request
    { session with logger := logger.note (.emitted request outcome) }
  | .dispatch => { session with logger := session.logger.watchedDispatch behaviour }
  | .shutdown => { session with logger := session.logger.watchedShutdown behaviour }
  | .pop =>
    match session.step behaviour.watched .pop with
    | (after, .popped _ _) => after.note .taken
    | (after, _) => after
  | .push number =>
    match session.step behaviour.watched (.push number) with
    | (after, .done) => after.note .returned
    | (after, _) => after
  | .start => (session.step behaviour.watched .start).1
  | .drop number => (session.step behaviour.watched (.drop number)).1
  | .arena step => (session.step behaviour.watched (.arena step)).1
  | .describe => (session.step behaviour.watched .describe).1
  | .describeMessage number => (session.step behaviour.watched (.describeMessage number)).1

def watchedRun (behaviour : Behaviour β ω) (session : Session β (Watched β ω))
    (steps : List (Step β)) : Session β (Watched β ω) :=
  steps.foldl (watchedStep behaviour) session

/-- What happens when steps are taken in order. -/
def historyOf (behaviour : Behaviour β ω) (session : Session β ω) (steps : List (Step β)) :
    List (Event β) :=
  (session.watched.watchedRun behaviour steps).logger.history

/-! ## Steps of users who take messages into hand -/

theorem watchedStep_pop_cases (behaviour : Behaviour β ω) (session : Session β (Watched β ω)) :
    (session.logger.queue.items = [] ∧ session.watchedStep behaviour .pop = session) ∨
      ∃ message rest, session.logger.queue.items = message :: rest ∧
        session.watchedStep behaviour .pop =
          { session with
            logger := (session.logger.requeue rest).note .taken
            messages := (session.messages.add message).2 } := by
  rcases step_pop_cases behaviour.watched session with
    ⟨hitems, hpop⟩ | ⟨message, rest, hitems, hpop⟩
  · refine Or.inl ⟨hitems, ?_⟩
    rw [watchedStep, hpop]
  · refine Or.inr ⟨message, rest, hitems, ?_⟩
    rw [watchedStep, hpop]
    rfl

theorem watchedStep_push_cases (behaviour : Behaviour β ω) (session : Session β (Watched β ω))
    (number : Nat) :
    session.watchedStep behaviour (.push number) = session ∨
      ∃ message, session.messages.get? number = some message ∧
        ((session.logger.queue.closed = false ∧
          session.watchedStep behaviour (.push number) =
            { session with
              logger :=
                (session.logger.requeue (session.logger.queue.items ++ [message])).note .returned
              messages := session.messages.remove number }) ∨
          session.watchedStep behaviour (.push number) =
            { session with messages := ((session.messages.remove number).add message).2 }) := by
  rcases step_push_cases behaviour.watched session number with
    hpush | ⟨message, hheld, ⟨hopen, hpush⟩ | ⟨cause, hpush⟩⟩
  · left
    rw [watchedStep, hpush]
  · refine Or.inr ⟨message, hheld, Or.inl ⟨hopen, ?_⟩⟩
    rw [watchedStep, hpush]
    rfl
  · refine Or.inr ⟨message, hheld, Or.inr ?_⟩
    rw [watchedStep, hpush]

theorem watchedStep_drop_cases (behaviour : Behaviour β ω) (session : Session β (Watched β ω))
    (number : Nat) :
    session.watchedStep behaviour (.drop number) = session ∨
      ∃ message, session.messages.get? number = some message ∧
        session.watchedStep behaviour (.drop number) =
          { session with
            logger := { session.logger with arena := session.logger.arena.free message.slot }
            messages := session.messages.remove number } := by
  rcases step_drop_cases behaviour.watched session number with hdrop | ⟨message, hheld, hdrop⟩
  · left
    rw [watchedStep, hdrop]
  · refine Or.inr ⟨message, hheld, ?_⟩
    rw [watchedStep, hdrop]

theorem watchedStep_start_cases (behaviour : Behaviour β ω) (session : Session β (Watched β ω)) :
    (session.logger.consumer ≠ .idle ∧ session.watchedStep behaviour .start = session) ∨
      (session.logger.consumer = .idle ∧ session.watchedStep behaviour .start =
        { session with logger := { session.logger with consumer := .running {} {} } }) :=
  step_start_cases behaviour.watched session

theorem watchedStep_describeMessage (behaviour : Behaviour β ω)
    (session : Session β (Watched β ω)) (number : Nat) :
    session.watchedStep behaviour (.describeMessage number) = session :=
  step_describeMessage behaviour.watched session number

/-! ## A watched run is a run -/

/-- Taking a step and forgetting the history come to the same in either order. -/
theorem unwatched_step (behaviour : Behaviour β ω) (session : Session β (Watched β ω))
    (step : Step β) :
    (session.watchedStep behaviour step).unwatched = (session.unwatched.step behaviour step).1 := by
  cases step with
  | register registration => rfl
  | start =>
    simp only [watchedStep, Session.step, Logger.start, unwatched, Logger.unwatched]
    cases hconsumer : session.logger.consumer with
    | idle | running _ _ | stopped => simp only [hconsumer]
  | shutdown =>
    exact congrArg (fun logger => Session.mk logger session.slots session.messages)
      (unwatched_shutdown behaviour session.logger)
  | emit request =>
    have hemit : session.unwatched.logger.emit request = _ := unwatched_emit session.logger request
    simp only [watchedStep, Session.step, hemit]
    cases (session.logger.emit request).2 <;> rfl
  | dispatch =>
    exact congrArg (fun logger => Session.mk logger session.slots session.messages)
      (unwatched_dispatch behaviour session.logger)
  | pop =>
    simp only [watchedStep, Session.step, unwatched, Logger.unwatched]
    cases session.logger.queue.pop? with
    | none | some => simp only [note, Logger.note, Watched.note]
  | push number =>
    simp only [watchedStep, Session.step, unwatched, Logger.unwatched]
    cases session.messages.get? number with
    | none => simp only
    | some message =>
      simp only
      cases session.logger.queue.push message with
      | ok | error => simp only [note, Logger.note, Watched.note]
  | drop number | describeMessage number =>
    simp only [watchedStep, Session.step, unwatched, Logger.unwatched]
    cases session.messages.get? number with
    | none | some => simp only
  | arena step => rfl
  | describe => rfl

/-- Forgetting the history of a watched run gives the run that was not watched. -/
theorem unwatched_run (behaviour : Behaviour β ω) (session : Session β (Watched β ω))
    (steps : List (Step β)) :
    (session.watchedRun behaviour steps).unwatched = session.unwatched.run behaviour steps := by
  induction steps generalizing session with
  | nil => rfl
  | cons step rest ih =>
    calc
      (session.watchedRun behaviour (step :: rest)).unwatched =
          (session.watchedStep behaviour step).unwatched.run behaviour rest := ih _
      _ = session.unwatched.run behaviour (step :: rest) := by rw [unwatched_step]; rfl

theorem watchedRun_concat (behaviour : Behaviour β ω) (session : Session β (Watched β ω))
    (steps : List (Step β)) (step : Step β) :
    session.watchedRun behaviour (steps ++ [step]) =
      (session.watchedRun behaviour steps).watchedStep behaviour step := by
  rw [watchedRun, List.foldl_append]
  rfl

/-! ## Turns -/

def watchedTurn (behaviour : Behaviour β ω) (session : Session β (Watched β ω)) :
    Turn β → Session β (Watched β ω)
  | .step step => session.watchedStep behaviour step
  | .emit caller request =>
    let (logger, outcome) := session.logger.emitIn caller request
    { session with logger := logger.note (.emitted request outcome) }
  | .allocate access length => (session.turn behaviour.watched (.allocate access length)).1
  | .free access number => (session.turn behaviour.watched (.free access number)).1

def watchedAfter (behaviour : Behaviour β ω) (session : Session β (Watched β ω))
    (turns : List (Turn β)) : Session β (Watched β ω) :=
  turns.foldl (watchedTurn behaviour) session

/-- What happens when turns are taken in order. -/
def historyAfter (behaviour : Behaviour β ω) (session : Session β ω) (turns : List (Turn β)) :
    List (Event β) :=
  (session.watched.watchedAfter behaviour turns).logger.history

theorem unwatched_turn (behaviour : Behaviour β ω) (session : Session β (Watched β ω))
    (turn : Turn β) :
    (session.watchedTurn behaviour turn).unwatched = (session.unwatched.turn behaviour turn).1 := by
  cases turn with
  | step step => exact unwatched_step behaviour session step
  | emit caller request =>
    have hemit := unwatched_emitIn caller session.logger request
    rw [turn_emit]
    exact congrArg (fun logger => Session.mk logger session.slots session.messages)
      (congrArg Prod.fst hemit).symm
  | allocate access length =>
    have henters : session.unwatched.logger.enters access = session.logger.enters access := rfl
    have harena : session.unwatched.logger.arena = session.logger.arena := rfl
    simp only [watchedTurn, Session.turn, henters, harena]
    cases session.logger.arena.allocateIn (session.logger.enters access) length <;> rfl
  | free access number =>
    have hslots : session.unwatched.slots = session.slots := rfl
    simp only [watchedTurn, Session.turn, hslots]
    cases session.slots.get? number <;> rfl

/-- Forgetting the history of watched turns gives the turns that nobody watched. -/
theorem unwatched_after (behaviour : Behaviour β ω) (session : Session β (Watched β ω))
    (turns : List (Turn β)) :
    (session.watchedAfter behaviour turns).unwatched =
      session.unwatched.after behaviour turns := by
  induction turns generalizing session with
  | nil => rfl
  | cons turn rest ih =>
    calc
      (session.watchedAfter behaviour (turn :: rest)).unwatched =
          (session.watchedTurn behaviour turn).unwatched.after behaviour rest := ih _
      _ = session.unwatched.after behaviour (turn :: rest) := by rw [unwatched_turn]; rfl

theorem watchedAfter_concat (behaviour : Behaviour β ω) (session : Session β (Watched β ω))
    (turns : List (Turn β)) (turn : Turn β) :
    session.watchedAfter behaviour (turns ++ [turn]) =
      (session.watchedAfter behaviour turns).watchedTurn behaviour turn := by
  rw [watchedAfter, List.foldl_append]
  rfl

/-- A run is what comes of turns that are all steps. -/
theorem watchedAfter_map_step (behaviour : Behaviour β ω) (session : Session β (Watched β ω))
    (steps : List (Step β)) :
    session.watchedAfter behaviour (steps.map Turn.step) = session.watchedRun behaviour steps :=
  List.foldl_map

end Logger.Session

end LogRelay
