import LogRelay.Proofs.Logger.Stopping
import LogRelay.Proofs.Message

/-!
# No message is lost count of

Every message that was accepted is in exactly one place: handed over, discarded,
queued, or in the hands of a user who took it out.  Every emit that was not accepted is
counted by its cause, whether a task made it or an interrupt handler who did without the
guard of the arena.  Both balances hold at the end of every turn, so a logger whose queue
nobody else touches is owed exactly what it has queued, and nothing at all once it is shut
down.
-/

namespace LogRelay

variable {β ω : Type}

/-- Emits that were not accepted, whatever the cause. -/
def Stats.refused (stats : Stats) : Nat :=
  stats.droppedArena + stats.droppedQueue + stats.droppedTranscription + stats.rejectedInvalid

/-- Every cause that an emit can fail of has a counter. -/
theorem Stats.refused_recordFailure (stats : Stats) {failure : Failure}
    (hsetup : ∀ fault, failure ≠ .setup fault) :
    (stats.recordFailure failure).refused = stats.refused + 1 := by
  cases failure with
  | invalidArgument input => simp only [recordFailure, refused]; omega
  | transcription fault => simp only [recordFailure, refused]; omega
  | resourceExhausted cause => cases cause <;> simp only [recordFailure, refused] <;> omega
  | setup fault => exact absurd rfl (hsetup fault)

theorem Stats.recordFailure_kept (stats : Stats) (failure : Failure) :
    (stats.recordFailure failure).emitted = stats.emitted ∧
      (stats.recordFailure failure).dispatched = stats.dispatched ∧
      (stats.recordFailure failure).discarded = stats.discarded := by
  cases failure with
  | resourceExhausted cause => cases cause <;> exact ⟨rfl, rfl, rfl⟩
  | invalidArgument _ | transcription _ | setup _ => exact ⟨rfl, rfl, rfl⟩

namespace Logger

theorem Refuses.not_setup {caller : Caller} {logger : Logger β ω} {request : Request}
    {arena : Arena} {failure : Failure} (hrefuses : Refuses caller logger request arena failure)
    (fault : SetupFault) :
    failure ≠ .setup fault := by
  cases hrefuses with
  | absentFormat => simp
  | unplaced _ hcreate =>
    rcases Message.createIn_eq_error hcreate with ⟨_, -, -, rfl⟩ | ⟨_, _, _, -, -, -, rfl⟩
    · simp
    · simp
  | unqueued => simp

/-! ## The balance -/

/-- The counters agree with the history, while `held` messages at least are in users'
hands and `inHand` messages are out of the queue to be handed over. -/
structure Balanced (logger : Logger β (Watched β ω)) (held inHand : Nat) : Prop where
  accepted :
    logger.stats.emitted + logger.history.countP Event.isReturned =
      logger.stats.dispatched + logger.stats.discarded + logger.queue.length +
        logger.history.countP Event.isTaken + inHand
  attempts :
    logger.history.countP Event.isEmit = logger.stats.emitted + logger.stats.refused
  returned_le :
    logger.history.countP Event.isReturned + held ≤ logger.history.countP Event.isTaken
  emitted_eq : (History.accepted logger.history).length = logger.stats.emitted
  begun_eq : logger.history.countP Event.isBegun = logger.stats.dispatched + inHand

variable {held inHand : Nat} {logger : Logger β (Watched β ω)}

theorem length_accepted_note (logger : Logger β (Watched β ω)) (event : Event β) :
    (History.accepted (logger.note event).history).length =
      (History.accepted logger.history).length + (History.accepted [event]).length := by
  rw [history_note, History.accepted_append, List.length_append]

/-- Registrations and what is handed over have no weight. -/
theorem Balanced.note (hbalanced : logger.Balanced held inHand) {event : Event β}
    (haside : event.isAside = true) : (logger.note event).Balanced held inHand := by
  obtain ⟨haccepted, hattempts, hheld, hemitted, hbegun⟩ := hbalanced
  cases event with
  | registered _ | handed _ _ =>
    constructor
    · simpa [Event.isReturned, Event.isTaken] using haccepted
    · simpa [Event.isEmit] using hattempts
    · simpa [Event.isReturned, Event.isTaken] using hheld
    · rw [length_accepted_note, hemitted]
      rfl
    · simpa [Event.isBegun] using hbegun
  | emitted _ _ | begun | taken | returned => exact absurd haside (by simp [Event.isAside])

theorem Balanced.accept (hbalanced : logger.Balanced held inHand) (request : Request)
    (arena : Arena) (message : Message) :
    ((logger.accept arena message).note (.emitted request (.ok ()))).Balanced held inHand := by
  obtain ⟨haccepted, hattempts, hheld, hemitted, hbegun⟩ := hbalanced
  constructor
  · simp [Event.isReturned, Event.isTaken, Stats.recordEmitted]
    omega
  · simp [Event.isEmit, Stats.recordEmitted, Stats.refused] at hattempts ⊢
    omega
  · simpa [Event.isReturned, Event.isTaken] using hheld
  · rw [length_accepted_note, history_accept, hemitted]
    rfl
  · simpa [Event.isBegun, Stats.recordEmitted] using hbegun

theorem Balanced.refuse (hbalanced : logger.Balanced held inHand) {caller : Caller}
    {request : Request} {arena : Arena} {failure : Failure}
    (hrefuses : Refuses caller logger request arena failure) :
    ((logger.refuse arena failure).note (.emitted request (.error failure))).Balanced held
      inHand := by
  obtain ⟨haccepted, hattempts, hheld, hemitted, hbegun⟩ := hbalanced
  have hrefused := logger.stats.refused_recordFailure hrefuses.not_setup
  obtain ⟨hsame, hdispatched, hdiscarded⟩ := logger.stats.recordFailure_kept failure
  constructor
  · simpa [hsame, hdispatched, hdiscarded, Event.isReturned, Event.isTaken] using haccepted
  · simp [hsame, hrefused, Event.isEmit]
    omega
  · simpa [Event.isReturned, Event.isTaken] using hheld
  · rw [length_accepted_note, history_refuse, hemitted, stats_note, stats_refuse, hsame]
    rfl
  · simpa [hdispatched, Event.isBegun] using hbegun

/-- Whoever emits, and whether or not the guard is to be had, the emit is counted once. -/
theorem Balanced.emitIn (hbalanced : logger.Balanced held inHand) (caller : Caller)
    (request : Request) :
    ((logger.emitIn caller request).1.note
      (.emitted request (logger.emitIn caller request).2)).Balanced held inHand := by
  rcases emitIn_cases caller logger request with
    ⟨_, arena, message, -, -, -, -, hemit⟩ | ⟨arena, failure, hrefuses, hemit⟩
  · rw [hemit]
    exact hbalanced.accept request arena message
  · rw [hemit]
    exact hbalanced.refuse hrefuses

/-- Sinks may emit and register while they have an entry in hand. -/
theorem keptBySinks_balanced (held inHand : Nat) :
    KeptBySinks fun logger : Logger β (Watched β ω) => logger.Balanced held inHand where
  change _ _ hlogger := { hlogger with }
  emit _ request hlogger := hlogger.emitIn .task request
  register logger registration hlogger := by
    have hregistered : (logger.register registration).2.Balanced held inHand := { hlogger with }
    exact hregistered.note rfl

/-- The message that is dispatched is out of the queue and in hand. -/
theorem Balanced.handling (hbalanced : logger.Balanced held 0) (snapshot : Snapshot β)
    (memory : Memory) {message : Message} {rest : List Message}
    (hitems : logger.queue.items = message :: rest) :
    ((logger.note .begun).handling snapshot memory message rest).Balanced held 1 := by
  obtain ⟨haccepted, hattempts, hheld, hemitted, hbegun⟩ := hbalanced
  have hlength : logger.queue.length = rest.length + 1 := congrArg List.length hitems
  constructor
  · simp [Event.isReturned, Event.isTaken]
    omega
  · simpa [Event.isEmit] using hattempts
  · simpa [Event.isReturned, Event.isTaken] using hheld
  · rw [history_handling, length_accepted_note, hemitted]
    rfl
  · simpa [Event.isBegun] using hbegun

theorem Balanced.finish (hbalanced : logger.Balanced held 1) (message : Message) (complete : Bool)
    (tally : Tally) : (logger.finish message complete tally).Balanced held 0 := by
  refine { hbalanced with accepted := ?_, begun_eq := hbalanced.begun_eq }
  calc
    logger.stats.emitted + logger.history.countP Event.isReturned =
        logger.stats.dispatched + logger.stats.discarded + logger.queue.length +
          logger.history.countP Event.isTaken + 1 := hbalanced.accepted
    _ = logger.stats.dispatched + 1 + logger.stats.discarded + logger.queue.length +
          logger.history.countP Event.isTaken + 0 := by omega

/-- The message that is dispatched leaves the queue, is in hand while its entry is handed
over, and is counted in the end. -/
theorem Balanced.dispatch (hbalanced : logger.Balanced held 0) (behaviour : Behaviour β ω) :
    (logger.watchedDispatch behaviour).Balanced held 0 := by
  rcases watchedDispatch_cases behaviour logger with
    ⟨-, hnothing⟩ | ⟨snapshot, memory, message, rest, -, hitems, complete, tally, hdispatch⟩
  · rw [hnothing]
    exact hbalanced
  · have hhanded := (keptBySinks_balanced held 1).fanOutFrom behaviour
      (logger.entryOf memory message) (fun _ _ hlogger => hlogger.note rfl) {}
      (logger.registry.refresh snapshot).1.sinks (hbalanced.handling snapshot memory hitems)
    rw [hdispatch]
    exact hhanded.finish message complete tally

theorem Balanced.dispatchMany (hbalanced : logger.Balanced held 0) (behaviour : Behaviour β ω)
    (count : Nat) : (logger.watchedDispatchMany behaviour count).Balanced held 0 := by
  induction count generalizing logger with
  | zero => exact hbalanced
  | succ count ih => exact ih (hbalanced.dispatch behaviour)

theorem Balanced.discardPending (hbalanced : logger.Balanced held 0) :
    logger.discardPending.Balanced held 0 := by
  refine { hbalanced with accepted := ?_ }
  calc
    logger.stats.emitted + logger.history.countP Event.isReturned =
        logger.stats.dispatched + logger.stats.discarded + logger.queue.length +
          logger.history.countP Event.isTaken + 0 := hbalanced.accepted
    _ = logger.stats.dispatched + (logger.stats.discarded + logger.queue.length) + 0 +
          logger.history.countP Event.isTaken + 0 := by omega

theorem Balanced.shutdown (hbalanced : logger.Balanced held 0) (behaviour : Behaviour β ω) :
    (logger.watchedShutdown behaviour).Balanced held 0 := by
  have hclosed : Balanced { logger with queue := logger.queue.close } held 0 :=
    { hbalanced with }
  rw [watchedShutdown]
  split
  · exact { hclosed.discardPending with }
  · exact { hclosed.dispatchMany behaviour logger.queue.length with }
  · exact hbalanced

theorem Balanced.mono (hbalanced : logger.Balanced held inHand) {fewer : Nat}
    (hle : fewer ≤ held) : logger.Balanced fewer inHand :=
  { hbalanced with
    returned_le := Nat.le_trans (Nat.add_le_add_left hle _) hbalanced.returned_le }

/-- A message taken out of the queue is one more in a user's hands. -/
theorem Balanced.take (hbalanced : logger.Balanced held 0) {message : Message}
    {rest : List Message} (hitems : logger.queue.items = message :: rest) :
    ((logger.requeue rest).note .taken).Balanced (held + 1) 0 := by
  obtain ⟨haccepted, hattempts, hheld, hemitted, hbegun⟩ := hbalanced
  have hlength : logger.queue.length = rest.length + 1 := congrArg List.length hitems
  constructor
  · simp [Event.isReturned, Event.isTaken]
    omega
  · simpa [Event.isEmit] using hattempts
  · simp [Event.isReturned, Event.isTaken]
    omega
  · rw [length_accepted_note, history_requeue, hemitted]
    rfl
  · simpa [Event.isBegun] using hbegun

theorem Balanced.putBack (hbalanced : logger.Balanced (held + 1) 0) (message : Message) :
    ((logger.requeue (logger.queue.items ++ [message])).note .returned).Balanced held 0 := by
  obtain ⟨haccepted, hattempts, hheld, hemitted, hbegun⟩ := hbalanced
  have hlength : (logger.queue.items ++ [message]).length = logger.queue.length + 1 :=
    List.length_append
  constructor
  · simp only [stats_note, queue_note, stats_requeue, length_queue_requeue, hlength]
    simp [Event.isReturned, Event.isTaken]
    omega
  · simpa [Event.isEmit] using hattempts
  · simp [Event.isReturned, Event.isTaken]
    omega
  · rw [length_accepted_note, history_requeue, hemitted]
    rfl
  · simpa [Event.isBegun] using hbegun

end Logger

namespace Logger.Session

variable {session : Session β (Watched β ω)}

/-! ## Whole runs -/

/-- One step moves messages between the queue, the users and the counters, and loses none. -/
theorem balanced_step (hbalanced : session.logger.Balanced session.messages.toList.length 0)
    (behaviour : Behaviour β ω) (step : Step β) :
    (session.watchedStep behaviour step).logger.Balanced
      (session.watchedStep behaviour step).messages.toList.length 0 := by
  cases step with
  | arena _ | describe => exact { hbalanced with }
  | register registration => exact (keptBySinks_balanced _ 0).register _ registration hbalanced
  | shutdown => exact hbalanced.shutdown behaviour
  | emit request => exact hbalanced.emitIn .task request
  | dispatch => exact hbalanced.dispatch behaviour
  | start =>
    rcases watchedStep_start_cases behaviour session with ⟨-, hstep⟩ | ⟨-, hstep⟩
    · rw [hstep]
      exact hbalanced
    · rw [hstep]
      exact { hbalanced with }
  | pop =>
    rcases watchedStep_pop_cases behaviour session with ⟨-, hstep⟩ | ⟨message, rest, hitems, hstep⟩
    · rw [hstep]
      exact hbalanced
    · rw [hstep, Numbered.toList_add, List.length_append]
      exact hbalanced.take hitems
  | push number =>
    rcases watchedStep_push_cases behaviour session number with
      hstep | ⟨message, hmessage, hpush⟩
    · rw [hstep]
      exact hbalanced
    · have hlength := (Numbered.toList_perm_of_get?_eq_some hmessage).length_eq
      rw [hlength] at hbalanced
      rcases hpush with ⟨-, hstep⟩ | hstep
      · rw [hstep]
        exact hbalanced.putBack message
      · rw [hstep, Numbered.toList_add, List.length_append]
        exact hbalanced
  | drop number =>
    rcases watchedStep_drop_cases behaviour session number with hstep | ⟨message, hmessage, hstep⟩
    · rw [hstep]
      exact hbalanced
    · have hlength := (Numbered.toList_perm_of_get?_eq_some hmessage).length_eq
      rw [hlength] at hbalanced
      rw [hstep]
      exact { hbalanced.mono (Nat.le_succ _) with }
  | describeMessage number =>
    rw [watchedStep_describeMessage]
    exact hbalanced

theorem balanced_turn (hbalanced : session.logger.Balanced session.messages.toList.length 0)
    (behaviour : Behaviour β ω) (turn : Turn β) :
    (session.watchedTurn behaviour turn).logger.Balanced
      (session.watchedTurn behaviour turn).messages.toList.length 0 := by
  cases turn with
  | step step => exact balanced_step hbalanced behaviour step
  | emit caller request => exact hbalanced.emitIn caller request
  | allocate access length =>
    rw [watchedTurn, turn_allocate]
    exact { hbalanced with }
  | free access number =>
    rw [watchedTurn, turn_free]
    exact { hbalanced with }

/-- The balance of a whole run, by induction on its turns. -/
theorem balanced_after (hbalanced : session.logger.Balanced session.messages.toList.length 0)
    (behaviour : Behaviour β ω) (turns : List (Turn β)) :
    (session.watchedAfter behaviour turns).logger.Balanced
      (session.watchedAfter behaviour turns).messages.toList.length 0 := by
  induction turns generalizing session with
  | nil => exact hbalanced
  | cons turn rest ih => exact ih (balanced_turn hbalanced behaviour turn)

end Logger.Session

namespace Logger

/-- The counters account for everything that happened. -/
structure Conserved (logger : Logger β ω) (history : List (Event β)) : Prop where
  /-- What users took out and did not put back is theirs. -/
  accepted :
    logger.stats.emitted =
      logger.stats.dispatched + logger.stats.discarded + logger.queue.length +
        (history.countP Event.isTaken - history.countP Event.isReturned)
  returned_le : history.countP Event.isReturned ≤ history.countP Event.isTaken
  attempts :
    history.countP Event.isEmit =
      logger.stats.emitted + logger.stats.droppedArena + logger.stats.droppedQueue +
        logger.stats.droppedTranscription + logger.stats.rejectedInvalid
  emitted_eq : (History.accepted history).length = logger.stats.emitted
  dispatched_eq : history.countP Event.isBegun = logger.stats.dispatched
  pending_eq : history.countP Event.isTaken = 0 → logger.stats.pending = logger.queue.length

theorem Balanced.conserved {logger : Logger β (Watched β ω)} {held : Nat}
    (hbalanced : logger.Balanced held 0) : logger.unwatched.Conserved logger.history := by
  obtain ⟨haccepted, hattempts, hheld, hemitted, hbegun⟩ := hbalanced
  have hle := Nat.le_trans (Nat.le_add_right _ held) hheld
  rw [Stats.refused] at hattempts
  constructor
  · simp only [unwatched]
    omega
  · exact hle
  · simp only [unwatched]
    omega
  · exact hemitted
  · exact hbegun
  · intro htaken
    simp only [unwatched, Stats.pending]
    omega

theorem balanced_of_create {hostMemory : Nat} {texts : StaticTexts} {world : ω} {config : Config}
    {logger : Logger β ω} (hcreate : create hostMemory texts world config = .ok logger) :
    logger.watched.Balanced 0 0 := by
  obtain ⟨arena, -, -, rfl⟩ := create_eq_ok hcreate
  exact ⟨rfl, rfl, Nat.le_refl 0, rfl, rfl⟩

/-- What balances from the beginning is conserved, watched or not. -/
theorem Session.conserved_of_balanced {session : Session β ω}
    (hbalanced : session.watched.logger.Balanced session.messages.toList.length 0)
    (behaviour : Behaviour β ω) (turns : List (Turn β)) :
    (session.after behaviour turns).logger.Conserved
      (session.historyAfter behaviour turns) := by
  have hconserved := (balanced_after hbalanced behaviour turns).conserved
  have hfinal : (session.watched.watchedAfter behaviour turns).logger.unwatched =
      (session.after behaviour turns).logger :=
    congrArg Session.logger (unwatched_after behaviour session.watched turns)
  rwa [hfinal] at hconserved

/-- Nothing is lost count of, whatever tasks, sinks and interrupt handlers do, and a logger
whose messages nobody took out owes nothing once it is shut down. -/
theorem conserved_after {hostMemory : Nat} {texts : StaticTexts} {world : ω} {config : Config}
    {logger : Logger β ω} (hcreate : create hostMemory texts world config = .ok logger)
    (behaviour : Behaviour β ω) (turns : List (Turn β)) :
    let start : Session β ω := { logger }
    let final := (start.after behaviour turns).logger
    let history := start.historyAfter behaviour turns
    final.Conserved history ∧
      (.step .shutdown ∈ turns → history.countP Event.isTaken = 0 →
        final.stats.pending = 0) := by
  intro start final history
  have hbegin : start.watched.logger.Balanced start.messages.toList.length 0 :=
    balanced_of_create hcreate
  have hconserved : final.Conserved history :=
    Session.conserved_of_balanced hbegin behaviour turns
  refine ⟨hconserved, ?_⟩
  intro hmem htaken
  have hidle : start.watched.logger.consumer ≠ .stopped := by
    obtain ⟨arena, -, -, rfl⟩ := create_eq_ok hcreate
    change Consumer.idle ≠ .stopped
    simp
  have hstopped := (Session.stopped_after hidle behaviour turns).1 hmem
  have hfinal : (start.watched.watchedAfter behaviour turns).unwatched.logger = final :=
    congrArg Session.logger (Session.unwatched_after behaviour start.watched turns)
  rw [hconserved.pending_eq htaken, ← hfinal]
  exact congrArg List.length (Session.stopped_unwatched hstopped).items_eq

/-- A sink logs again whenever it is called and then panics, and a user takes the oldest
message out and puts it back behind the others.  Of two interrupt handlers the first never
gets the guard; the second gets it for its message and not again, when its arguments do not
match.  Five of the nine emits are refused, each counted by its cause, and after the shutdown
the other four have all been handed over. -/
theorem conserved_after_interrupts :
    let config : Config :=
      { arenaCapacity := 128, queueCapacity := 2, interruptLockAttempts := 2 }
    let arena : Arena := { capacity := 128, maxInFlight := 32, policy := .bump, freeSlots := [] }
    let logger : Logger Unit Unit :=
      { config, arena, queue := { capacity := 2 }, texts := [], world := () }
    let request : Request := ⟨"net", "poll", .error, some "down", []⟩
    let tick : Request := ⟨"timer", "tick", .debug, some "%d", []⟩
    let behaviour : Behaviour Unit Unit := fun _ _ => .emit request fun _ => .panic
    let never : Arena.Access := .trying fun _ => false
    let second : Arena.Access := .trying fun attempt => attempt == 1
    let turns : List (Turn Unit) :=
      [.step (.register ⟨"again", some ()⟩), .emit ⟨never, never⟩ request,
        .emit ⟨second, never⟩ tick, .step (.emit request), .step (.emit request),
        .step (.emit request), .step .pop, .step .start, .step .dispatch, .step (.push 0),
        .step .dispatch, .step .shutdown]
    let final := (Session.after behaviour { logger } turns).logger
    create 4096 [] () config = .ok logger ∧
      final.Conserved (Session.historyAfter behaviour { logger } turns) ∧
      final.stats.emitted = 4 ∧ final.stats.droppedArena = 1 ∧
      final.stats.droppedTranscription = 1 ∧ final.stats.droppedQueue = 3 ∧
      final.stats.pending = 0 := by
  intro config arena logger request tick behaviour never second turns final
  have hvalid : config.validate = .ok () := by
    simp [Config.validate, Config.positiveSettings, Message.headerSize, config]
  have hcreate : create 4096 [] () config = .ok logger := by
    rw [create, hvalid]
    rfl
  obtain ⟨hconserved, -⟩ := conserved_after hcreate behaviour turns
  exact ⟨hcreate, hconserved, by decide +kernel, by decide +kernel, by decide +kernel,
    by decide +kernel, by decide +kernel⟩

end Logger

end LogRelay
