import LogRelay.Proofs.Logger.Atomicity

/-!
# Sizes that are never exceeded

A logger keeps the sizes that it was configured with, and neither the slots that are out nor
the messages that are queued become more than these allow, also in the middle of an
operation.
-/

namespace LogRelay

variable {β ω α : Type} {config : Config}

/-! ## The arena -/

/-- The arena has the configured sizes, and no more slots are out than may be. -/
structure Arena.Within (config : Config) (arena : Arena) : Prop where
  capacity_eq : arena.capacity = config.arenaCapacity
  maxInFlight_eq : arena.maxInFlight = config.maxInFlight
  policy_eq : arena.policy = config.policy
  live_le : arena.live ≤ config.maxInFlight

namespace Arena.Within

variable {arena after : Arena} {slot : Slot} {length : Nat}

theorem of_create {hostMemory : Nat}
    (heq : create hostMemory config.arenaCapacity config.maxInFlight config.policy = .ok arena) :
    arena.Within config := by
  obtain ⟨rfl, -⟩ := create_eq_ok heq
  exact ⟨rfl, rfl, rfl, Nat.zero_le _⟩

theorem region (hwithin : arena.Within config) (region : Memory) :
    Within config { arena with region } :=
  ⟨hwithin.capacity_eq, hwithin.maxInFlight_eq, hwithin.policy_eq, hwithin.live_le⟩

theorem allocate (hwithin : arena.Within config)
    (heq : arena.allocate length = .ok (slot, after)) : after.Within config := by
  obtain ⟨hlive, cursor, freeSlots, -, rfl⟩ := allocate_eq_ok heq
  rw [hwithin.maxInFlight_eq] at hlive
  exact ⟨hwithin.capacity_eq, hwithin.maxInFlight_eq, hwithin.policy_eq, hlive⟩

theorem allocateIn {entered : Bool} (hwithin : arena.Within config)
    (heq : arena.allocateIn entered length = .ok (slot, after)) : after.Within config :=
  hwithin.allocate (allocate_of_allocateIn heq)

theorem free (hwithin : arena.Within config) (slot : Slot) : (arena.free slot).Within config where
  capacity_eq := (capacity_free arena slot).trans hwithin.capacity_eq
  maxInFlight_eq := (maxInFlight_free arena slot).trans hwithin.maxInFlight_eq
  policy_eq := (policy_free arena slot).trans hwithin.policy_eq
  live_le := by
    rw [live_free]
    exact Nat.le_trans (Nat.sub_le _ _) hwithin.live_le

theorem freeIn (hwithin : arena.Within config) (entered : Bool) (slot : Slot) :
    (arena.freeIn entered slot).Within config := by
  cases entered with
  | true => exact hwithin.free slot
  | false =>
    have hlive : arena.live - 1 ≤ config.maxInFlight :=
      Nat.le_trans (Nat.sub_le _ _) hwithin.live_le
    exact ⟨hwithin.capacity_eq, hwithin.maxInFlight_eq, hwithin.policy_eq, hlive⟩

theorem reset (hwithin : arena.Within config) : arena.reset.1.Within config where
  capacity_eq := (capacity_reset arena).trans hwithin.capacity_eq
  maxInFlight_eq := (maxInFlight_reset arena).trans hwithin.maxInFlight_eq
  policy_eq := (policy_reset arena).trans hwithin.policy_eq
  live_le := by
    rw [Arena.reset]
    split <;> exact hwithin.live_le

end Arena.Within

/-- For the limits it does not matter whose slots are out. -/
theorem Arena.Session.keptByUse_within (config : Config) :
    KeptByUse fun arena _ => arena.Within config where
  perm hwithin _ := hwithin
  region hwithin := hwithin.region
  allocate hwithin := hwithin.allocate
  free hwithin := hwithin.free _
  reset hwithin := hwithin.reset

namespace Message

variable {arena after : Arena} {ticks : UInt64} {request : Request} {format : String}
  {message : Message} {took gave : Bool}

theorem within_of_createIn (hwithin : arena.Within config)
    (heq : createIn took gave arena ticks request format = (after, .ok message)) :
    after.Within config := by
  obtain ⟨slot, taken, hallocate, -, rfl, rfl⟩ := createIn_eq_ok heq
  exact ((hwithin.allocateIn hallocate).region _).region _

theorem within_of_createIn_error {failure : Failure} (hwithin : arena.Within config)
    (heq : createIn took gave arena ticks request format = (after, .error failure)) :
    after.Within config := by
  rcases createIn_eq_error heq with ⟨-, -, rfl, -⟩ | ⟨slot, taken, -, hallocate, -, rfl, -⟩
  · exact hwithin
  · exact ((hwithin.allocateIn hallocate).region _).freeIn gave slot

end Message

namespace Logger

/-- The logger has the configured sizes and exceeds none of them. -/
structure Within (config : Config) (logger : Logger β ω) : Prop where
  arena : logger.arena.Within config
  capacity_eq : logger.queue.capacity = config.queueCapacity
  length_le : logger.queue.length ≤ config.queueCapacity

variable {logger : Logger β ω}

namespace Within

theorem of_create {hostMemory : Nat} {texts : StaticTexts} {world : ω}
    (hcreate : create hostMemory texts world config = .ok logger) : logger.Within config := by
  obtain ⟨arena, -, harena, rfl⟩ := create_eq_ok hcreate
  exact ⟨.of_create harena, rfl, Nat.zero_le _⟩

/-- A message is queued only where there is room, and gets a slot only below the limit. -/
theorem emitIn (hwithin : logger.Within config) (caller : Caller) (request : Request) :
    (logger.emitIn caller request).1.Within config := by
  rcases emitIn_cases caller logger request with
    ⟨format, arena, message, -, hcreate, -, hroom, hemit⟩ | ⟨arena, failure, hrefuses, hemit⟩
  · rw [hemit]
    refine ⟨Message.within_of_createIn hwithin.arena hcreate, hwithin.capacity_eq, ?_⟩
    rw [length_queue_accept, ← hwithin.capacity_eq]
    exact hroom
  · rw [hemit]
    refine ⟨?_, hwithin.capacity_eq, hwithin.length_le⟩
    cases hrefuses with
    | absentFormat => exact hwithin.arena
    | unplaced _ hcreate => exact Message.within_of_createIn_error hwithin.arena hcreate
    | unqueued _ hcreate => exact (Message.within_of_createIn hwithin.arena hcreate).freeIn _ _

theorem perform (hwithin : logger.Within config) (act : Act β ω α) :
    (logger.perform act).1.Within config := by
  induction act generalizing logger with
  | done result => exact hwithin
  | panic => exact hwithin
  | share change next ih =>
    apply ih
    exact ⟨hwithin.arena, hwithin.capacity_eq, hwithin.length_le⟩
  | emit request next ih =>
    apply ih
    exact hwithin.emitIn .task request
  | register registration next ih =>
    apply ih
    exact ⟨hwithin.arena, hwithin.capacity_eq, hwithin.length_le⟩

/-- One message out of the queue leaves room in it. -/
theorem length_rest_le (hwithin : logger.Within config) {message : Message} {rest : List Message}
    (hitems : logger.queue.items = message :: rest) : rest.length ≤ config.queueCapacity := by
  have hlength := hwithin.length_le
  rw [Queue.length, hitems, List.length_cons] at hlength
  exact Nat.le_of_succ_le hlength

theorem handling (hwithin : logger.Within config) (snapshot : Snapshot β) (memory : Memory)
    {message : Message} {rest : List Message} (hitems : logger.queue.items = message :: rest) :
    (logger.handling snapshot memory message rest).Within config :=
  ⟨hwithin.arena, hwithin.capacity_eq, hwithin.length_rest_le hitems⟩

theorem finish (hwithin : logger.Within config) (message : Message) (complete : Bool)
    (tally : Tally) : (logger.finish message complete tally).Within config :=
  ⟨hwithin.arena.free _, hwithin.capacity_eq, hwithin.length_le⟩

theorem dispatch (hwithin : logger.Within config) (behaviour : Behaviour β ω) :
    (logger.dispatch behaviour).Within config := by
  by_cases hrunning : logger.isRunning ∧ ¬logger.queue.isEmpty
  · obtain ⟨snapshot, memory, message, rest, hconsumer, hitems⟩ := running_cases hrunning
    rw [dispatch_of_running behaviour hconsumer hitems]
    exact ((hwithin.handling snapshot memory hitems).perform _).finish _ _ _
  · rw [dispatch_of_not_running behaviour hrunning]
    exact hwithin

theorem dispatchMany (hwithin : logger.Within config) (behaviour : Behaviour β ω) (count : Nat) :
    (logger.dispatchMany behaviour count).Within config := by
  induction count generalizing logger with
  | zero => exact hwithin
  | succ count ih => exact ih (hwithin.dispatch behaviour)

theorem foldl_free {arena : Arena} (hwithin : arena.Within config) (items : List Message) :
    (items.foldl (fun arena message => arena.free message.slot) arena).Within config := by
  induction items generalizing arena with
  | nil => exact hwithin
  | cons message rest ih => exact ih (hwithin.free message.slot)

theorem close (hwithin : logger.Within config) :
    Within config { logger with queue := logger.queue.close } :=
  ⟨hwithin.arena, hwithin.capacity_eq, hwithin.length_le⟩

theorem shutdown (hwithin : logger.Within config) (behaviour : Behaviour β ω) :
    (logger.shutdown behaviour).Within config := by
  have hclosed := hwithin.close
  rw [Logger.shutdown]
  split
  · exact ⟨foldl_free hclosed.arena _, hclosed.capacity_eq, Nat.zero_le _⟩
  · have hdispatched := hclosed.dispatchMany behaviour logger.queue.close.length
    exact ⟨hdispatched.arena, hdispatched.capacity_eq, hdispatched.length_le⟩
  · exact hwithin

/-- A user puts a message back only where there is room. -/
theorem push {queue : Queue Message} {message : Message} (hwithin : logger.Within config)
    (hpush : logger.queue.push message = .ok queue) : Within config { logger with queue } := by
  obtain ⟨⟨-, hroom⟩, rfl⟩ := (Queue.push_eq_ok_iff _ _ _).mp hpush
  rw [hwithin.capacity_eq] at hroom
  refine ⟨hwithin.arena, hwithin.capacity_eq, ?_⟩
  rw [Queue.length, List.length_append]
  exact hroom

end Within

namespace Session

variable {session : Session β ω}

/-- No step exceeds a configured size. -/
theorem within_step (hwithin : session.logger.Within config) (behaviour : Behaviour β ω)
    (step : Step β) : (session.step behaviour step).1.logger.Within config := by
  cases step with
  | register registration => exact ⟨hwithin.arena, hwithin.capacity_eq, hwithin.length_le⟩
  | start =>
    rcases step_start_cases behaviour session with ⟨-, hstart⟩ | ⟨-, hstart⟩
    · rw [hstart]
      exact hwithin
    · rw [hstart]
      exact ⟨hwithin.arena, hwithin.capacity_eq, hwithin.length_le⟩
  | shutdown => exact hwithin.shutdown behaviour
  | emit request =>
    rw [step_emit]
    exact hwithin.emitIn .task request
  | dispatch => exact hwithin.dispatch behaviour
  | pop =>
    rcases step_pop_cases behaviour session with ⟨-, hpop⟩ | ⟨message, rest, hitems, hpop⟩
    · rw [hpop]
      exact hwithin
    · rw [hpop]
      exact ⟨hwithin.arena, hwithin.capacity_eq, hwithin.length_rest_le hitems⟩
  | push number =>
    rw [step]
    split
    · exact hwithin
    · split
      · next hpush => exact hwithin.push hpush
      · exact hwithin
  | drop number =>
    rcases step_drop_cases behaviour session number with hdrop | ⟨message, -, hdrop⟩
    · rw [hdrop]
      exact hwithin
    · rw [hdrop]
      exact ⟨hwithin.arena.free _, hwithin.capacity_eq, hwithin.length_le⟩
  | arena step =>
    -- The motive ignores the slots, so any list of other slots will do.
    let used : Arena.Session := ⟨session.logger.arena, session.slots⟩
    have hkept := Arena.Session.keptByUse_within config
    have harena : (used.step step).1.arena.Within config :=
      @Arena.Session.KeptByUse.step _ hkept used [] hwithin.arena step
    exact ⟨harena, hwithin.capacity_eq, hwithin.length_le⟩
  | describe => exact hwithin
  | describeMessage number =>
    rw [step_describeMessage]
    exact hwithin

theorem within_turn (hwithin : session.logger.Within config) (behaviour : Behaviour β ω)
    (turn : Turn β) : (session.turn behaviour turn).1.logger.Within config := by
  cases turn with
  | step step => exact within_step hwithin behaviour step
  | emit caller request =>
    rw [turn_emit]
    exact hwithin.emitIn caller request
  | allocate access length =>
    rw [Session.turn]
    split
    · exact hwithin
    · next heq => exact ⟨hwithin.arena.allocateIn heq, hwithin.capacity_eq, hwithin.length_le⟩
  | free access number =>
    rw [Session.turn]
    split
    · exact hwithin
    · exact ⟨hwithin.arena.freeIn _ _, hwithin.capacity_eq, hwithin.length_le⟩

/-- The sizes hold between the parts of an operation, too. -/
theorem within_reached {behaviour : Behaviour β ω} {start : Session β ω}
    {inHand : Option Message} (hstart : start.logger.Within config)
    (hreached : Reached behaviour start session inHand) : session.logger.Within config := by
  induction hreached with
  | start => exact hstart
  | turn _ turn ih => exact within_turn ih behaviour turn
  | closing _ ih => exact ih.close
  | @handling _ snapshot memory _ _ _ _ hitems ih => exact ih.handling snapshot memory hitems
  | acting _ act ih => exact ih.perform act
  | emitting _ caller request ih => exact ih.emitIn caller request
  | finished _ _ _ ih => exact ih.finish _ _ _

end Session

end Logger

end LogRelay
