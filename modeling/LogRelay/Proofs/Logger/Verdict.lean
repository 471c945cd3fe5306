import LogRelay.Proofs.Arena.Slab
import LogRelay.Proofs.Logger.Limits
import LogRelay.Proofs.Record.Faults

/-!
# What an emit comes to

An emit is checked for its format, for the slots that are out, for space, for its arguments
and for room in the queue, in this order, and the first check that it does not pass decides.
In every state that a logger can get into the outcome is therefore one function of that
state, of the configured sizes and of what is asked for.
-/

namespace LogRelay

variable {β ω : Type} {config : Config}

/-! ## Space -/

namespace Arena

variable {arena : Arena} {slots : List Slot} {length : Nat}

/-- What an arena of the configured sizes lacks for a slot of `length` bytes, if it lacks
anything. -/
def shortage? (config : Config) (arena : Arena) (length : Nat) : Option Exhaustion :=
  if arena.live = config.maxInFlight then some (.tooManyInFlight config.maxInFlight)
  else
    match config.policy with
    | .bump => if config.arenaCapacity - arena.usedBytes < length then some .arenaFull else none
    | .slab slotSize =>
      if slotSize < length then some (.slotTooSmall length slotSize)
      else if ∀ index < config.arenaCapacity / slotSize, index ∉ arena.freeSlots then
        some .arenaFull
      else none

/-- The arena refuses for the first of the shortages that there are. -/
theorem allocate_eq_error_iff (hwithin : arena.Within config) (hplaced : arena.Placed slots)
    {cause : Exhaustion} :
    arena.allocate length = .error cause ↔ arena.shortage? config length = some cause := by
  have hlimit : arena.maxInFlight ≤ arena.live ↔ arena.live = config.maxInFlight := by
    have hle := hwithin.live_le
    rw [hwithin.maxInFlight_eq]
    omega
  rw [allocate, shortage?]
  by_cases hlive : arena.live = config.maxInFlight
  · rw [if_pos (hlimit.mpr hlive), if_pos hlive, hwithin.maxInFlight_eq]
    simp
  rw [if_neg (hlimit.not.mpr hlive), if_neg hlive]
  cases hpolicy : config.policy with
  | bump =>
    have harena : arena.policy = .bump := hwithin.policy_eq.trans hpolicy
    simp only [place, harena, usedBytes, hwithin.capacity_eq]
    by_cases hroom : config.arenaCapacity - arena.cursor < length <;> simp [hroom]
  | slab slotSize =>
    have harena : arena.policy = .slab slotSize := hwithin.policy_eq.trans hpolicy
    -- The arena looks whether its free stack is empty, which only holds indices of the slab.
    have htaken := ((placed_slab harena).mp hplaced).freeSlots_eq_nil_iff
    rw [hwithin.capacity_eq] at htaken
    simp only [place, harena, ← htaken]
    by_cases hfits : slotSize < length
    · simp [hfits]
    · cases hfree : arena.freeSlots <;> simp [hfits]

theorem shortage?_eq_none {placed : Slot × Arena} (hwithin : arena.Within config)
    (hplaced : arena.Placed slots) (hallocate : arena.allocate length = .ok placed) :
    arena.shortage? config length = none := by
  rw [Option.eq_none_iff_forall_ne_some]
  intro cause hcause
  have hrefused := (allocate_eq_error_iff hwithin hplaced).mpr hcause
  exact absurd (hallocate.symm.trans hrefused) (by simp)

/-- Every place of a slab is taken when the bytes of all are in use. -/
theorem usedBytes_eq_iff {slotSize : Nat} (hwithin : arena.Within config)
    (hplaced : arena.Placed slots) (hpolicy : config.policy = .slab slotSize) :
    arena.usedBytes = config.arenaCapacity / slotSize * slotSize ↔
      ∀ index < config.arenaCapacity / slotSize, index ∉ arena.freeSlots := by
  have harena : arena.policy = .slab slotSize := hwithin.policy_eq.trans hpolicy
  have hslab := (placed_slab harena).mp hplaced
  rw [hwithin.capacity_eq] at hslab
  have hcount := hslab.length_freeSlots_add
  rw [← hslab.freeSlots_eq_nil_iff, ← List.length_eq_zero_iff]
  simp only [usedBytes, harena, slotCount, hwithin.capacity_eq]
  rw [Nat.mul_right_cancel_iff hslab.size_pos]
  omega

end Arena

/-! ## The outcome -/

/-- With a slot at hand, a message fails of what capturing its arguments alone fails of. -/
theorem Message.exists_createIn {arena taken : Arena} {ticks : UInt64} {request : Request}
    {format : String} {slot : Slot} {took gave : Bool}
    (hallocate : arena.allocateIn took (sizeFor format) = .ok (slot, taken)) :
    ∃ after, createIn took gave arena ticks request format =
      (after,
        match Record.captureAll format request.arguments with
        | .error fault => .error (.transcription fault)
        | .ok _ => .ok ⟨request.moduleName, request.functionName, format, slot⟩) := by
  have hroom : slot.length - headerSize = (Format.layout format).encodedBytes := by
    rw [Arena.length_of_allocate (Arena.allocate_of_allocateIn hallocate), sizeFor,
      Nat.add_sub_cancel_left]
  rw [createIn_of_allocateIn hallocate, transcript, hroom, Record.captureAll]
  cases (Record.capture format request.arguments (Format.layout format).encodedBytes).fault with
  | some fault => exact ⟨_, rfl⟩
  | none => exact ⟨_, rfl⟩

namespace Logger

open Record (captureAll asked Feeds)

/-- What comes of an emit whose caller gets hold of the arena. -/
def verdict (config : Config) (logger : Logger β ω) (request : Request) : Except Failure Unit :=
  match request.format with
  | none => .error (.invalidArgument .absentFormat)
  | some format =>
    match logger.arena.shortage? config (16 + (Format.layout format).encodedBytes) with
    | some cause => .error (.resourceExhausted cause)
    | none =>
      match captureAll format request.arguments with
      | .error fault => .error (.transcription fault)
      | .ok _ =>
        if logger.queue.closed then .error (.resourceExhausted .queueClosed)
        else if logger.queue.length = config.queueCapacity then
          .error (.resourceExhausted .queueFull)
        else .ok ()

variable {logger : Logger β ω} {caller : Caller} {request : Request} {slots : List Slot}

/-- A message that is placed is queued if the queue is open and has room. -/
theorem snd_emitIn_of_createIn (hwithin : logger.Within config) {format : String} {arena : Arena}
    {message : Message} (hformat : request.format = some format)
    (hcreate : Message.createIn (logger.enters caller.taking) (logger.enters caller.giving)
      logger.arena logger.clock request format = (arena, .ok message)) :
    (logger.emitIn caller request).2 =
      if logger.queue.closed then .error (.resourceExhausted .queueClosed)
      else if logger.queue.length = config.queueCapacity then
        .error (.resourceExhausted .queueFull)
      else .ok () := by
  have hfull : logger.queue.isFull = true ↔ logger.queue.length = config.queueCapacity := by
    have hle := hwithin.length_le
    rw [Queue.isFull, decide_eq_true_iff, hwithin.capacity_eq]
    omega
  by_cases hclosed : logger.queue.closed
  · simp only [emitIn, placeIn, hformat, hcreate, Queue.push, if_pos hclosed]
  · by_cases hlength : logger.queue.length = config.queueCapacity
    · simp only [emitIn, placeIn, hformat, hcreate, Queue.push, if_neg hclosed, hfull,
        if_pos hlength]
    · simp only [emitIn, placeIn, hformat, hcreate, Queue.push, if_neg hclosed, hfull,
        if_neg hlength]

/-- Once the guard is had for taking a slot, the answer is the verdict on the request. -/
theorem snd_emitIn (hwithin : logger.Within config) (hplaced : logger.arena.Placed slots)
    (hentered : logger.enters caller.taking = true) (request : Request) :
    (logger.emitIn caller request).2 = logger.verdict config request := by
  cases hformat : request.format with
  | none => simp only [emitIn, placeIn, verdict, hformat]
  | some format =>
    cases hallocate : logger.arena.allocate (Message.sizeFor format) with
    | error cause =>
      have hshort : logger.arena.shortage? config (16 + (Format.layout format).encodedBytes) =
          some cause := (Arena.allocate_eq_error_iff hwithin.arena hplaced).mp hallocate
      have hcreate : Message.createIn (logger.enters caller.taking)
          (logger.enters caller.giving) logger.arena logger.clock request format =
            (logger.arena, .error (.resourceExhausted cause)) := by
        rw [Message.createIn, hentered, Arena.allocateIn_true, hallocate]
      simp only [emitIn, placeIn, verdict, hformat, hcreate, hshort]
    | ok placed =>
      obtain ⟨slot, taken⟩ := placed
      have hroom : logger.arena.shortage? config (16 + (Format.layout format).encodedBytes) =
          none := Arena.shortage?_eq_none hwithin.arena hplaced hallocate
      have hentry : logger.arena.allocateIn (logger.enters caller.taking)
          (Message.sizeFor format) = .ok (slot, taken) := by
        rw [hentered, Arena.allocateIn_true, hallocate]
      obtain ⟨after, hcreate⟩ : ∃ after, Message.createIn (logger.enters caller.taking)
          (logger.enters caller.giving) logger.arena logger.clock request format = (after, _) :=
        Message.exists_createIn hentry
      cases hcaptured : captureAll format request.arguments with
      | error fault =>
        simp only [hcaptured] at hcreate
        simp only [emitIn, placeIn, verdict, hformat, hcreate, hroom, hcaptured]
      | ok bytes =>
        simp only [hcaptured] at hcreate
        rw [snd_emitIn_of_createIn hwithin hformat hcreate]
        simp only [verdict, hformat, hroom, hcaptured]

/-- An emit that succeeds queues one message behind all others. -/
theorem exists_message_of_emitIn (hemits : (logger.emitIn caller request).2 = .ok ()) :
    ∃ message : Message, message.moduleName = request.moduleName ∧
      message.functionName = request.functionName ∧ request.format = some message.format ∧
      (logger.emitIn caller request).1.queue =
        { logger.queue with items := logger.queue.items ++ [message] } ∧
      (logger.emitIn caller request).1.stats =
        { logger.stats with emitted := logger.stats.emitted + 1 } := by
  rcases emitIn_cases caller logger request with
    ⟨format, arena, message, hformat, hcreate, -, -, hemit⟩ | ⟨_, _, -, hemit⟩
  · obtain ⟨slot, taken, -, -, rfl, -⟩ := Message.createIn_eq_ok hcreate
    rw [hemit]
    exact ⟨_, rfl, rfl, hformat, rfl, rfl⟩
  · rw [hemit] at hemits
    exact absurd hemits (by simp)

/-- What an emit does, and what its checks are about. -/
structure Decided (config : Config) (logger after : Logger β ω) (request : Request)
    (result : Except Failure Unit) : Prop where
  result_eq : result = logger.verdict config request
  /-- A slot has room for all records. -/
  result_ne : ∀ required available,
    result ≠ .error (.transcription (.bufferTooSmall required available))
  accepted : result = .ok () → ∃ message : Message, message.moduleName = request.moduleName ∧
    message.functionName = request.functionName ∧ request.format = some message.format ∧
    after.queue = { logger.queue with items := logger.queue.items ++ [message] } ∧
    after.stats = { logger.stats with emitted := logger.stats.emitted + 1 }
  captured_iff : ∀ format, request.format = some format →
    ((∃ bytes, captureAll format request.arguments = .ok bytes) ↔
      ∃ records, Feeds (asked format) request.arguments records)
  taken_iff : ∀ slotSize, config.policy = .slab slotSize →
    (logger.arena.usedBytes = config.arenaCapacity / slotSize * slotSize ↔
      ∀ index < config.arenaCapacity / slotSize, index ∉ logger.arena.freeSlots)

/-- The slot is sized for the records, so their room is never too small. -/
theorem verdict_ne_small (config : Config) (logger : Logger β ω) (request : Request)
    (required available : Nat) :
    logger.verdict config request ≠
      .error (.transcription (.bufferTooSmall required available)) := by
  rw [verdict]
  split
  · simp
  · next format _ =>
    split
    · simp
    · split
      · next fault hcaptured =>
        intro heq
        simp only [Except.error.injEq, Failure.transcription.injEq] at heq
        exact Record.captureAll_ne_small format request.arguments required available
          (hcaptured.trans (congrArg Except.error heq))
      · split_ifs <;> simp

/-- In whatever state a logger has got into, an emit whose caller gets hold of the arena comes
to what the first check says that it does not pass, and to a queued message if it passes all. -/
theorem decided_emitIn {hostMemory : Nat} {texts : StaticTexts} {world : ω}
    {logger : Logger β ω} (hcreate : create hostMemory texts world config = .ok logger)
    (behaviour : Behaviour β ω) {session : Session β ω} {inHand : Option Message}
    (hreached : Session.Reached behaviour { logger } session inHand)
    {caller : Caller} (hentered : session.logger.enters caller.taking = true) (request : Request) :
    Decided config session.logger (session.logger.emitIn caller request).1 request
      (session.logger.emitIn caller request).2 := by
  have hwithin : session.logger.Within config :=
    Session.within_reached (.of_create hcreate) hreached
  have haccounts : session.logger.Accounts (session.besides inHand) := by
    refine Session.accounts_reached ?_ hreached
    obtain ⟨arena, -, harena, rfl⟩ := create_eq_ok hcreate
    exact Arena.accounts_of_create harena
  obtain ⟨lost, haccounts⟩ := haccounts
  have hresult := snd_emitIn hwithin haccounts.placed hentered request
  refine ⟨hresult, ?_, exists_message_of_emitIn, ?_, ?_⟩
  · rw [hresult]
    exact verdict_ne_small config session.logger request
  · exact fun format _ => Record.exists_captureAll_iff
  · exact fun slotSize hpolicy => Arena.usedBytes_eq_iff hwithin.arena haccounts.placed hpolicy

/-- One message fills the queue.  An interrupt handler that gets at the arena at its second try
has a place for another, and too few arguments for it; once a user has that place it is the
arena that refuses. -/
theorem decided_emitIn_overlapping :
    let config : Config :=
      { arenaCapacity := 64, queueCapacity := 1, interruptLockAttempts := 2, policy := .slab 32 }
    let arena : Arena :=
      { capacity := 64, maxInFlight := 32, policy := .slab 32, freeSlots := [0, 1] }
    let logger : Logger Unit Unit :=
      { config, arena, queue := { capacity := 1 }, texts := [], world := () }
    let behaviour : Behaviour Unit Unit := fun _ _ => .done ()
    let filled := Session.after behaviour { logger }
      [.step (.emit ⟨"net", "poll", .error, some "down", []⟩)]
    let taken := filled.after behaviour [.step (.arena (.allocate 8))]
    let handler : Caller := { taking := .trying fun attempt => attempt == 1 }
    let tick : Request := ⟨"timer", "tick", .debug, some "%d", []⟩
    create 4096 [] () config = .ok logger ∧
      Session.Reached behaviour { logger } filled none ∧
      filled.logger.enters handler.taking = true ∧
      Decided config filled.logger (filled.logger.emitIn handler tick).1 tick
        (filled.logger.emitIn handler tick).2 ∧
      (filled.logger.emitIn handler tick).2 = .error (.transcription (.missingArgument 0 .int)) ∧
      Decided config taken.logger (taken.logger.emitIn handler tick).1 tick
        (taken.logger.emitIn handler tick).2 ∧
      (taken.logger.emitIn handler tick).2 = .error (.resourceExhausted .arenaFull) := by
  intro config arena logger behaviour filled taken handler tick
  have hvalid : config.validate = .ok () := by
    simp [Config.validate, Config.positiveSettings, Message.headerSize, config]
  have harena : Arena.create 4096 config.arenaCapacity config.maxInFlight config.policy =
      .ok arena :=
    show Arena.create 4096 64 32 (.slab 32) = .ok arena from rfl
  have hcreate : create 4096 [] () config = .ok logger := by
    rw [create, hvalid, harena]
    rfl
  have hfilled : Session.Reached behaviour { logger } filled none :=
    Session.reached_after behaviour { logger } _
  have htaken : Session.Reached behaviour { logger } taken none := hfilled.turn _
  have hentered : filled.logger.enters handler.taking = true := by decide +kernel
  exact ⟨hcreate, hfilled, hentered, decided_emitIn hcreate behaviour hfilled hentered tick,
    by decide +kernel, decided_emitIn hcreate behaviour htaken hentered tick, by decide +kernel⟩

end Logger

end LogRelay
