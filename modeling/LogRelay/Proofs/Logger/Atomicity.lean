import LogRelay.Proofs.Arena.Renewal
import LogRelay.Proofs.Logger.Accounting
import LogRelay.Proofs.Logger.Conservation

/-!
# A failed emit is undone

An emit can fail before it has a slot, with a slot that is partly written, or with a message
that the queue does not take.  Each time the slot goes back as the last one to have gone out,
so that nothing is set aside that was not before, wherever the other slots lie.  What the
emit wrote in the meantime nobody else can read.

Only interrupt context can fall short of that, if it has a slot to give back and no longer
gets the guard of the arena: this one slot then stays set aside until the arena is reset.
-/

namespace LogRelay

variable {β ω α : Type}

/-! ## Counters by name -/

inductive Counter where
  | emitted
  | dispatched
  | droppedArena
  | droppedQueue
  | droppedTranscription
  | rejectedInvalid
  | discarded
  | truncated
  | sinkPanics
  | sinksSkipped
  deriving Repr, DecidableEq

def Stats.count (stats : Stats) : Counter → Nat
  | .emitted => stats.emitted
  | .dispatched => stats.dispatched
  | .droppedArena => stats.droppedArena
  | .droppedQueue => stats.droppedQueue
  | .droppedTranscription => stats.droppedTranscription
  | .rejectedInvalid => stats.rejectedInvalid
  | .discarded => stats.discarded
  | .truncated => stats.truncated
  | .sinkPanics => stats.sinkPanics
  | .sinksSkipped => stats.sinksSkipped

/-- The counter of a cause, if it is one that a message can fail of. -/
def Failure.counter? : Failure → Option Counter
  | .invalidArgument _ => some .rejectedInvalid
  | .transcription _ => some .droppedTranscription
  | .resourceExhausted .queueFull | .resourceExhausted .queueClosed => some .droppedQueue
  | .resourceExhausted .arenaFull | .resourceExhausted .arenaContended
  | .resourceExhausted (.slotTooSmall _ _) | .resourceExhausted (.tooManyInFlight _) =>
    some .droppedArena
  | .setup _ => none

theorem Stats.count_recordFailure (stats : Stats) (failure : Failure) (counter : Counter) :
    (stats.recordFailure failure).count counter =
      stats.count counter + if failure.counter? = some counter then 1 else 0 := by
  cases failure with
  | resourceExhausted cause => cases cause <;> cases counter <;> rfl
  | invalidArgument _ | transcription _ | setup _ => cases counter <;> rfl

/-- The message had a slot by the time it failed. -/
def Failure.hadSlot : Failure → Bool
  | .transcription _ | .resourceExhausted .queueFull | .resourceExhausted .queueClosed => true
  | .resourceExhausted .arenaFull | .resourceExhausted .arenaContended
  | .resourceExhausted (.slotTooSmall _ _) | .resourceExhausted (.tooManyInFlight _)
  | .invalidArgument _ | .setup _ => false

namespace Arena

/-- A slot of `length` bytes is set aside that was not before, in a slab the one on top of the
free stack, and nobody has it.  Nothing else changed but what is stored, and the most that was
ever in use. -/
def Strands (before after : Arena) (length : Nat) : Prop :=
  ∃ slot taken, before.allocate length = .ok (slot, taken) ∧
    after.usedBytes = before.usedBytes + slot.reserved ∧
    (∀ slotSize, before.policy = .slab slotSize →
      after.freeSlots = before.freeSlots.tail) ∧
    SetAsideAlike { taken with live := before.live } after

/-- A slot that is given back without the guard stays aside with nobody to own it. -/
theorem Accounts.strands {arena taken : Arena} {slots : List Slot} {length : Nat} {slot : Slot}
    (haccounts : arena.Accounts slots) (heq : arena.allocate length = .ok (slot, taken))
    (region : Memory) : arena.Strands (Arena.freeIn { taken with region } false slot) length := by
  have hlost := SetAsideAlike.of_allocate_lost heq region
  have hused : usedBytes { taken with live := arena.live } = taken.usedBytes := rfl
  refine ⟨slot, taken, heq, ?_, ?_, hlost⟩
  · rw [hlost.usedBytes_eq, hused, haccounts.usedBytes_of_allocate heq]
  · intro slotSize hpolicy
    rw [hlost.freeSlots_eq]
    obtain ⟨-, cursor, freeSlots, hplace, rfl⟩ := allocate_eq_ok heq
    obtain ⟨-, index, hfree, -⟩ := place_slab_eq_ok hpolicy hplace
    rw [hfree, List.tail_cons]

variable {arena : Arena} {entered : Bool} {length : Nat} {cause : Exhaustion}

theorem hadSlot_of_place (heq : arena.place length = .error cause) :
    (Failure.resourceExhausted cause).hadSlot = false := by
  rw [place] at heq
  split at heq
  · split at heq
    · obtain rfl := Except.error.inj heq
      rfl
    · exact absurd heq (by simp)
  · split at heq
    · obtain rfl := Except.error.inj heq
      rfl
    · split at heq
      · obtain rfl := Except.error.inj heq
        rfl
      · exact absurd heq (by simp)

/-- A message that gets no slot fails of a cause that says so. -/
theorem hadSlot_of_allocateIn (heq : arena.allocateIn entered length = .error cause) :
    (Failure.resourceExhausted cause).hadSlot = false := by
  cases entered with
  | false =>
    obtain rfl := Except.error.inj heq
    rfl
  | true =>
    rw [allocateIn_true, allocate] at heq
    split at heq
    · obtain rfl := Except.error.inj heq
      rfl
    · split at heq
      · next hplace =>
        obtain rfl := Except.error.inj heq
        exact hadSlot_of_place hplace
      · exact absurd heq (by simp)

end Arena

namespace Message

variable {arena after : Arena} {ticks : UInt64} {request : Request} {format : String}
  {message : Message} {slots : List Slot} {took gave : Bool}

/-- A message that is given back at once leaves nothing set aside. -/
theorem setAsideAlike_of_createIn (hpolicy : arena.policy ≠ .slab 0)
    (heq : createIn took gave arena ticks request format = (after, .ok message)) :
    arena.SetAsideAlike (after.free message.slot) := by
  obtain ⟨slot, taken, hallocate, -, rfl, rfl⟩ := createIn_eq_ok heq
  exact Arena.SetAsideAlike.of_allocate hpolicy (Arena.allocate_of_allocateIn hallocate) _

/-- A message that cannot be placed leaves nothing set aside, if a slot that it was to have
could be given back. -/
theorem setAsideAlike_of_createIn_error {failure : Failure} (hpolicy : arena.policy ≠ .slab 0)
    (heq : createIn took gave arena ticks request format = (after, .error failure))
    (hgave : failure.hadSlot = true → gave = true) : arena.SetAsideAlike after := by
  rcases createIn_eq_error heq with ⟨-, -, rfl, -⟩ | ⟨slot, taken, fault, hallocate, -, rfl, rfl⟩
  · exact Arena.SetAsideAlike.refl _
  · obtain rfl := hgave rfl
    exact Arena.SetAsideAlike.of_allocate hpolicy (Arena.allocate_of_allocateIn hallocate) _

/-- A message whose slot cannot be given back strands it. -/
theorem strands_of_createIn (haccounts : arena.Accounts slots)
    (heq : createIn took gave arena ticks request format = (after, .ok message)) :
    arena.Strands (after.freeIn false message.slot) (sizeFor format) := by
  obtain ⟨slot, taken, hallocate, -, rfl, rfl⟩ := createIn_eq_ok heq
  exact haccounts.strands (Arena.allocate_of_allocateIn hallocate) _

theorem strands_of_createIn_error {failure : Failure} (haccounts : arena.Accounts slots)
    (heq : createIn took gave arena ticks request format = (after, .error failure))
    (hslot : failure.hadSlot = true) (hgave : gave = false) :
    arena.Strands after (sizeFor format) := by
  rcases createIn_eq_error heq with
    ⟨cause, hallocate, -, rfl⟩ | ⟨slot, taken, fault, hallocate, -, rfl, -⟩
  · exact absurd hslot (by simp [Arena.hadSlot_of_allocateIn hallocate])
  · rw [hgave]
    exact haccounts.strands (Arena.allocate_of_allocateIn hallocate) _

theorem peak_le_of_createIn
    (heq : createIn took gave arena ticks request format = (after, .ok message)) :
    arena.peak ≤ after.peak := by
  obtain ⟨slot, taken, hallocate, -, -, rfl⟩ := createIn_eq_ok heq
  change arena.peak ≤ taken.peak
  rw [Arena.peak_of_allocate (Arena.allocate_of_allocateIn hallocate)]
  exact Nat.le_max_left _ _

theorem peak_le_of_createIn_error {failure : Failure}
    (heq : createIn took gave arena ticks request format = (after, .error failure)) :
    arena.peak ≤ after.peak := by
  rcases createIn_eq_error heq with ⟨-, -, rfl, -⟩ | ⟨slot, taken, fault, hallocate, -, rfl, -⟩
  · exact Nat.le_refl _
  · rw [Arena.peak_freeIn]
    change arena.peak ≤ taken.peak
    rw [Arena.peak_of_allocate (Arena.allocate_of_allocateIn hallocate)]
    exact Nat.le_max_left _ _

/-- Placing a message does not reach the slots of others. -/
theorem read_of_createIn (haccounts : arena.Accounts slots)
    (heq : createIn took gave arena ticks request format = (after, .ok message)) :
    ∀ slot ∈ slots, after.read slot = arena.read slot := by
  obtain ⟨slot, taken, hallocate, -, rfl, rfl⟩ := createIn_eq_ok heq
  have htaken : taken.Accounts (slot :: slots) := haccounts.allocateIn hallocate
  have hfilled : (filled taken request format slot).Accounts (slot :: slots) := htaken.region _
  intro other hother
  calc
    ((filled taken request format slot).write slot 0 (header ticks request.level)).read other =
        (filled taken request format slot).read other := hfilled.read_write hother _ _
    _ = taken.read other := htaken.read_write hother _ _
    _ = arena.read other :=
        Arena.read_of_allocate (Arena.allocate_of_allocateIn hallocate) other

theorem read_of_createIn_error {failure : Failure} (haccounts : arena.Accounts slots)
    (heq : createIn took gave arena ticks request format = (after, .error failure)) :
    ∀ slot ∈ slots, after.read slot = arena.read slot := by
  rcases createIn_eq_error heq with ⟨-, -, rfl, -⟩ | ⟨slot, taken, -, hallocate, -, rfl, -⟩
  · exact fun _ _ => rfl
  · have htaken : taken.Accounts (slot :: slots) := haccounts.allocateIn hallocate
    intro other hother
    calc
      ((filled taken request format slot).freeIn gave slot).read other =
          (filled taken request format slot).read other := Arena.read_freeIn _ _ _ _
      _ = taken.read other := htaken.read_write hother _ _
      _ = arena.read other :=
          Arena.read_of_allocate (Arena.allocate_of_allocateIn hallocate) other

end Message

namespace Logger

variable {logger : Logger β ω} {elsewhere : List Slot} {caller : Caller} {request : Request}
  {arena : Arena} {failure : Failure}

namespace Refuses

/-- Unless contention keeps the slot back, a failed emit leaves the same set aside. -/
theorem setAsideAlike (hrefuses : Refuses caller logger request arena failure)
    (hpolicy : logger.arena.policy ≠ .slab 0)
    (hgives : failure.hadSlot = true → logger.enters caller.giving = true) :
    logger.arena.SetAsideAlike arena := by
  cases hrefuses with
  | absentFormat => exact Arena.SetAsideAlike.refl _
  | unplaced _ hcreate => exact Message.setAsideAlike_of_createIn_error hpolicy hcreate hgives
  | unqueued _ hcreate hpush =>
    have hentered : logger.enters caller.giving = true := by
      apply hgives
      rcases Queue.push_eq_error hpush with rfl | rfl
      · rfl
      · rfl
    rw [hentered]
    exact Message.setAsideAlike_of_createIn hpolicy hcreate

theorem strands (hrefuses : Refuses caller logger request arena failure)
    (haccounts : logger.Accounts elsewhere) (hslot : failure.hadSlot = true)
    (hgives : logger.enters caller.giving = false) :
    ∃ format, request.format = some format ∧
      logger.arena.Strands arena (Message.sizeFor format) := by
  cases hrefuses with
  | absentFormat => exact absurd hslot (by simp [Failure.hadSlot])
  | unplaced hformat hcreate =>
    exact ⟨_, hformat, Message.strands_of_createIn_error haccounts hcreate hslot hgives⟩
  | unqueued hformat hcreate =>
    rw [hgives]
    exact ⟨_, hformat, Message.strands_of_createIn haccounts hcreate⟩

/-- Every cause that a message can fail of has its counter. -/
theorem exists_counter (hrefuses : Refuses caller logger request arena failure) :
    ∃ counter, failure.counter? = some counter := by
  have hsetup := hrefuses.not_setup
  cases failure with
  | resourceExhausted cause => cases cause <;> exact ⟨_, rfl⟩
  | invalidArgument _ | transcription _ => exact ⟨_, rfl⟩
  | setup fault => exact absurd rfl (hsetup fault)

theorem peak_le (hrefuses : Refuses caller logger request arena failure) :
    logger.arena.peak ≤ arena.peak := by
  cases hrefuses with
  | absentFormat => exact Nat.le_refl _
  | unplaced _ hcreate => exact Message.peak_le_of_createIn_error hcreate
  | unqueued _ hcreate =>
    rw [Arena.peak_freeIn]
    exact Message.peak_le_of_createIn hcreate

/-- A failed emit writes to no slot that is out. -/
theorem read_eq (hrefuses : Refuses caller logger request arena failure)
    (haccounts : logger.Accounts elsewhere) :
    ∀ slot ∈ logger.queue.items.map Message.slot ++ elsewhere,
      arena.read slot = logger.arena.read slot := by
  cases hrefuses with
  | absentFormat => exact fun _ _ => rfl
  | unplaced _ hcreate => exact Message.read_of_createIn_error haccounts hcreate
  | unqueued _ hcreate =>
    intro slot hslot
    rw [Arena.read_freeIn]
    exact Message.read_of_createIn haccounts hcreate slot hslot

end Refuses

/-- What an emit that fails leaves of a logger, while `slots` are out: the slots of the queue,
of the message in the consumer's hand, and of users.  `gives` tells whether the guard is had
for giving a slot back, as it always is by a task. -/
structure Undone (before after : Logger β ω) (request : Request) (slots : List Slot)
    (gives : Bool) (failure : Failure) : Prop where
  /-- What was set aside is no longer. -/
  setAside : (failure.hadSlot = true → gives = true) → before.arena.SetAsideAlike after.arena
  usedBytes_eq : (failure.hadSlot = true → gives = true) →
    after.arena.usedBytes = before.arena.usedBytes
  freeSlots_eq : (failure.hadSlot = true → gives = true) →
    after.arena.freeSlots = before.arena.freeSlots
  /-- A slot that cannot be given back is all that is lost. -/
  strands : failure.hadSlot = true → gives = false → ∃ format, request.format = some format ∧
    before.arena.Strands after.arena (Message.sizeFor format)
  length_eq : before.arena.live = slots.length
  live_eq : after.arena.live = before.arena.live
  peak_le : before.arena.peak ≤ after.arena.peak
  read_eq : ∀ slot ∈ slots, after.arena.read slot = before.arena.read slot
  /-- The queue, the sinks, the consumer and all else are as they were. -/
  others_eq : after = { before with arena := after.arena, stats := after.stats }
  counted : ∃ counter, failure.counter? = some counter ∧
    ∀ other, after.stats.count other =
      before.stats.count other + if counter = other then 1 else 0

theorem undone_of_refuses (hpolicy : logger.arena.policy ≠ .slab 0)
    (haccounts : logger.Accounts elsewhere)
    (hrefuses : Refuses caller logger request arena failure) :
    logger.Undone (logger.refuse arena failure) request
      (logger.queue.items.map Message.slot ++ elsewhere) (logger.enters caller.giving) failure where
  setAside := hrefuses.setAsideAlike hpolicy
  usedBytes_eq hgives := (hrefuses.setAsideAlike hpolicy hgives).usedBytes_eq
  freeSlots_eq hgives := (hrefuses.setAsideAlike hpolicy hgives).freeSlots_eq
  strands := hrefuses.strands haccounts
  length_eq := Arena.Accounts.live_eq haccounts
  live_eq := by
    have hafter := Arena.Accounts.live_eq (haccounts.refuse hrefuses)
    exact hafter.trans (Arena.Accounts.live_eq haccounts).symm
  peak_le := hrefuses.peak_le
  read_eq := hrefuses.read_eq haccounts
  others_eq := rfl
  counted := by
    obtain ⟨counter, hcounter⟩ := hrefuses.exists_counter
    refine ⟨counter, hcounter, fun other => ?_⟩
    simp only [stats_refuse, Stats.count_recordFailure, hcounter, Option.some.injEq]

namespace Session

/-- The states that a session goes through, those between the parts of an operation
included, and the message in the consumer's hand, if there is one. -/
inductive Reached (behaviour : Behaviour β ω) (start : Session β ω) :
    Session β ω → Option Message → Prop
  | start : Reached behaviour start start none
  | turn {session : Session β ω} (hreached : Reached behaviour start session none)
      (turn : Turn β) : Reached behaviour start (session.turn behaviour turn).1 none
  /-- A shutdown closes the queue before it waits for the consumer. -/
  | closing {session : Session β ω} (hreached : Reached behaviour start session none) :
      Reached behaviour start
        { session with logger := { session.logger with queue := session.logger.queue.close } } none
  /-- The consumer takes the oldest message out of the queue. -/
  | handling {session : Session β ω} {snapshot : Snapshot β} {memory : Memory} {message : Message}
      {rest : List Message} (hreached : Reached behaviour start session none)
      (hconsumer : session.logger.consumer = .running snapshot memory)
      (hitems : session.logger.queue.items = message :: rest) :
      Reached behaviour start
        { session with logger := session.logger.handling snapshot memory message rest }
        (some message)
  /-- A sink that is handed the entry does something. -/
  | acting {session : Session β ω} {message : Message}
      (hreached : Reached behaviour start session (some message)) (act : Act β ω Unit) :
      Reached behaviour start { session with logger := (session.logger.perform act).1 }
        (some message)
  /-- Somebody else emits in the meantime. -/
  | emitting {session : Session β ω} {message : Message}
      (hreached : Reached behaviour start session (some message)) (caller : Caller)
      (request : Request) :
      Reached behaviour start { session with logger := (session.logger.emitIn caller request).1 }
        (some message)
  /-- The consumer gives the slot back. -/
  | finished {session : Session β ω} {message : Message}
      (hreached : Reached behaviour start session (some message)) (complete : Bool)
      (tally : Tally) :
      Reached behaviour start
        { session with logger := session.logger.finish message complete tally } none

variable {session : Session β ω} {inHand : Option Message}

theorem reached_after (behaviour : Behaviour β ω) (start : Session β ω) (turns : List (Turn β)) :
    Reached behaviour start (start.after behaviour turns) none := by
  induction turns using List.reverseRecOn with
  | nil => exact .start
  | append_singleton turns turn ih =>
    rw [after, List.foldl_append]
    exact ih.turn turn

/-- The slots besides those of the queue. -/
def besides (session : Session β ω) (inHand : Option Message) : List Slot :=
  inHand.toList.map Message.slot ++ session.outside

/-- In the middle of an operation too every slot that is out has its owner. -/
theorem accounts_reached {behaviour : Behaviour β ω} {start : Session β ω}
    (hstart : start.logger.Accounts start.outside)
    (hreached : Reached behaviour start session inHand) :
    session.logger.Accounts (session.besides inHand) := by
  induction hreached with
  | start => exact hstart
  | turn _ turn ih => exact accounts_turn ih behaviour turn
  | closing _ ih => exact ih
  | @handling _ snapshot memory _ _ _ _ hitems ih => exact ih.handling snapshot memory hitems
  | acting _ act ih => exact ih.perform act
  | emitting _ caller request ih => exact ih.emitIn caller request
  | finished _ _ _ ih => exact ih.inHand.free

end Session

/-- Whatever state a logger has got into, an emit that fails there, of whatever cause, leaves
it as it was but for the peak and the one counter of that cause, and no sink hears of it.  In
interrupt context it strands the slot that it cannot give back. -/
theorem undone_emitIn {hostMemory : Nat} {texts : StaticTexts} {world : ω} {config : Config}
    {logger : Logger β ω} (hcreate : create hostMemory texts world config = .ok logger)
    (behaviour : Behaviour β ω) {session : Session β ω} {inHand : Option Message}
    (hreached : Session.Reached behaviour { logger } session inHand)
    {caller : Caller} {request : Request} {failure : Failure}
    (hfails : (session.logger.emitIn caller request).2 = .error failure) :
    session.logger.Undone (session.logger.emitIn caller request).1 request
        (session.logger.queue.items.map Message.slot ++ session.besides inHand)
        (session.logger.enters caller.giving) failure ∧
      (session.logger.watched.emitIn caller request).1.history = [] := by
  obtain ⟨arena, -, harena, rfl⟩ := create_eq_ok hcreate
  have haccounts : session.logger.Accounts (session.besides inHand) := by
    refine Session.accounts_reached ?_ hreached
    exact Arena.accounts_of_create harena
  constructor
  · rcases emitIn_cases caller session.logger request with
      ⟨_, _, _, -, -, -, -, hemit⟩ | ⟨after, cause, hrefuses, hemit⟩
    · rw [hemit] at hfails
      exact absurd hfails (by simp)
    · rw [hemit] at hfails ⊢
      obtain rfl := Except.error.inj hfails
      exact undone_of_refuses haccounts.policy_ne haccounts hrefuses
  · exact history_emitIn caller session.logger.watched request

/-- The bytes of a message that was dispatched before its successor are stranded, two messages
fill the queue, and a user has a slot behind theirs.  An interrupt handler gets at the arena
at its second try, places a message, finds the queue full, and gives the slot back. -/
theorem undone_emitIn_queue_full :
    let config : Config := { arenaCapacity := 128, queueCapacity := 2, interruptLockAttempts := 2 }
    let arena : Arena := { capacity := 128, maxInFlight := 32, policy := .bump, freeSlots := [] }
    let logger : Logger Unit Unit :=
      { config, arena, queue := { capacity := 2 }, texts := [], world := () }
    let request : Request := ⟨"net", "poll", .error, some "down", []⟩
    let behaviour : Behaviour Unit Unit := fun _ _ => .panic
    let turns : List (Turn Unit) :=
      [.step .start, .step (.emit request), .step (.emit request), .step .dispatch,
        .step (.emit request), .step (.arena (.allocate 8))]
    let second : Arena.Access := .trying fun attempt => attempt == 1
    let handler : Caller := ⟨second, second⟩
    let tick : Request := ⟨"timer", "tick", .debug, some "%d", [.int 7]⟩
    let session := Session.after behaviour { logger } turns
    create 4096 [] () config = .ok logger ∧
      (session.logger.emitIn handler tick).2 = .error (.resourceExhausted .queueFull) ∧
      session.logger.Undone (session.logger.emitIn handler tick).1 tick
        (session.logger.queue.items.map Message.slot ++ session.besides none)
        (session.logger.enters handler.giving) (.resourceExhausted .queueFull) ∧
      session.logger.arena.usedBytes = 56 ∧
      (session.logger.emitIn handler tick).1.arena.usedBytes = 56 ∧
      (session.logger.emitIn handler tick).1.arena.peak = 77 := by
  intro config arena logger request behaviour turns second handler tick session
  have hvalid : config.validate = .ok () := by
    simp [Config.validate, Config.positiveSettings, Message.headerSize, config]
  have hcreate : create 4096 [] () config = .ok logger := by
    rw [create, hvalid]
    rfl
  have hreached : Session.Reached behaviour { logger } session none :=
    Session.reached_after behaviour { logger } turns
  have hfails : (session.logger.emitIn handler tick).2 =
      .error (.resourceExhausted .queueFull) := by decide +kernel
  obtain ⟨hundone, -⟩ := undone_emitIn hcreate behaviour hreached hfails
  have hused : session.logger.arena.usedBytes = 56 := by decide +kernel
  have hgives : session.logger.enters handler.giving = true := by decide +kernel
  have hsame := (hundone.usedBytes_eq fun _ => hgives).trans hused
  exact ⟨hcreate, hfails, hundone, hused, hsame, by decide +kernel⟩

/-- An interrupt handler gets at the arena, finds its arguments not to match, and does not get
the guard again: the emit fails, and a slot is set aside that was not before. -/
theorem emitIn_not_undone :
    let config : Config := { arenaCapacity := 128, policy := .slab 32 }
    let arena : Arena :=
      { capacity := 128, maxInFlight := 32, policy := .slab 32, freeSlots := [0, 1, 2, 3] }
    let logger : Logger Unit Unit :=
      { config, arena, queue := { capacity := 32 }, texts := [], world := () }
    let handler : Caller := ⟨.trying fun _ => true, .trying fun _ => false⟩
    let tick : Request := ⟨"timer", "tick", .debug, some "%d", []⟩
    let after := (logger.emitIn handler tick).1.arena
    create 4096 [] () config = .ok logger ∧
      (∃ fault, (logger.emitIn handler tick).2 = .error (.transcription fault)) ∧
      logger.arena.usedBytes = 0 ∧ after.usedBytes = 32 ∧
      logger.arena.freeSlots = [0, 1, 2, 3] ∧ after.freeSlots = [1, 2, 3] ∧
      ¬logger.arena.SetAsideAlike after := by
  intro config arena logger handler tick after
  have hvalid : config.validate = .ok () := by
    simp [Config.validate, Config.positiveSettings, Message.headerSize, config]
  have harena : Arena.create 4096 config.arenaCapacity config.maxInFlight config.policy =
      .ok arena :=
    show Arena.create 4096 128 32 (.slab 32) = .ok arena from rfl
  have hcreate : create 4096 [] () config = .ok logger := by
    rw [create, hvalid, harena]
    rfl
  have hfails : (logger.emitIn handler tick).2 =
      .error (.transcription (.missingArgument 0 .int)) := by decide +kernel
  have hfree : after.freeSlots = [1, 2, 3] := by decide +kernel
  refine ⟨hcreate, ⟨_, hfails⟩, by decide +kernel, by decide +kernel, rfl, hfree, ?_⟩
  intro halike
  exact absurd (hfree.symm.trans halike.freeSlots_eq) (by simp [logger, arena])

end Logger

end LogRelay
