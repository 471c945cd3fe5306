import LogRelay.Proofs.Arena.Contention
import LogRelay.Proofs.Logger.Stopping
import LogRelay.Proofs.Message

/-!
# No slot is lost or given back twice

A slot is placed in the queue, taken out by a user or by the consumer, put back, refused,
discarded or dropped, and whoever has it last gives it back once.  So at the end of every
step the arena counts exactly the slots that are queued or in users' hands, and that stays
so when interrupt context does without the guard.
-/

namespace LogRelay

variable {β ω α : Type}

namespace Message

variable {arena after : Arena} {ticks : UInt64} {request : Request} {format : String}
  {message : Message} {slots : List Slot} {took gave : Bool}

theorem accounts_of_createIn (haccounts : arena.Accounts slots)
    (heq : createIn took gave arena ticks request format = (after, .ok message)) :
    after.Accounts (message.slot :: slots) := by
  obtain ⟨slot, taken, hallocate, -, rfl, rfl⟩ := createIn_eq_ok heq
  have htaken : taken.Accounts (slot :: slots) := haccounts.allocateIn hallocate
  exact (htaken.region _).region _

theorem accounts_of_createIn_error {failure : Failure} (haccounts : arena.Accounts slots)
    (heq : createIn took gave arena ticks request format = (after, .error failure)) :
    after.Accounts slots := by
  rcases createIn_eq_error heq with ⟨-, -, rfl, -⟩ | ⟨slot, taken, -, hallocate, -, rfl, -⟩
  · exact haccounts
  · have htaken : taken.Accounts (slot :: slots) := haccounts.allocateIn hallocate
    have hfilled : (filled taken request format slot).Accounts (slot :: slots) := htaken.region _
    exact hfilled.freeIn gave

end Message

namespace Logger

/-- The arena accounts for the queued messages and for the slots `elsewhere`. -/
def Accounts (logger : Logger β ω) (elsewhere : List Slot) : Prop :=
  logger.arena.Accounts (logger.queue.items.map Message.slot ++ elsewhere)

variable {logger : Logger β ω} {elsewhere : List Slot}

namespace Accounts

/-! ## Emitting -/

theorem accept {arena : Arena} {message : Message}
    (harena : arena.Accounts
      (message.slot :: (logger.queue.items.map Message.slot ++ elsewhere))) :
    (logger.accept arena message).Accounts elsewhere := by
  apply harena.perm
  change List.Perm _ ((logger.queue.items ++ [message]).map Message.slot ++ elsewhere)
  rw [List.map_append, List.append_assoc]
  exact List.perm_middle.symm

/-- However an emit fails, nothing of it stays behind. -/
theorem refuse (haccounts : logger.Accounts elsewhere) {caller : Caller} {request : Request}
    {arena : Arena} {failure : Failure} (hrefuses : Refuses caller logger request arena failure) :
    (logger.refuse arena failure).Accounts elsewhere := by
  cases hrefuses with
  | absentFormat => exact haccounts
  | unplaced _ hcreate => exact Message.accounts_of_createIn_error haccounts hcreate
  | unqueued _ hcreate =>
    have hmessage := Message.accounts_of_createIn haccounts hcreate
    exact hmessage.freeIn _

/-- A message that is queued brings its slot along, and one that is not leaves no slot with an
owner. -/
theorem emitIn (haccounts : logger.Accounts elsewhere) (caller : Caller) (request : Request) :
    (logger.emitIn caller request).1.Accounts elsewhere := by
  rcases emitIn_cases caller logger request with
    ⟨format, arena, message, -, hcreate, -, -, hemit⟩ | ⟨arena, failure, hrefuses, hemit⟩
  · rw [hemit]
    exact accept (Message.accounts_of_createIn haccounts hcreate)
  · rw [hemit]
    exact haccounts.refuse hrefuses

/-- What sinks do while they are handed an entry is emitting, as far as slots go. -/
theorem perform (haccounts : logger.Accounts elsewhere) (act : Act β ω α) :
    (logger.perform act).1.Accounts elsewhere := by
  induction act generalizing logger with
  | done result => exact haccounts
  | panic => exact haccounts
  | share change next ih =>
    apply ih
    exact haccounts
  | emit request next ih =>
    apply ih
    exact haccounts.emitIn .task request
  | register registration next ih =>
    apply ih
    exact haccounts

/-! ## Dispatching and discarding -/

/-- The message that is dispatched is in the consumer's hand while the sinks have its entry. -/
theorem handling (haccounts : logger.Accounts elsewhere) (snapshot : Snapshot β) (memory : Memory)
    {message : Message} {rest : List Message} (hitems : logger.queue.items = message :: rest) :
    (logger.handling snapshot memory message rest).Accounts (message.slot :: elsewhere) := by
  rw [Accounts, hitems] at haccounts
  exact haccounts.perm List.perm_middle.symm

/-- The slot in the consumer's hand is the arena's to take back. -/
theorem inHand {slot : Slot} (haccounts : logger.Accounts (slot :: elsewhere)) :
    logger.arena.Accounts (slot :: (logger.queue.items.map Message.slot ++ elsewhere)) :=
  Arena.Accounts.perm haccounts List.perm_middle

/-- The slot of the message goes from the queue to the consumer, and then back to the arena. -/
theorem dispatch (haccounts : logger.Accounts elsewhere) (behaviour : Behaviour β ω) :
    (logger.dispatch behaviour).Accounts elsewhere := by
  by_cases hrunning : logger.isRunning ∧ ¬logger.queue.isEmpty
  · obtain ⟨snapshot, memory, message, rest, hconsumer, hitems⟩ := running_cases hrunning
    have hhandling := haccounts.handling snapshot memory hitems
    rw [dispatch_of_running behaviour hconsumer hitems]
    have hhanded := hhandling.perform (fanOut behaviour (logger.registry.refresh snapshot).1.sinks
      (logger.entryOf memory message))
    exact hhanded.inHand.free
  · rw [dispatch_of_not_running behaviour hrunning]
    exact haccounts

theorem dispatchMany (haccounts : logger.Accounts elsewhere) (behaviour : Behaviour β ω)
    (count : Nat) : (logger.dispatchMany behaviour count).Accounts elsewhere := by
  induction count generalizing logger with
  | zero => exact haccounts
  | succ count ih => exact ih (haccounts.dispatch behaviour)

theorem foldl_free {items : List Message} {arena : Arena}
    (harena : arena.Accounts (items.map Message.slot ++ elsewhere)) :
    (items.foldl (fun arena message => arena.free message.slot) arena).Accounts elsewhere := by
  induction items generalizing arena with
  | nil => exact harena
  | cons message rest ih => exact ih harena.free

theorem discardPending (haccounts : logger.Accounts elsewhere) :
    logger.discardPending.Accounts elsewhere :=
  foldl_free haccounts

theorem shutdown (haccounts : logger.Accounts elsewhere) (behaviour : Behaviour β ω) :
    (logger.shutdown behaviour).Accounts elsewhere := by
  have hclosed : Accounts { logger with queue := logger.queue.close } elsewhere := haccounts
  rw [Logger.shutdown]
  split
  · exact hclosed.discardPending
  · exact hclosed.dispatchMany behaviour _
  · exact haccounts

end Accounts

namespace Session

/-- The slots in users' hands, those of messages first. -/
def outside (session : Session β ω) : List Slot :=
  session.messages.toList.map Message.slot ++ session.slots.toList

/-- All slots that somebody has. -/
def owned (session : Session β ω) : List Slot :=
  session.logger.queue.items.map Message.slot ++ session.outside

variable {session : Session β ω}

/-- A message that goes from one hand to another takes its slot along. -/
theorem outside_perm_of_get? {number : Nat} {message : Message}
    (heq : session.messages.get? number = some message) :
    session.outside.Perm
      (message.slot ::
        outside { session with messages := session.messages.remove number }) :=
  ((Numbered.toList_perm_of_get?_eq_some heq).map Message.slot).append_right _

theorem outside_add_perm (session : Session β ω) (message : Message) :
    (outside { session with messages := (session.messages.add message).2 }).Perm
      (message.slot :: session.outside) := by
  simp only [outside, Numbered.toList_add, List.map_append, List.append_assoc]
  exact List.perm_middle

theorem owned_add_perm (session : Session β ω) (slot : Slot) :
    (slot :: session.owned).Perm
      (owned { session with slots := (session.slots.add slot).2 }) := by
  simp only [owned, outside, Numbered.toList_add, ← List.append_assoc]
  exact (List.perm_append_singleton slot _).symm

theorem owned_perm_of_get? {number : Nat} {slot : Slot}
    (heq : session.slots.get? number = some slot) :
    session.owned.Perm
      (slot :: owned { session with slots := session.slots.remove number }) := by
  simp only [owned, outside, ← List.append_assoc]
  exact ((Numbered.toList_perm_of_get?_eq_some heq).append_left _).trans List.perm_middle

theorem accounts_pop (haccounts : session.logger.arena.Accounts session.owned)
    (behaviour : Behaviour β ω) :
    (session.step behaviour .pop).1.logger.arena.Accounts
      (session.step behaviour .pop).1.owned := by
  rcases step_pop_cases behaviour session with ⟨-, hpop⟩ | ⟨message, rest, hitems, hpop⟩
  · rw [hpop]
    exact haccounts
  · rw [hpop]
    rw [owned, hitems] at haccounts
    apply haccounts.perm
    have hadded := session.outside_add_perm message
    exact List.perm_middle.symm.trans (hadded.symm.append_left _)

theorem accounts_push (haccounts : session.logger.arena.Accounts session.owned)
    (behaviour : Behaviour β ω) (number : Nat) :
    (session.step behaviour (.push number)).1.logger.arena.Accounts
      (session.step behaviour (.push number)).1.owned := by
  rcases step_push_cases behaviour session number with
    hpush | ⟨message, hheld, ⟨-, hpush⟩ | ⟨cause, hpush⟩⟩
  · rw [hpush]
    exact haccounts
  · rw [hpush]
    apply haccounts.perm
    change List.Perm _ ((session.logger.queue.items ++ [message]).map Message.slot ++ _)
    rw [List.map_append, List.append_assoc]
    exact (outside_perm_of_get? hheld).append_left _
  · rw [hpush]
    apply haccounts.perm
    have hremoved := outside_perm_of_get? hheld
    have hadded :=
      outside_add_perm { session with messages := session.messages.remove number } message
    exact (hremoved.trans hadded.symm).append_left _

theorem accounts_drop (haccounts : session.logger.arena.Accounts session.owned)
    (behaviour : Behaviour β ω) (number : Nat) :
    (session.step behaviour (.drop number)).1.logger.arena.Accounts
      (session.step behaviour (.drop number)).1.owned := by
  rcases step_drop_cases behaviour session number with hdrop | ⟨message, hheld, hdrop⟩
  · rw [hdrop]
    exact haccounts
  · rw [hdrop]
    have hmoved := (outside_perm_of_get? hheld).append_left
      (session.logger.queue.items.map Message.slot)
    exact (haccounts.perm (hmoved.trans List.perm_middle)).free

/-- What a user does with the arena alone leaves everybody else's slots alone. -/
theorem accounts_arena (haccounts : session.logger.arena.Accounts session.owned)
    (behaviour : Behaviour β ω) (step : Arena.Step) :
    (session.step behaviour (.arena step)).1.logger.arena.Accounts
      (session.step behaviour (.arena step)).1.owned := by
  let used : Arena.Session := ⟨session.logger.arena, session.slots⟩
  have hslots : used.arena.Accounts (used.slots.toList ++
      (session.logger.queue.items.map Message.slot ++
        session.messages.toList.map Message.slot)) := by
    apply haccounts.perm
    rw [owned, outside, ← List.append_assoc]
    exact List.perm_append_comm
  have hafter := Arena.Session.keptByUse_accounts.step hslots step
  apply hafter.perm
  refine List.perm_append_comm.trans (List.Perm.of_eq ?_)
  exact List.append_assoc _ _ _

/-- The slots that somebody has are accounted for after every step. -/
theorem accounts_step (haccounts : session.logger.arena.Accounts session.owned)
    (behaviour : Behaviour β ω) (step : Step β) :
    (session.step behaviour step).1.logger.arena.Accounts
      (session.step behaviour step).1.owned := by
  have hlogger : session.logger.Accounts session.outside := haccounts
  cases step with
  | register registration => exact haccounts
  | start =>
    rcases step_start_cases behaviour session with ⟨-, hstart⟩ | ⟨-, hstart⟩
    · rw [hstart]
      exact haccounts
    · rw [hstart]
      exact haccounts
  | shutdown => exact hlogger.shutdown behaviour
  | emit request =>
    rw [step_emit]
    exact hlogger.emitIn .task request
  | dispatch => exact hlogger.dispatch behaviour
  | pop => exact accounts_pop haccounts behaviour
  | push number => exact accounts_push haccounts behaviour number
  | drop number => exact accounts_drop haccounts behaviour number
  | arena step => exact accounts_arena haccounts behaviour step
  | describe => exact haccounts
  | describeMessage number =>
    rw [step_describeMessage]
    exact haccounts

theorem accounts_turn (haccounts : session.logger.arena.Accounts session.owned)
    (behaviour : Behaviour β ω) (turn : Turn β) :
    (session.turn behaviour turn).1.logger.arena.Accounts
      (session.turn behaviour turn).1.owned := by
  have hlogger : session.logger.Accounts session.outside := haccounts
  cases turn with
  | step step => exact accounts_step haccounts behaviour step
  | emit caller request =>
    rw [turn_emit]
    exact hlogger.emitIn caller request
  | allocate access length =>
    rw [Session.turn]
    split
    · exact haccounts
    · next slot arena heq => exact (haccounts.allocateIn heq).perm (session.owned_add_perm slot)
  | free access number =>
    rw [Session.turn]
    split
    · exact haccounts
    · next slot heq => exact (haccounts.perm (owned_perm_of_get? heq)).freeIn _

/-- By induction on the turns, from any session in which all slots are accounted for. -/
theorem accounts_after (haccounts : session.logger.arena.Accounts session.owned)
    (behaviour : Behaviour β ω) (turns : List (Turn β)) :
    (session.after behaviour turns).logger.arena.Accounts
      (session.after behaviour turns).owned := by
  induction turns generalizing session with
  | nil => exact haccounts
  | cons turn rest ih => exact ih (accounts_turn haccounts behaviour turn)

/-- Every slot that is out is with one owner, who is the queue or a user, and everybody's
slots are their own. -/
structure Settled (session : Session β ω) : Prop where
  live_eq : session.logger.arena.live =
    session.logger.queue.length + session.messages.toList.length + session.slots.toList.length
  apart : session.owned.Pairwise Slot.Apart
  /-- No slab slot went back twice, or while somebody had it. -/
  nodup_indices : ∀ slotSize, session.logger.arena.policy = .slab slotSize →
    (session.logger.arena.freeSlots ++ session.owned.map (Slot.index slotSize)).Nodup

/-- What the accounts say of the counter and of the bytes. -/
theorem settled_of_accounts (haccounts : session.logger.arena.Accounts session.owned) :
    session.Settled where
  live_eq := by
    rw [haccounts.live_eq, owned, outside, List.length_append, List.length_append,
      List.length_map, List.length_map, Nat.add_assoc]
    rfl
  apart := haccounts.apart
  nodup_indices _ hpolicy := haccounts.nodup_indices hpolicy

end Session

/-- Nothing that is done with a logger, by tasks or in interrupt context, leaks a slot or
gives one back twice.  Once nothing is queued, as after a shutdown, only users have slots
out. -/
theorem settled_after {hostMemory : Nat} {texts : StaticTexts} {world : ω} {config : Config}
    {logger : Logger β ω} (hcreate : create hostMemory texts world config = .ok logger)
    (behaviour : Behaviour β ω) (turns : List (Turn β)) :
    let final := Session.after behaviour { logger } turns
    final.Settled ∧
      (.step .shutdown ∈ turns → final.logger.queue.items = []) ∧
      (final.logger.queue.items = [] → final.messages.toList = [] → final.slots.toList = [] →
        final.logger.arena.live = 0) := by
  intro final
  obtain ⟨arena, -, harena, rfl⟩ := create_eq_ok hcreate
  let start : Session β ω :=
    { logger := { config, arena, queue := { capacity := config.queueCapacity }, texts, world } }
  have hbegin : start.logger.arena.Accounts start.owned := Arena.accounts_of_create harena
  have hsettled : final.Settled :=
    Session.settled_of_accounts (Session.accounts_after hbegin behaviour turns)
  have hidle : start.watched.logger.consumer ≠ .stopped := by
    change Consumer.idle ≠ .stopped
    simp
  have hfinal : (start.watched.watchedAfter behaviour turns).unwatched = final :=
    Session.unwatched_after behaviour start.watched turns
  refine ⟨hsettled, fun hshutdown => ?_, fun hqueue hmessages hslots => ?_⟩
  · rw [← hfinal]
    exact ((Session.stopped_after hidle behaviour turns).1 hshutdown).items_eq
  · rw [hsettled.live_eq, Queue.length, hqueue, hmessages, hslots]
    rfl

/-- An interrupt handler gets at the arena at its second try, finds its arguments not to
match, and cannot give its slot back; another one cannot give back a user's slot.  A sink
logs whenever it is called and then panics.  After the shutdown no slot is live, while the
bytes of two are still set aside, until the arena is reset. -/
theorem settled_after_interrupts :
    let config : Config :=
      { arenaCapacity := 128, queueCapacity := 2, interruptLockAttempts := 2, policy := .slab 32 }
    let arena : Arena :=
      { capacity := 128, maxInFlight := 32, policy := .slab 32, freeSlots := [0, 1, 2, 3] }
    let logger : Logger Unit Unit :=
      { config, arena, queue := { capacity := 2 }, texts := [], world := () }
    let request : Request := ⟨"net", "poll", .error, some "down", []⟩
    let behaviour : Behaviour Unit Unit := fun _ _ => .emit request fun _ => .panic
    let handler : Caller := ⟨.trying fun attempt => attempt == 1, .trying fun _ => false⟩
    let turns : List (Turn Unit) :=
      [.step (.register ⟨"again", some ()⟩), .step .start,
        .emit handler ⟨"timer", "tick", .debug, some "%d", []⟩, .step (.arena (.allocate 8)),
        .allocate (.trying fun _ => false) 8, .step (.emit request), .step (.emit request),
        .step .pop, .step .dispatch, .free (.trying fun _ => false) 0, .step (.push 0),
        .step .shutdown]
    let final := Session.after behaviour { logger } turns
    create 4096 [] () config = .ok logger ∧ final.Settled ∧ final.logger.arena.live = 0 ∧
      final.logger.arena.usedBytes = 64 ∧ final.logger.stats.dispatched = 2 ∧
      (final.step behaviour (.arena .reset)).1.logger.arena.usedBytes = 0 := by
  intro config arena logger request behaviour handler turns final
  have hvalid : config.validate = .ok () := by
    simp [Config.validate, Config.positiveSettings, Message.headerSize, config]
  have harena : Arena.create 4096 config.arenaCapacity config.maxInFlight config.policy =
      .ok arena :=
    show Arena.create 4096 128 32 (.slab 32) = .ok arena from rfl
  have hcreate : create 4096 [] () config = .ok logger := by
    rw [create, hvalid, harena]
    rfl
  obtain ⟨hsettled, -⟩ := settled_after hcreate behaviour turns
  exact ⟨hcreate, hsettled, by decide +kernel, by decide +kernel, by decide +kernel,
    by decide +kernel⟩

end Logger

end LogRelay
