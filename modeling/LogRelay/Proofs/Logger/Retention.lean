import LogRelay.Proofs.Logger.Atomicity
import LogRelay.Proofs.Logger.History
import LogRelay.Proofs.Sink.Registry
import Mathlib.Data.List.Forall2

/-!
# What waits is kept

The queue and the arena together hold the accepted requests that are still to be dispatched, in
the order of their acceptance, and the consumer finds the sinks that are registered.  Whatever
else happens to the arena in the meantime does not reach them.  Interrupt context can be
refused the guard of the arena, and can lose slots for want of it, but not those of messages
that wait.
-/

namespace LogRelay

variable {β ω : Type}

namespace Logger

/-! ## What waits to be dispatched -/

/-- The queued messages carry the accepted requests whose dispatch has not begun, in the
order of their acceptance. -/
def Waiting (arena : Arena) (items : List Message) (history : List (Event β)) : Prop :=
  ∃ past present, History.accepted history = past ++ present ∧
    past.length = history.countP Event.isBegun ∧
    List.Forall₂ (Message.Carries arena) items present

namespace Waiting

variable {arena after : Arena} {items : List Message} {history : List (Event β)}
  {event : Event β}

/-- What does not reach the queued messages' bytes leaves them to be dispatched. -/
theorem congr (hwaiting : Waiting arena items history)
    (hread : ∀ slot ∈ items.map Message.slot, after.read slot = arena.read slot) :
    Waiting after items history := by
  obtain ⟨past, present, haccepted, hpast, hcarries⟩ := hwaiting
  have hitems : ∀ message ∈ items, after.read message.slot = arena.read message.slot :=
    fun message hmessage => hread _ (List.mem_map_of_mem hmessage)
  have hboth := (List.forall₂_and_left _ _).mpr ⟨hitems, hcarries⟩
  exact ⟨past, present, haccepted, hpast, hboth.imp fun _ _ hsame => hsame.2.congr hsame.1⟩

/-- Only an accepted request or a dispatch that begins makes a difference. -/
theorem aside (hwaiting : Waiting arena items history) (haccepted : History.accepted [event] = [])
    (hbegun : [event].countP Event.isBegun = 0) : Waiting arena items (history ++ [event]) := by
  rw [Waiting, History.accepted_append, haccepted, List.append_nil, List.countP_append, hbegun,
    Nat.add_zero]
  exact hwaiting

theorem accept (hwaiting : Waiting arena items history) {message : Message} {request : Request}
    (hcarries : message.Carries arena request) :
    Waiting arena (items ++ [message]) (history ++ [.emitted request (.ok ())]) := by
  obtain ⟨past, present, haccepted, hpast, hothers⟩ := hwaiting
  refine ⟨past, present ++ [request], ?_, ?_, ?_⟩
  · rw [History.accepted_append, haccepted, List.append_assoc]
    rfl
  · rw [List.countP_append, hpast]
    rfl
  · exact List.rel_append hothers (List.Forall₂.cons hcarries List.Forall₂.nil)

/-- The request whose turn it is is the one that the oldest queued message carries. -/
theorem begun {message : Message} {rest : List Message}
    (hwaiting : Waiting arena (message :: rest) history) :
    Waiting arena rest (history ++ [.begun]) ∧
      ∃ request, (History.accepted history)[history.countP Event.isBegun]? = some request ∧
        message.Carries arena request := by
  obtain ⟨past, present, haccepted, hpast, hcarries⟩ := hwaiting
  cases hcarries with
  | @cons _ request _ others hfirst hothers =>
    -- The request joins the past just as its dispatch is counted.
    constructor
    · refine ⟨past ++ [request], others, ?_, ?_, hothers⟩
      · rw [History.accepted_append, haccepted, ← List.append_cons]
        exact List.append_nil _
      · rw [List.countP_append, ← hpast, List.length_append]
        rfl
    · refine ⟨request, ?_, hfirst⟩
      rw [haccepted, ← hpast, List.getElem?_append_right (Nat.le_refl _), Nat.sub_self]
      rfl

end Waiting

/-- The logger keeps what was accepted until it is dispatched, and knows its sinks: `elsewhere`
are the slots out besides those of its queue. -/
structure Retains (texts : StaticTexts) (limit : Nat) (elsewhere : List Slot)
    (logger : Logger β (Watched β ω)) : Prop where
  texts_eq : logger.texts = texts
  limit_eq : logger.config.formatBufferLength = limit
  accounts : logger.Accounts elsewhere
  /-- A shutdown without a consumer discards what is queued. -/
  waiting : logger.consumer ≠ .stopped →
    Waiting logger.arena logger.queue.items logger.history
  registry_eq : logger.registry.sinks = History.registered logger.history
  generation_eq : logger.registry.generation = logger.registry.sinks.length
  reflects : ∀ snapshot memory, logger.consumer = .running snapshot memory →
    logger.registry.Reflects snapshot

namespace Retains

variable {texts : StaticTexts} {limit : Nat} {elsewhere others : List Slot}
  {logger : Logger β (Watched β ω)}

theorem arena (hretains : logger.Retains texts limit elsewhere) {after : Arena}
    (haccounts : Accounts { logger with arena := after } others)
    (hread : ∀ slot ∈ logger.queue.items.map Message.slot,
      after.read slot = logger.arena.read slot) :
    Retains texts limit others { logger with arena := after } :=
  { hretains with
    accounts := haccounts
    waiting := fun hconsumer => (hretains.waiting hconsumer).congr hread }

theorem note (hretains : logger.Retains texts limit elsewhere) {event : Event β}
    (haccepted : History.accepted [event] = []) (hregistered : History.registered [event] = [])
    (hbegun : [event].countP Event.isBegun = 0) :
    Retains texts limit elsewhere (logger.note event) := by
  refine { hretains with waiting := ?_, registry_eq := ?_ }
  · intro hconsumer
    exact (hretains.waiting hconsumer).aside haccepted hbegun
  · rw [history_note, History.registered_append, hregistered, List.append_nil]
    exact hretains.registry_eq

theorem accept (hretains : logger.Retains texts limit elsewhere) {took gave : Bool}
    {request : Request} {format : String} {after : Arena} {message : Message}
    (hformat : request.format = some format)
    (hcreate : Message.createIn took gave logger.arena logger.clock request format =
      (after, .ok message)) :
    Retains texts limit elsewhere
      ((logger.accept after message).note (.emitted request (.ok ()))) := by
  have hcarries := (Message.stores_of_createIn hformat hcreate).carries
  refine { hretains with accounts := ?_, waiting := fun hconsumer => ?_, registry_eq := ?_ }
  · exact Accounts.accept (Message.accounts_of_createIn hretains.accounts hcreate)
  · have hstill := (hretains.waiting hconsumer).congr fun slot hslot =>
      Message.read_of_createIn hretains.accounts hcreate slot (List.mem_append_left _ hslot)
    exact hstill.accept hcarries
  · rw [history_note, history_accept, History.registered_append]
    exact hretains.registry_eq.trans (List.append_nil _).symm

/-- An accepted request joins those that wait, as the last of them, and a refused one does not. -/
theorem emitIn (hretains : logger.Retains texts limit elsewhere) (caller : Caller)
    (request : Request) :
    Retains texts limit elsewhere
      ((logger.emitIn caller request).1.note
        (.emitted request (logger.emitIn caller request).2)) := by
  rcases emitIn_cases caller logger request with
    ⟨format, arena, message, hformat, hcreate, -, -, hemit⟩ | ⟨arena, failure, hrefuses, hemit⟩
  · rw [hemit]
    exact hretains.accept hformat hcreate
  · have hread := hrefuses.read_eq hretains.accounts
    have hrefused : Retains texts limit elsewhere (logger.refuse arena failure) :=
      { hretains.arena (hretains.accounts.refuse hrefuses) fun slot hslot =>
          hread slot (List.mem_append_left _ hslot) with }
    rw [hemit]
    exact hrefused.note rfl rfl rfl

theorem register (hretains : logger.Retains texts limit elsewhere)
    (registration : Registration β) :
    Retains texts limit elsewhere
      ((logger.register registration).2.note (.registered registration)) := by
  refine { hretains with waiting := ?_, registry_eq := ?_, generation_eq := ?_, reflects := ?_ }
  · intro hconsumer
    exact (hretains.waiting hconsumer).aside rfl rfl
  · rw [history_note, History.registered_append]
    exact congrArg (· ++ [registration]) hretains.registry_eq
  · exact Registry.length_register hretains.generation_eq registration
  · intro snapshot memory hconsumer
    exact (hretains.reflects snapshot memory hconsumer).register registration

theorem start (hretains : logger.Retains texts limit elsewhere)
    (hidle : logger.consumer = .idle) :
    Retains texts limit elsewhere { logger with consumer := .running {} {} } := by
  refine { hretains with waiting := ?_, reflects := ?_ }
  · exact fun _ => hretains.waiting (by rw [hidle]; simp)
  · intro snapshot memory hconsumer
    cases hconsumer
    exact Registry.reflects_new hretains.generation_eq

theorem keptBySinks (texts : StaticTexts) (limit : Nat) (elsewhere : List Slot) :
    KeptBySinks fun logger : Logger β (Watched β ω) => logger.Retains texts limit elsewhere where
  change _ _ hretains := { hretains with }
  emit _ request hretains := hretains.emitIn .task request
  register _ registration hretains := hretains.register registration

/-! ## Dispatching -/

/-- Sinks that are handed an entry may log and register, and spoil nothing that waits. -/
theorem handed (hretains : logger.Retains texts limit elsewhere) (behaviour : Behaviour β ω)
    (entry : Entry) (sinks : List (Registration β)) :
    (logger.perform (fanOut behaviour.watched sinks entry)).1.Retains texts limit elsewhere :=
  (keptBySinks texts limit elsewhere).fanOutFrom behaviour entry
    (fun _ _ hlogger => hlogger.note rfl rfl rfl) {} sinks hretains

/-- The message whose turn it is carries the request whose turn it is.  Once it is out of the
queue its slot is one of those that are out besides. -/
theorem handling (hretains : logger.Retains texts limit elsewhere) {snapshot : Snapshot β}
    {memory : Memory} {message : Message} {rest : List Message}
    (hconsumer : logger.consumer = .running snapshot memory)
    (hitems : logger.queue.items = message :: rest) :
    Retains texts limit (message.slot :: elsewhere)
        ((logger.note .begun).handling snapshot memory message rest) ∧
      ∃ request, (History.accepted logger.history)[logger.history.countP Event.isBegun]? =
          some request ∧
        message.Carries logger.arena request := by
  have hnoted : (logger.note .begun).Accounts elsewhere := hretains.accounts
  have hwaiting := hretains.waiting (by rw [hconsumer]; simp)
  rw [hitems] at hwaiting
  obtain ⟨hrest, hrequest⟩ := hwaiting.begun
  refine ⟨{ hretains with accounts := ?_, waiting := ?_, registry_eq := ?_, reflects := ?_ },
    hrequest⟩
  · exact hnoted.handling snapshot memory hitems
  · exact fun _ => hrest
  · rw [history_handling, history_note, History.registered_append]
    exact hretains.registry_eq.trans (List.append_nil _).symm
  · intro current later hcurrent
    cases hcurrent
    exact (Registry.reflects_refresh (hretains.reflects snapshot memory hconsumer)).1

/-- The slot that goes back is that of no message that waits. -/
theorem finish {message : Message}
    (hretains : logger.Retains texts limit (message.slot :: elsewhere)) (complete : Bool)
    (tally : Tally) : Retains texts limit elsewhere (logger.finish message complete tally) :=
  { hretains.arena hretains.accounts.inHand.free fun _ _ => Arena.read_free _ _ _ with }

/-- Discarding gives back the slots of all that is queued. -/
theorem discard (hretains : logger.Retains texts limit elsewhere) :
    Retains texts limit elsewhere { logger.discardPending with consumer := .stopped } :=
  { hretains with
    accounts := hretains.accounts.discardPending
    waiting := fun hconsumer => absurd rfl hconsumer
    reflects := fun _ _ hconsumer => absurd hconsumer (by simp) }

theorem stop (hretains : logger.Retains texts limit elsewhere) :
    Retains texts limit elsewhere { logger with consumer := .stopped } :=
  { hretains with
    waiting := fun hconsumer => absurd rfl hconsumer
    reflects := fun _ _ hconsumer => absurd hconsumer (by simp) }

theorem dispatch (hretains : logger.Retains texts limit elsewhere) (behaviour : Behaviour β ω) :
    (logger.watchedDispatch behaviour).Retains texts limit elsewhere := by
  rcases watchedDispatch_cases behaviour logger with
    ⟨-, hnothing⟩ | ⟨snapshot, memory, message, rest, hconsumer, hitems, complete, tally, hdispatch⟩
  · rw [hnothing]
    exact hretains
  · obtain ⟨hhandling, -⟩ := hretains.handling hconsumer hitems
    rw [hdispatch]
    exact (hhandling.handed behaviour _ _).finish complete tally

theorem dispatchMany (hretains : logger.Retains texts limit elsewhere)
    (behaviour : Behaviour β ω) (count : Nat) :
    (logger.watchedDispatchMany behaviour count).Retains texts limit elsewhere := by
  induction count generalizing logger with
  | zero => exact hretains
  | succ count ih => exact ih (hretains.dispatch behaviour)

theorem close (hretains : logger.Retains texts limit elsewhere) :
    Retains texts limit elsewhere { logger with queue := logger.queue.close } :=
  { hretains with }

theorem shutdown (hretains : logger.Retains texts limit elsewhere) (behaviour : Behaviour β ω) :
    (logger.watchedShutdown behaviour).Retains texts limit elsewhere := by
  rw [watchedShutdown]
  split
  · exact hretains.close.discard
  · exact (hretains.close.dispatchMany behaviour logger.queue.length).stop
  · exact hretains

end Retains

namespace Session

/-- The logger keeps what was accepted, and no user has a message of it in hand. -/
structure Preserves (texts : StaticTexts) (limit : Nat) (session : Session β (Watched β ω)) :
    Prop where
  retains : session.logger.Retains texts limit session.slots.toList
  none_taken : session.messages.toList = []

variable {texts : StaticTexts} {limit : Nat} {session : Session β (Watched β ω)}

theorem preserves_of_create {hostMemory : Nat} {world : ω} {config : Config} {logger : Logger β ω}
    (hcreate : create hostMemory texts world config = .ok logger) :
    (watched { logger }).Preserves texts config.formatBufferLength := by
  obtain ⟨arena, -, harena, rfl⟩ := create_eq_ok hcreate
  constructor
  · exact
      { texts_eq := rfl
        limit_eq := rfl
        accounts := Arena.accounts_of_create harena
        waiting := fun _ => ⟨[], [], rfl, rfl, List.Forall₂.nil⟩
        registry_eq := rfl
        generation_eq := rfl
        reflects := fun snapshot memory hconsumer => nomatch hconsumer }
  · rfl

theorem Preserves.get?_ne_some (hpreserves : session.Preserves texts limit) {number : Nat}
    {message : Message} : session.messages.get? number ≠ some message := by
  intro hmessage
  have hmem := Numbered.mem_toList_of_get?_eq_some hmessage
  rw [hpreserves.none_taken] at hmem
  exact absurd hmem List.not_mem_nil

/-- Users' work in their own slots does not reach the queued messages. -/
theorem Preserves.worked (hpreserves : session.Preserves texts limit) (turn : Arena.Turn) :
    (session.worked turn).Preserves texts limit := by
  have haccounts : (Arena.Session.mk session.logger.arena session.slots).arena.Accounts
      (session.slots.toList ++ session.logger.queue.items.map Message.slot) :=
    Arena.Accounts.perm hpreserves.retains.accounts List.perm_append_comm
  refine ⟨hpreserves.retains.arena ?_ ?_, hpreserves.none_taken⟩
  · exact (Arena.Session.accounts_turn haccounts turn).perm List.perm_append_comm
  · exact fun slot hslot => Arena.Session.read_turn haccounts hslot turn

/-- As long as users leave the queue alone, everything that waits is kept. -/
theorem preserves_turn (hpreserves : session.Preserves texts limit) (behaviour : Behaviour β ω)
    {turn : Turn β} (hturn : turn ≠ .step .pop) :
    (session.watchedTurn behaviour turn).Preserves texts limit := by
  have ⟨hretains, hnone⟩ := hpreserves
  cases turn with
  | step step =>
    cases step with
    | register registration => exact ⟨hretains.register registration, hnone⟩
    | start =>
      rcases watchedStep_start_cases behaviour session with ⟨-, hstart⟩ | ⟨hidle, hstart⟩
      · rw [watchedTurn, hstart]
        exact hpreserves
      · rw [watchedTurn, hstart]
        exact ⟨hretains.start hidle, hnone⟩
    | shutdown => exact ⟨hretains.shutdown behaviour, hnone⟩
    | emit request => exact ⟨hretains.emitIn .task request, hnone⟩
    | dispatch => exact ⟨hretains.dispatch behaviour, hnone⟩
    | pop => exact absurd rfl hturn
    | push number =>
      rcases watchedStep_push_cases behaviour session number with hpush | ⟨message, hmessage, -⟩
      · rw [watchedTurn, hpush]
        exact hpreserves
      · exact absurd hmessage hpreserves.get?_ne_some
    | drop number =>
      rcases watchedStep_drop_cases behaviour session number with hdrop | ⟨message, hmessage, -⟩
      · rw [watchedTurn, hdrop]
        exact hpreserves
      · exact absurd hmessage hpreserves.get?_ne_some
    | arena step => exact hpreserves.worked (.step step)
    | describe => exact hpreserves
    | describeMessage number =>
      rw [watchedTurn, watchedStep_describeMessage]
      exact hpreserves
  | emit caller request => exact ⟨hretains.emitIn caller request, hnone⟩
  | allocate access length =>
    rw [watchedTurn, turn_allocate]
    exact hpreserves.worked _
  | free access number =>
    rw [watchedTurn, turn_free]
    exact hpreserves.worked _

end Session

end Logger

end LogRelay
