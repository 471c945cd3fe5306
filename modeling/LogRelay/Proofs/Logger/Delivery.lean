import LogRelay.Proofs.Entry
import LogRelay.Proofs.Logger.Conservation
import LogRelay.Proofs.Logger.Quiet
import LogRelay.Proofs.Logger.Retention

/-!
# Delivery

Each of the accepted requests is dispatched in its turn and as it was emitted, to all sinks
that are registered by then, and to each of them once, whatever those before it do.
-/

namespace LogRelay

open LogRelay.Record

variable {β ω : Type}

/-! ## Reading a history -/

namespace History

open Event

/-- What is handed over before another dispatch begins. -/
def handedNext : List (Event β) → List (β × Entry)
  | [] => []
  | .begun :: _ => []
  | .handed sink entry :: rest => (sink, entry) :: handedNext rest
  | .registered _ :: rest | .emitted _ _ :: rest | .taken :: rest | .returned :: rest =>
    handedNext rest

variable {history events more : List (Event β)}

theorem handedNext_append_of_eq_nil (hevents : handedNext events = []) :
    handedNext (history ++ events) = handedNext history := by
  induction history with
  | nil => exact hevents
  | cons event rest ih =>
    cases event with
    | begun => rfl
    | handed sink entry => exact congrArg ((sink, entry) :: ·) ih
    | registered | emitted | taken | returned => exact ih

/-- Quiet events say nothing of what is handed over next. -/
theorem handedNext_quiet_append (hquiet : Quiet events) :
    handedNext (events ++ more) = handedNext more := by
  induction events with
  | nil => rfl
  | cons event rest ih =>
    obtain ⟨⟨hbegun, hhanded⟩, hrest⟩ := List.forall_mem_cons.mp hquiet
    cases event with
    | begun => exact absurd hbegun (by simp [isBegun])
    | handed sink entry => exact absurd hhanded (by simp [isHanded])
    | registered | emitted | taken | returned => exact ih hrest

theorem handedNext_of_quiet (hquiet : Quiet events) : handedNext events = [] := by
  have hnothing : handedNext (events ++ []) = handedNext [] := handedNext_quiet_append hquiet
  rw [List.append_nil] at hnothing
  exact hnothing

end History

namespace Logger

/-! ## What a fan-out adds to the history -/

/-- Every attached sink is handed the entry, once and in its turn, whether or not those
before it panicked. -/
theorem history_fanOutFrom (behaviour : Behaviour β ω) (logger : Logger β (Watched β ω))
    (entry : Entry) (tally : Tally) (sinks : List (Registration β)) :
    ∃ events,
      (logger.perform (fanOutFrom behaviour.watched entry tally sinks)).1.history =
        logger.history ++ events ∧
      (∀ event ∈ events, event.isBegun = false) ∧
      History.handedNext events =
        (sinks.filterMap Registration.sink).map fun sink => (sink, entry) := by
  induction sinks generalizing logger tally with
  | nil => exact ⟨[], (List.append_nil _).symm, List.forall_mem_nil _, rfl⟩
  | cons registration rest ih =>
    obtain ⟨delivery, -, hperform⟩ :=
      perform_fanOutFrom_cons behaviour.watched logger entry tally registration rest
    obtain ⟨others, hothers, hbegun, hhanded⟩ :=
      ih (logger.perform (deliver behaviour.watched entry registration)).1 (tally.count delivery)
    rw [hperform, hothers]
    obtain ⟨name, sink⟩ := registration
    cases sink with
    | none => exact ⟨others, rfl, hbegun, hhanded⟩
    | some sink =>
      have hstart : Extends (logger.history ++ [.handed sink entry])
          (logger.note (.handed sink entry)) :=
        ⟨[], (List.append_nil _).symm, List.forall_mem_nil _⟩
      obtain ⟨events, hhistory, hquiet⟩ :=
        (keptBySinks_extends _).perform (behaviour sink entry) hstart
      refine ⟨.handed sink entry :: (events ++ others), ?_, ?_, ?_⟩
      · rw [perform_deliver_attached]
        change (perform (logger.note (.handed sink entry))
          (behaviour sink entry).watched).1.history ++ others = _
        rw [hhistory, List.append_assoc, List.append_assoc, List.singleton_append]
      · refine List.forall_mem_cons.mpr ⟨rfl, List.forall_mem_append.mpr ⟨?_, hbegun⟩⟩
        exact fun event hevent => (hquiet event hevent).1
      · rw [History.handedNext, History.handedNext_quiet_append hquiet, hhanded]
        rfl

/-! ## Dispatches in order -/

/-- The dispatches are those of the accepted requests, in order.  Each hands what it
reports of its request to the sinks registered before it began, and nothing else is
handed over. -/
structure Delivered (texts : StaticTexts) (limit : Nat) (history : List (Event β)) : Prop where
  before_first : History.handedNext history = []
  dispatch : ∀ before rest, history = before ++ .begun :: rest →
    ∃ request entry, (History.accepted before)[before.countP Event.isBegun]? = some request ∧
      entry.Reports texts limit request ∧
      History.handedNext rest = (History.attached before).map fun sink => (sink, entry)

variable {texts : StaticTexts} {limit : Nat} {history events : List (Event β)}

theorem delivered_nil : Delivered texts limit ([] : List (Event β)) where
  before_first := rfl
  dispatch before rest heq := absurd heq (by simp)

/-- A dispatch is not called into question by what happens after the next one begins. -/
theorem Delivered.append (hdelivered : Delivered texts limit history)
    (hhanded : History.handedNext events = []) {before rest : List (Event β)}
    (heq : history = before ++ .begun :: rest) :
    ∃ request entry, (History.accepted before)[before.countP Event.isBegun]? = some request ∧
      entry.Reports texts limit request ∧
      History.handedNext (rest ++ events) =
        (History.attached before).map fun sink => (sink, entry) := by
  rw [History.handedNext_append_of_eq_nil hhanded]
  exact hdelivered.dispatch before rest heq

/-- Where no dispatch begins among the last events, each one began before them. -/
theorem begun_of_append (hbegun : ∀ event ∈ events, event.isBegun = false)
    {before rest : List (Event β)} (heq : history ++ events = before ++ .begun :: rest) :
    ∃ middle, history = before ++ .begun :: middle ∧ rest = middle ++ events := by
  rcases List.append_eq_append_iff.mp heq with ⟨late, rfl, hlate⟩ | ⟨early, rfl, hearly⟩
  · have hmem : Event.begun ∈ events := by
      rw [hlate]
      exact List.mem_append_right _ List.mem_cons_self
    exact absurd (hbegun _ hmem) (by simp [Event.isBegun])
  · cases early with
    | nil =>
      rw [List.nil_append] at hearly
      have hmem : Event.begun ∈ events := by
        rw [← hearly]
        exact List.mem_cons_self
      exact absurd (hbegun _ hmem) (by simp [Event.isBegun])
    | cons event middle =>
      rw [List.cons_append, List.cons.injEq] at hearly
      obtain ⟨rfl, hrest⟩ := hearly
      exact ⟨middle, rfl, hrest⟩

/-- What is quiet adds no dispatch and may add requests behind those accepted so far. -/
theorem Delivered.quiet (hdelivered : Delivered texts limit history)
    (hquiet : History.Quiet events) : Delivered texts limit (history ++ events) where
  before_first := by
    rw [History.handedNext_append_of_eq_nil (History.handedNext_of_quiet hquiet)]
    exact hdelivered.before_first
  dispatch before rest heq := by
    have hbegun : ∀ event ∈ events, event.isBegun = false :=
      fun event hevent => (hquiet event hevent).1
    obtain ⟨middle, hhistory, rfl⟩ := begun_of_append hbegun heq
    exact hdelivered.append (History.handedNext_of_quiet hquiet) hhistory

/-- One more dispatch. -/
theorem Delivered.begun (hdelivered : Delivered texts limit history)
    (hbegun : ∀ event ∈ events, event.isBegun = false) {request : Request} {entry : Entry}
    (hrequest : (History.accepted history)[history.countP Event.isBegun]? = some request)
    (hreports : entry.Reports texts limit request)
    (hhanded : History.handedNext events =
      (History.attached history).map fun sink => (sink, entry)) :
    Delivered texts limit (history ++ .begun :: events) where
  before_first := by
    rw [History.handedNext_append_of_eq_nil rfl]
    exact hdelivered.before_first
  dispatch before rest heq := by
    rw [List.append_cons] at heq
    obtain ⟨middle, hhistory, rfl⟩ := begun_of_append hbegun heq
    -- Either this is the dispatch that was added, or one whose end is still in the history.
    rcases List.eq_nil_or_concat middle with rfl | ⟨earlier, last, rfl⟩
    · obtain ⟨rfl, -⟩ := List.append_inj' hhistory rfl
      exact ⟨request, entry, hrequest, hreports, hhanded⟩
    · rw [List.concat_eq_append, ← List.cons_append, ← List.append_assoc] at hhistory
      obtain ⟨hhistory, hlast⟩ := List.append_inj' hhistory rfl
      rw [List.concat_eq_append, ← hlast, List.append_assoc, List.singleton_append]
      exact hdelivered.append rfl hhistory

variable {elsewhere : List Slot} {logger : Logger β (Watched β ω)}

/-- A dispatch is that of the accepted request whose turn it is. -/
theorem Delivered.next (hdelivered : Delivered texts limit logger.history)
    (hretains : logger.Retains texts limit elsewhere) (behaviour : Behaviour β ω) :
    Delivered texts limit (logger.watchedDispatch behaviour).history := by
  rcases watchedDispatch_cases behaviour logger with
    ⟨-, hnothing⟩ | ⟨snapshot, memory, message, rest, hconsumer, hitems, complete, tally, hdispatch⟩
  · rw [hnothing]
    exact hdelivered
  · obtain ⟨-, request, hrequest, hcarries⟩ := hretains.handling hconsumer hitems
    obtain ⟨-, hsinks⟩ := Registry.reflects_refresh (hretains.reflects snapshot memory hconsumer)
    obtain ⟨events, hhistory, hbegun, hhanded⟩ := history_fanOutFrom behaviour
      ((logger.note .begun).handling snapshot memory message rest) (logger.entryOf memory message)
      {} (logger.registry.refresh snapshot).1.sinks
    have hreports := reports_entryOf hcarries memory
    rw [hretains.texts_eq, hretains.limit_eq] at hreports
    rw [hsinks, hretains.registry_eq] at hhanded
    rw [hdispatch]
    change Delivered texts limit (perform _ (fanOutFrom _ _ _ _)).1.history
    rw [hhistory]
    change Delivered texts limit (logger.history ++ [.begun] ++ events)
    rw [List.append_assoc, List.singleton_append]
    exact hdelivered.begun hbegun hrequest hreports hhanded

theorem Delivered.dispatchMany (hdelivered : Delivered texts limit logger.history)
    (hretains : logger.Retains texts limit elsewhere) (behaviour : Behaviour β ω) (count : Nat) :
    Delivered texts limit (logger.watchedDispatchMany behaviour count).history := by
  induction count generalizing logger with
  | zero => exact hdelivered
  | succ count ih =>
    exact ih (hdelivered.next hretains behaviour) (hretains.dispatch behaviour)

theorem Delivered.shutdown (hdelivered : Delivered texts limit logger.history)
    (hretains : logger.Retains texts limit elsewhere) (behaviour : Behaviour β ω) :
    Delivered texts limit (logger.watchedShutdown behaviour).history := by
  have hclosed : Delivered texts limit
      (history { logger with queue := logger.queue.close }) := hdelivered
  rw [watchedShutdown]
  split
  · exact hdelivered
  · exact hclosed.dispatchMany hretains.close behaviour logger.queue.length
  · exact hdelivered

namespace Session

/-- The logger has delivered what it dispatched, and keeps what is still to be dispatched. -/
structure Delivers (texts : StaticTexts) (limit : Nat) (session : Session β (Watched β ω)) :
    Prop where
  preserves : session.Preserves texts limit
  delivered : Delivered texts limit session.logger.history

variable {session : Session β (Watched β ω)}

/-- Each turn dispatches from the front of the queue or adds at its end. -/
theorem delivers_turn (hdelivers : session.Delivers texts limit) (behaviour : Behaviour β ω)
    {turn : Turn β} (hturn : turn ≠ .step .pop) :
    (session.watchedTurn behaviour turn).Delivers texts limit := by
  obtain ⟨hpreserves, hdelivered⟩ := hdelivers
  refine ⟨preserves_turn hpreserves behaviour hturn, ?_⟩
  rcases eq_or_ne turn (.step .dispatch) with rfl | hdispatch
  · exact hdelivered.next hpreserves.retains behaviour
  rcases eq_or_ne turn (.step .shutdown) with rfl | hshutdown
  · exact hdelivered.shutdown hpreserves.retains behaviour
  obtain ⟨⟨events, hhistory, hquiet⟩, -⟩ := quiet_turn behaviour session hdispatch hshutdown
  rw [hhistory]
  exact hdelivered.quiet hquiet

theorem delivers_after (hdelivers : session.Delivers texts limit) (behaviour : Behaviour β ω)
    {turns : List (Turn β)} (hturns : .step .pop ∉ turns) :
    (session.watchedAfter behaviour turns).Delivers texts limit := by
  induction turns generalizing session with
  | nil => exact hdelivers
  | cons turn rest ih =>
    rw [List.mem_cons, not_or] at hturns
    obtain ⟨hturn, hrest⟩ := hturns
    exact ih (delivers_turn hdelivers behaviour (Ne.symm hturn)) hrest

end Session

/-- Whatever is emitted, by tasks or in interrupt context, registered and dispatched, and
whatever else users do in the arena: as long as they leave the queue alone, every dispatch is
that of the next accepted request, and hands what was asked to be logged to all sinks
registered by then. -/
theorem delivered_after {hostMemory : Nat} {world : ω} {config : Config} {logger : Logger β ω}
    (hcreate : create hostMemory texts world config = .ok logger) (behaviour : Behaviour β ω)
    {turns : List (Turn β)} (hturns : .step .pop ∉ turns) :
    let start : Session β ω := { logger }
    let history := start.historyAfter behaviour turns
    let stats := (start.after behaviour turns).logger.stats
    Delivered texts config.formatBufferLength history ∧
      history.countP Event.isBegun = stats.dispatched ∧
      (History.accepted history).length = stats.emitted := by
  intro start history stats
  have hpreserves := Session.preserves_of_create hcreate
  have hbegin : start.watched.logger.Balanced start.messages.toList.length 0 :=
    balanced_of_create hcreate
  have hconserved := Session.conserved_of_balanced hbegin behaviour turns
  have hdelivers := Session.delivers_after ⟨hpreserves, delivered_nil⟩ behaviour hturns
  exact ⟨hdelivers.delivered, hconserved.dispatched_eq, hconserved.emitted_eq⟩

/-- Two messages wait while a user fills a slot of their own.  The second comes from an
interrupt handler who gets the guard of the arena at the last try, and whose arguments did not
match when it tried before and could not give its slot back.  A panicking sink and a detached
one stand before the one that keeps the texts, and the second text is cut off within a
character. -/
theorem delivered_after_among_others :
    let config : Config :=
      { arenaCapacity := 160, formatBufferLength := 7, interruptLockAttempts := 2,
        policy := .slab 40 }
    let arena : Arena :=
      { capacity := 160, maxInFlight := 32, policy := .slab 40, freeSlots := [0, 1, 2, 3] }
    let texts : StaticTexts := [⟨4096, "ab"⟩]
    let logger : Logger Bool (List String) :=
      { config, arena, queue := { capacity := 32 }, texts, world := [] }
    let behaviour : Behaviour Bool (List String) := fun panics entry =>
      if panics then .panic else .modify (· ++ [entry.text])
    let handler : Caller := ⟨.trying fun attempt => attempt == 1, .trying fun _ => false⟩
    let turns : List (Turn Bool) :=
      [.step (.register ⟨"panics", some true⟩), .step (.register ⟨"detached", none⟩),
        .step (.register ⟨"keeps", some false⟩), .step .start, .step (.arena (.allocate 40)),
        .step (.emit ⟨"net", "poll", .error, some "%d%%", [.int (-3)]⟩),
        .emit handler ⟨"timer", "tick", .debug, some "%s été", []⟩,
        .emit handler ⟨"timer", "tick", .debug, some "%s été", [.str ⟨4096, "ab"⟩]⟩,
        .step (.arena (.fill 0 0xff)), .step .dispatch, .step .dispatch]
    create 4096 texts [] config = .ok logger ∧ .step .pop ∉ turns ∧
      Delivered texts 7 (Session.historyAfter behaviour { logger } turns) ∧
      (Session.after behaviour { logger } turns).logger.world = ["-3%", "ab ét"] := by
  intro config arena texts logger behaviour handler turns
  have hvalid : config.validate = .ok () := by
    simp [Config.validate, Config.positiveSettings, Message.headerSize, config]
  have harena : Arena.create 4096 config.arenaCapacity config.maxInFlight config.policy =
      .ok arena :=
    show Arena.create 4096 160 32 (.slab 40) = .ok arena from rfl
  have hcreate : create 4096 texts [] config = .ok logger := by
    rw [create, hvalid, harena]
    rfl
  have hturns : .step .pop ∉ turns := by simp [turns]
  exact ⟨hcreate, hturns, (delivered_after hcreate behaviour hturns).1, by decide +kernel⟩

end Logger

end LogRelay
