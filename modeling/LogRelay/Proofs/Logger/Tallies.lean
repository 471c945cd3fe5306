import LogRelay.Proofs.Entry
import LogRelay.Proofs.Logger.Quiet
import LogRelay.Proofs.Logger.Retention

/-!
# What the consumer counts

The consumer counts more than its messages: the texts that it had to cut off, the detached
sinks that it passed over, and the sinks that panicked.  None of the three is counted where it
can be seen, for the text is cut off deep in the rendering, and the sinks are those of a copy
of the registry.  They agree all the same with what was asked to be logged, with the sinks
that were registered when each dispatch began, and with what became of each of these.
-/

namespace LogRelay

open LogRelay.Record LogRelay.Render

variable {β ω : Type}

/-- The whole text of the request takes more than `limit` bytes. -/
def Request.overruns (limit : Nat) (request : Request) : Bool :=
  match request.format with
  | none => false
  | some format => limit < (formatNow format request.arguments).utf8ByteSize

namespace History

/-- The sinks registered whenever a dispatch begins, if at first it is `sinks`. -/
def rosters (sinks : List (Registration β)) : List (Event β) → List (List (Registration β))
  | [] => []
  | .begun :: rest => sinks :: rosters sinks rest
  | .registered registration :: rest => rosters (sinks ++ [registration]) rest
  | .emitted _ _ :: rest | .handed _ _ :: rest | .taken :: rest | .returned :: rest =>
    rosters sinks rest

/-- What was registered by the end of a history is there when the next one begins. -/
theorem rosters_append (sinks : List (Registration β)) (history events : List (Event β)) :
    rosters sinks (history ++ events) =
      rosters sinks history ++ rosters (sinks ++ registered history) events := by
  induction history generalizing sinks with
  | nil => rw [registered, List.filterMap_nil, List.append_nil, rosters, List.nil_append,
      List.nil_append]
  | cons event rest ih =>
    cases event with
    | begun => exact congrArg (sinks :: ·) (ih sinks)
    | registered registration =>
      refine (ih (sinks ++ [registration])).trans ?_
      rw [List.append_assoc]
      rfl
    | emitted _ _ | handed _ _ | taken | returned => exact ih sinks

theorem rosters_eq_nil {sinks : List (Registration β)} {events : List (Event β)}
    (hbegun : ∀ event ∈ events, event.isBegun = false) : rosters sinks events = [] := by
  induction events generalizing sinks with
  | nil => rfl
  | cons event rest ih =>
    obtain ⟨hevent, hrest⟩ := List.forall_mem_cons.mp hbegun
    cases event with
    | begun => exact absurd hevent (by simp [Event.isBegun])
    | registered _ | emitted _ _ | handed _ _ | taken | returned => exact ih hrest

theorem length_rosters (sinks : List (Registration β)) (history : List (Event β)) :
    (rosters sinks history).length = history.countP Event.isBegun := by
  induction history generalizing sinks with
  | nil => rfl
  | cons event rest ih =>
    cases event with
    | begun =>
      rw [rosters, List.length_cons, ih, List.countP_cons_of_pos rfl]
    | registered registration =>
      rw [rosters, ih, List.countP_cons_of_neg (by simp [Event.isBegun])]
    | emitted _ _ | handed _ _ | taken | returned =>
      rw [rosters, ih, List.countP_cons_of_neg (by simp [Event.isBegun])]

end History

/-! ## What becomes of an entry -/

/-- How many of the deliveries came to what. -/
def Tally.of (fates : List Delivery) : Tally :=
  ⟨fates.count .delivered, fates.count .skipped, fates.count .panicked⟩

theorem Tally.foldl_count (tally : Tally) (fates : List Delivery) :
    fates.foldl Tally.count tally =
      ⟨tally.delivered + fates.count .delivered, tally.skipped + fates.count .skipped,
        tally.panicked + fates.count .panicked⟩ := by
  induction fates generalizing tally with
  | nil => rfl
  | cons delivery rest ih =>
    rw [List.foldl_cons, ih]
    cases delivery <;> simp [Tally.count] <;> omega

theorem Tally.total_of (fates : List Delivery) :
    (Tally.of fates).delivered + (Tally.of fates).skipped + (Tally.of fates).panicked =
      fates.length := by
  induction fates with
  | nil => rfl
  | cons delivery rest ih =>
    simp only [Tally.of] at ih
    cases delivery <;> simp [Tally.of] <;> omega

namespace Logger

/-- What becomes of an entry at each of the sinks, in their order: a detached one is passed
over, and any other one does what it does with the entry and comes to an end or panics. -/
def fates (behaviour : Behaviour β ω) (entry : Entry) :
    Logger β ω → List (Registration β) → List Delivery
  | _, [] => []
  | logger, ⟨_, none⟩ :: rest => .skipped :: fates behaviour entry logger rest
  | logger, ⟨_, some sink⟩ :: rest =>
    let (after, outcome) := logger.perform (behaviour sink entry)
    (if outcome.isSome then .delivered else .panicked) :: fates behaviour entry after rest

theorem length_fates (behaviour : Behaviour β ω) (entry : Entry) (logger : Logger β ω)
    (sinks : List (Registration β)) :
    (logger.fates behaviour entry sinks).length = sinks.length := by
  induction sinks generalizing logger with
  | nil => rfl
  | cons registration rest ih =>
    obtain ⟨name, sink⟩ := registration
    cases sink with
    | none | some sink => rw [fates, List.length_cons, List.length_cons, ih]

theorem count_skipped_fates (behaviour : Behaviour β ω) (entry : Entry) (logger : Logger β ω)
    (sinks : List (Registration β)) :
    (logger.fates behaviour entry sinks).count .skipped =
      sinks.countP Registration.isDetached := by
  induction sinks generalizing logger with
  | nil => rfl
  | cons registration rest ih =>
    obtain ⟨name, sink⟩ := registration
    cases sink with
    | none =>
      rw [fates, List.count_cons_self, ih, List.countP_cons_of_pos rfl]
    | some sink =>
      have hfate : ∀ outcome : Option Unit,
          (if outcome.isSome then Delivery.delivered else .panicked) ≠ .skipped := by
        intro outcome
        cases outcome <;> simp
      rw [fates, List.count_cons_of_ne (hfate _), ih,
        List.countP_cons_of_neg (by simp [Registration.isDetached])]

/-- The consumer's tally is that of what became of the entry. -/
theorem snd_perform_fanOutFrom (behaviour : Behaviour β ω) (logger : Logger β ω) (entry : Entry)
    (tally : Tally) (sinks : List (Registration β)) :
    (logger.perform (fanOutFrom behaviour entry tally sinks)).2 =
      some ((logger.fates behaviour entry sinks).foldl Tally.count tally) := by
  induction sinks generalizing logger tally with
  | nil => rfl
  | cons registration rest ih =>
    obtain ⟨delivery, hdelivery, hperform⟩ :=
      perform_fanOutFrom_cons behaviour logger entry tally registration rest
    rw [hperform, ih]
    obtain ⟨name, sink⟩ := registration
    cases sink with
    | none =>
      obtain rfl := Option.some.inj hdelivery
      rfl
    | some sink =>
      rw [perform_deliver_attached] at hdelivery ⊢
      obtain rfl := Option.some.inj hdelivery
      rfl

/-- The tally of a round says what became of the entry at each sink. -/
theorem snd_perform_fanOut (behaviour : Behaviour β ω) (logger : Logger β ω) (entry : Entry)
    (sinks : List (Registration β)) :
    (logger.perform (fanOut behaviour sinks entry)).2 =
      some (Tally.of (logger.fates behaviour entry sinks)) := by
  rw [fanOut, snd_perform_fanOutFrom, Tally.foldl_count]
  simp only [Tally.of, Nat.zero_add]

/-! ## Dispatches one by one -/

structure Round (β : Type) where
  /-- The sinks registered when it began. -/
  sinks : List (Registration β)
  /-- What became of the entry at each of them. -/
  fates : List Delivery
  /-- What the consumer counted. -/
  tally : Tally

/-- The dispatch that is due, if there is one. -/
def round? (behaviour : Behaviour β ω) (logger : Logger β ω) : Option (Round β) :=
  match logger.consumer, logger.queue.items with
  | .running snapshot memory, message :: rest =>
    let handling := logger.handling snapshot memory message rest
    let entry := logger.entryOf memory message
    let handed :=
      handling.perform (fanOut behaviour (logger.registry.refresh snapshot).1.sinks entry)
    some
      { sinks := logger.registry.sinks
        fates := handling.fates behaviour entry logger.registry.sinks
        tally := handed.2.getD {} }
  | _, _ => none

theorem round?_of_not_running (behaviour : Behaviour β ω) {logger : Logger β ω}
    (hrunning : ¬(logger.isRunning ∧ ¬logger.queue.isEmpty)) :
    logger.round? behaviour = none := by
  rw [round?]
  split
  · next hconsumer hitems =>
    exact absurd (by simp [isRunning, hconsumer, Queue.isEmpty, hitems]) hrunning
  · rfl

/-- The sinks of a snapshot that reflects the registry are those that are registered. -/
theorem round?_of_running (behaviour : Behaviour β ω) {logger : Logger β ω}
    {snapshot : Snapshot β} {memory : Memory} {message : Message} {rest : List Message}
    (hconsumer : logger.consumer = .running snapshot memory)
    (hitems : logger.queue.items = message :: rest)
    (hreflects : logger.registry.Reflects snapshot) :
    let fates := (logger.handling snapshot memory message rest).fates behaviour
      (logger.entryOf memory message) logger.registry.sinks
    logger.round? behaviour =
      some { sinks := logger.registry.sinks, fates, tally := Tally.of fates } := by
  intro fates
  obtain ⟨-, hsinks⟩ := Registry.reflects_refresh hreflects
  simp only [round?, hconsumer, hitems, hsinks, snd_perform_fanOut, Option.getD_some]
  rfl

/-- The dispatches of a consumer who is to dispatch up to `count` messages. -/
def rounds (behaviour : Behaviour β ω) : Nat → Logger β ω → List (Round β)
  | 0, _ => []
  | count + 1, logger =>
    (logger.round? behaviour).toList ++ rounds behaviour count (logger.dispatch behaviour)

namespace Session

def roundsOf (behaviour : Behaviour β ω) (session : Session β ω) : Turn β → List (Round β)
  | .step .dispatch => session.logger.rounds behaviour 1
  | .step .shutdown =>
    if session.logger.isRunning then
      rounds behaviour session.logger.queue.length
        { session.logger with queue := session.logger.queue.close }
    else []
  | _ => []

/-- The dispatches of turns taken in order. -/
def roundsAfter (behaviour : Behaviour β ω) : Session β ω → List (Turn β) → List (Round β)
  | _, [] => []
  | session, turn :: rest =>
    session.roundsOf behaviour turn ++ roundsAfter behaviour (session.turn behaviour turn).1 rest

end Session

end Logger

namespace Logger

/-- From one to the other no dispatch began or ended. -/
structure Undispatched (before after : Logger β (Watched β ω)) : Prop where
  rosters_eq : History.rosters [] after.history = History.rosters [] before.history
  accepted : History.accepted before.history <+: History.accepted after.history
  consumed_eq : after.stats.consumed = before.stats.consumed

namespace Undispatched

variable {before logger after : Logger β (Watched β ω)}

theorem of_eq (hhistory : after.history = before.history)
    (hconsumed : after.stats.consumed = before.stats.consumed) : before.Undispatched after where
  rosters_eq := by rw [hhistory]
  accepted := hhistory ▸ List.prefix_rfl
  consumed_eq := hconsumed

theorem trans (hfirst : before.Undispatched logger) (hsecond : logger.Undispatched after) :
    before.Undispatched after where
  rosters_eq := hsecond.rosters_eq.trans hfirst.rosters_eq
  accepted := hfirst.accepted.trans hsecond.accepted
  consumed_eq := hsecond.consumed_eq.trans hfirst.consumed_eq

/-- Events among which no dispatch begins. -/
theorem of_append {events : List (Event β)} (hhistory : after.history = before.history ++ events)
    (hbegun : ∀ event ∈ events, event.isBegun = false)
    (hconsumed : after.stats.consumed = before.stats.consumed) : before.Undispatched after where
  rosters_eq := by
    rw [hhistory, History.rosters_append, History.rosters_eq_nil hbegun, List.append_nil]
  accepted := by
    rw [hhistory, History.accepted_append]
    exact List.prefix_append _ _
  consumed_eq := hconsumed

theorem of_extends (hextends : Extends before.history after)
    (hconsumed : after.stats.consumed = before.stats.consumed) : before.Undispatched after := by
  obtain ⟨events, hhistory, hquiet⟩ := hextends
  exact of_append hhistory (fun event hevent => (hquiet event hevent).1) hconsumed

theorem note (hundispatched : before.Undispatched logger) {event : Event β}
    (hbegun : event.isBegun = false) : before.Undispatched (logger.note event) := by
  have hnoted : logger.Undispatched (logger.note event) :=
    of_append rfl (List.forall_mem_singleton.mpr hbegun) rfl
  exact hundispatched.trans hnoted

theorem emitIn (hundispatched : before.Undispatched logger) (caller : Caller)
    (request : Request) :
    before.Undispatched ((logger.emitIn caller request).1.note
      (.emitted request (logger.emitIn caller request).2)) := by
  refine note (hundispatched.trans (of_eq ?_ ?_)) rfl
  · exact history_emitIn caller logger request
  · exact consumed_emitIn caller logger request

theorem keptBySinks (before : Logger β (Watched β ω)) :
    KeptBySinks fun logger => before.Undispatched logger where
  change _ _ hundispatched := { hundispatched with }
  emit _ request hundispatched := hundispatched.emitIn .task request
  register logger registration hundispatched := by
    have hregistered : before.Undispatched (logger.register registration).2 :=
      { hundispatched with }
    exact hregistered.note rfl

/-- Handing an entry over begins no other dispatch, whatever the sinks do. -/
theorem handed (logger : Logger β (Watched β ω)) (behaviour : Behaviour β ω) (entry : Entry)
    (sinks : List (Registration β)) :
    logger.Undispatched (logger.perform (fanOut behaviour.watched sinks entry)).1 :=
  (keptBySinks logger).fanOutFrom behaviour entry (fun _ _ hlogger => hlogger.note rfl) {} sinks
    (of_eq rfl rfl)

end Undispatched

/-! ## The counters of a run -/

/-- The counters of the consumer are those of its rounds, which were with the first requests
that were accepted, and with the sinks that were registered when they began. -/
structure Tallied (texts : StaticTexts) (limit : Nat) (history : List (Event β))
    (rounds : List (Round β)) (stats : Stats) : Prop where
  dispatched_eq : stats.dispatched = rounds.length
  dispatched_le : rounds.length ≤ (History.accepted history).length
  rosters_eq : rounds.map Round.sinks = History.rosters [] history
  fates : ∀ round ∈ rounds, round.fates.length = round.sinks.length ∧
    round.fates.count .skipped = round.sinks.countP Registration.isDetached
  tally : ∀ round ∈ rounds, round.tally = Tally.of round.fates ∧
    round.tally.delivered + round.tally.skipped + round.tally.panicked = round.sinks.length
  sinksSkipped_eq : stats.sinksSkipped =
    (rounds.map fun round => round.sinks.countP Registration.isDetached).sum
  sinkPanics_eq : stats.sinkPanics = (rounds.map fun round => round.fates.count .panicked).sum
  /-- Text arguments are found again if they are among the program's. -/
  truncated_eq :
    (∀ request ∈ (History.accepted history).take rounds.length,
      ∀ argument ∈ request.arguments, argument.IsStatic texts) →
    stats.truncated =
      ((History.accepted history).take rounds.length).countP (Request.overruns limit)

variable {texts : StaticTexts} {limit : Nat} {elsewhere : List Slot} {rounds : List (Round β)}

theorem tallied_nil : Tallied texts limit ([] : List (Event β)) [] {} where
  dispatched_eq := rfl
  dispatched_le := Nat.le_refl 0
  rosters_eq := rfl
  fates := List.forall_mem_nil _
  tally := List.forall_mem_nil _
  sinksSkipped_eq := rfl
  sinkPanics_eq := rfl
  truncated_eq _ := rfl

theorem Tallied.undispatched {before after : Logger β (Watched β ω)}
    (htallied : Tallied texts limit before.history rounds before.stats)
    (hundispatched : before.Undispatched after) :
    Tallied texts limit after.history rounds after.stats := by
  obtain ⟨more, haccepted⟩ := hundispatched.accepted
  have htake : (History.accepted after.history).take rounds.length =
      (History.accepted before.history).take rounds.length := by
    rw [← haccepted, List.take_append_of_le_length htallied.dispatched_le]
  obtain ⟨hdispatched, htruncated, hpanics, hskips⟩ :=
    (Stats.consumed_eq_iff _ _).mp hundispatched.consumed_eq
  refine
    { htallied with
      dispatched_eq := hdispatched.trans htallied.dispatched_eq
      dispatched_le := htallied.dispatched_le.trans hundispatched.accepted.length_le
      rosters_eq := htallied.rosters_eq.trans hundispatched.rosters_eq.symm
      sinksSkipped_eq := hskips.trans htallied.sinksSkipped_eq
      sinkPanics_eq := hpanics.trans htallied.sinkPanics_eq
      truncated_eq := ?_ }
  rw [htake]
  exact fun hstatic => htruncated.trans (htallied.truncated_eq hstatic)

/-- The text is cut off exactly if the whole of it does not fit. -/
theorem complete_rendered {logger : Logger β ω} {message : Message} {request : Request}
    (hcarries : message.Carries logger.arena request)
    (hstatic : ∀ argument ∈ request.arguments, argument.IsStatic logger.texts) (memory : Memory) :
    (logger.rendered memory message).complete =
      !request.overruns logger.config.formatBufferLength := by
  obtain ⟨records, hfeeds, hcaptured⟩ := hcarries.captured_eq
  have hcomplete := (isLongestCut_renderInto (Source.records logger.texts)
    (message.captured logger.arena) logger.config.formatBufferLength memory message.format).2
  rw [hcaptured, render_encodeAll hfeeds hstatic, ← hcaptured] at hcomplete
  rw [Bool.eq_iff_iff, Request.overruns, hcarries.format_eq]
  simp only [Bool.not_eq_true', decide_eq_false_iff_not, Nat.not_lt]
  exact hcomplete

/-- One more dispatch. -/
theorem Tallied.add {history later : List (Event β)} {stats after : Stats}
    (htallied : Tallied texts limit history rounds stats) {round : Round β} {request : Request}
    {complete : Bool}
    (hrosters : History.rosters [] later = History.rosters [] history ++ [round.sinks])
    (haccepted : History.accepted history <+: History.accepted later)
    (hconsumed : after.consumed = stats.consumed)
    (hrequest : (History.accepted history)[rounds.length]? = some request)
    (hcomplete : (∀ argument ∈ request.arguments, argument.IsStatic texts) →
      complete = !request.overruns limit)
    (hfates : round.fates.length = round.sinks.length ∧
      round.fates.count .skipped = round.sinks.countP Registration.isDetached)
    (htally : round.tally = Tally.of round.fates) :
    Tallied texts limit later (rounds ++ [round])
      (after.recordDispatched (!complete) round.tally.panicked round.tally.skipped) := by
  obtain ⟨hindex, -⟩ := List.getElem?_eq_some_iff.mp hrequest
  obtain ⟨more, hmore⟩ := haccepted
  have htake : (History.accepted later).take (rounds ++ [round]).length =
      (History.accepted history).take rounds.length ++ [request] := by
    rw [List.length_append, List.length_singleton, ← hmore,
      List.take_append_of_le_length hindex, List.take_add_one, hrequest, Option.toList_some]
  have hpanicked : round.tally.panicked = round.fates.count .panicked := by rw [htally]; rfl
  have hskipped : round.tally.skipped = round.sinks.countP Registration.isDetached := by
    rw [htally]
    exact hfates.2
  obtain ⟨hdispatched, htruncated, hpanics, hskips⟩ := (Stats.consumed_eq_iff _ _).mp hconsumed
  refine
    { dispatched_eq := ?_, dispatched_le := ?_, rosters_eq := ?_, fates := ?_, tally := ?_
      sinksSkipped_eq := ?_, sinkPanics_eq := ?_, truncated_eq := ?_ }
  · simp only [Stats.recordDispatched, hdispatched, htallied.dispatched_eq, List.length_append,
      List.length_singleton]
  · rw [List.length_append, List.length_singleton, ← hmore, List.length_append]
    exact Nat.le_trans hindex (Nat.le_add_right _ _)
  · rw [List.map_append, htallied.rosters_eq, hrosters, List.map_singleton]
  · exact List.forall_mem_append.mpr ⟨htallied.fates, List.forall_mem_singleton.mpr hfates⟩
  · refine List.forall_mem_append.mpr ⟨htallied.tally, List.forall_mem_singleton.mpr ⟨htally, ?_⟩⟩
    rw [htally, Tally.total_of, hfates.1]
  · simp only [Stats.recordDispatched, hskips, htallied.sinksSkipped_eq, hskipped,
      List.map_append, List.map_singleton, List.sum_append, List.sum_singleton]
  · simp only [Stats.recordDispatched, hpanics, htallied.sinkPanics_eq, hpanicked,
      List.map_append, List.map_singleton, List.sum_append, List.sum_singleton]
  · rw [htake]
    intro hstatic
    obtain ⟨hbefore, hlast⟩ := List.forall_mem_append.mp hstatic
    have hcut := hcomplete (List.forall_mem_singleton.mp hlast)
    simp only [Stats.recordDispatched, htruncated, htallied.truncated_eq hbefore, hcut,
      Bool.not_not, List.countP_append, List.countP_singleton]

variable {logger : Logger β (Watched β ω)}

/-- What a dispatch records is what became of the entry at each of the registered sinks. -/
theorem watchedDispatch_eq_finish (behaviour : Behaviour β ω) {snapshot : Snapshot β}
    {memory : Memory} {message : Message} {rest : List Message}
    (hconsumer : logger.consumer = .running snapshot memory)
    (hitems : logger.queue.items = message :: rest)
    (hreflects : logger.registry.Reflects snapshot) :
    let handling := (logger.note .begun).handling snapshot memory message rest
    let entry := logger.entryOf memory message
    let fates := handling.unwatched.fates behaviour entry logger.registry.sinks
    let handed := handling.perform (fanOut behaviour.watched logger.registry.sinks entry)
    logger.watchedDispatch behaviour =
      handed.1.finish message (logger.rendered memory message).complete (Tally.of fates) := by
  intro handling entry fates handed
  obtain ⟨-, hsinks⟩ := Registry.reflects_refresh hreflects
  have hplain : handling.unwatched.perform (fanOut behaviour logger.registry.sinks entry) =
      (handed.1.unwatched, handed.2) :=
    unwatched_fanOutFrom behaviour handling entry {} logger.registry.sinks
  have htally : handed.2 = some (Tally.of fates) :=
    (congrArg Prod.snd hplain).symm.trans (snd_perform_fanOut behaviour _ entry _)
  change _ = handed.1.finish message _ ((some (Tally.of fates)).getD {})
  rw [watchedDispatch_of_running behaviour hconsumer hitems, hsinks, ← htally]

theorem Retains.rosters_begun (hretains : logger.Retains texts limit elsewhere) :
    History.rosters [] (logger.note .begun).history =
      History.rosters [] logger.history ++ [logger.registry.sinks] := by
  rw [history_note, History.rosters_append, List.nil_append, ← hretains.registry_eq]
  rfl

theorem accepted_begun (logger : Logger β (Watched β ω)) :
    History.accepted (logger.note .begun).history = History.accepted logger.history := by
  rw [history_note, History.accepted_append]
  exact List.append_nil _

/-- As many dispatches began as were counted. -/
theorem Tallied.countP_begun (htallied : Tallied texts limit logger.history rounds logger.stats) :
    logger.history.countP Event.isBegun = rounds.length := by
  rw [← History.length_rosters [], ← htallied.rosters_eq, List.length_map]

/-- A dispatch adds its own round to what was counted. -/
theorem Tallied.dispatch
    (htallied : Tallied texts limit logger.history rounds logger.stats)
    (hretains : logger.Retains texts limit elsewhere) (behaviour : Behaviour β ω) :
    Tallied texts limit (logger.watchedDispatch behaviour).history
      (rounds ++ (logger.unwatched.round? behaviour).toList)
      (logger.watchedDispatch behaviour).stats := by
  by_cases hrunning : logger.isRunning ∧ ¬logger.queue.isEmpty
  · obtain ⟨snapshot, memory, message, rest, hconsumer, hitems⟩ := running_cases hrunning
    have hreflects := hretains.reflects snapshot memory hconsumer
    obtain ⟨-, request, hrequest, hcarries⟩ := hretains.handling hconsumer hitems
    let handling := (logger.note .begun).handling snapshot memory message rest
    have hhanded : handling.Undispatched _ :=
      .handed handling behaviour (logger.entryOf memory message) logger.registry.sinks
    have hrosters := hhanded.rosters_eq.trans hretains.rosters_begun
    have haccepted := hhanded.accepted
    rw [show History.accepted handling.history = _ from accepted_begun logger] at haccepted
    have hcomplete : (∀ argument ∈ request.arguments, argument.IsStatic texts) →
        (logger.rendered memory message).complete = !request.overruns limit := by
      rw [← hretains.texts_eq, ← hretains.limit_eq]
      exact fun hstatic => complete_rendered hcarries hstatic memory
    have hround : logger.unwatched.round? behaviour = some _ :=
      round?_of_running behaviour hconsumer hitems hreflects
    rw [htallied.countP_begun] at hrequest
    rw [hround, watchedDispatch_eq_finish behaviour hconsumer hitems hreflects]
    exact htallied.add hrosters haccepted hhanded.consumed_eq hrequest hcomplete
      ⟨length_fates _ _ _ _, count_skipped_fates _ _ _ _⟩ rfl
  · have hround : logger.unwatched.round? behaviour = none :=
      round?_of_not_running behaviour hrunning
    rw [watchedDispatch_of_not_running behaviour hrunning, hround, Option.toList_none,
      List.append_nil]
    exact htallied

theorem Tallied.dispatchMany
    (htallied : Tallied texts limit logger.history rounds logger.stats)
    (hretains : logger.Retains texts limit elsewhere) (behaviour : Behaviour β ω) (count : Nat) :
    Tallied texts limit (logger.watchedDispatchMany behaviour count).history
      (rounds ++ logger.unwatched.rounds behaviour count)
      (logger.watchedDispatchMany behaviour count).stats := by
  induction count generalizing logger rounds with
  | zero =>
    rw [Logger.rounds, List.append_nil]
    exact htallied
  | succ count ih =>
    have hnext := htallied.dispatch hretains behaviour
    rw [Logger.rounds, ← unwatched_dispatch, ← List.append_assoc]
    exact ih hnext (hretains.dispatch behaviour)

namespace Session

/-- The dispatches so far are those that were counted, and what was accepted since waits. -/
structure Counts (texts : StaticTexts) (limit : Nat) (rounds : List (Round β))
    (session : Session β (Watched β ω)) : Prop where
  preserves : session.Preserves texts limit
  tallied : Tallied texts limit session.logger.history rounds session.logger.stats

variable {session : Session β (Watched β ω)}

theorem roundsOf_dispatch (behaviour : Behaviour β ω) (session : Session β ω) :
    session.roundsOf behaviour (.step .dispatch) =
      (session.logger.round? behaviour).toList :=
  List.append_nil _

theorem roundsOf_shutdown (behaviour : Behaviour β ω) (session : Session β ω) :
    session.roundsOf behaviour (.step .shutdown) =
      if session.logger.isRunning then
        Logger.rounds behaviour session.logger.queue.length
          { session.logger with queue := session.logger.queue.close }
      else [] := rfl

theorem roundsOf_of_ne (behaviour : Behaviour β ω) (session : Session β ω) {turn : Turn β}
    (hdispatch : turn ≠ .step .dispatch) (hshutdown : turn ≠ .step .shutdown) :
    session.roundsOf behaviour turn = [] := by
  rw [roundsOf]
  · exact hdispatch
  · exact hshutdown

theorem tallied_shutdown (hcounts : session.Counts texts limit rounds)
    (behaviour : Behaviour β ω) :
    Tallied texts limit (session.logger.watchedShutdown behaviour).history
      (rounds ++ session.unwatched.roundsOf behaviour (.step .shutdown))
      (session.logger.watchedShutdown behaviour).stats := by
  have hretains := hcounts.preserves.retains
  have hwatched : session.unwatched.logger.isRunning = session.logger.isRunning := rfl
  rw [roundsOf_shutdown, hwatched]
  cases hconsumer : session.logger.consumer with
  | idle =>
    have hshutdown : session.logger.Undispatched (session.logger.watchedShutdown behaviour) := by
      simp only [watchedShutdown, hconsumer]
      exact .of_eq rfl rfl
    rw [if_neg (by simp [isRunning, hconsumer]), List.append_nil]
    exact hcounts.tallied.undispatched hshutdown
  | running snapshot memory =>
    have hclosed : Tallied texts limit
        (history { session.logger with queue := session.logger.queue.close }) rounds
        session.logger.stats := hcounts.tallied
    rw [if_pos (by simp [isRunning, hconsumer]), watchedShutdown_of_running behaviour hconsumer]
    exact hclosed.dispatchMany hretains.close behaviour session.logger.queue.length
  | stopped =>
    have hshutdown : session.logger.watchedShutdown behaviour = session.logger := by
      simp only [watchedShutdown, hconsumer]
    rw [if_neg (by simp [isRunning, hconsumer]), List.append_nil, hshutdown]
    exact hcounts.tallied

/-- The counters of the consumer grow by the rounds of a turn. -/
theorem counts_turn (hcounts : session.Counts texts limit rounds) (behaviour : Behaviour β ω)
    {turn : Turn β} (hturn : turn ≠ .step .pop) :
    (session.watchedTurn behaviour turn).Counts texts limit
      (rounds ++ session.unwatched.roundsOf behaviour turn) := by
  refine ⟨preserves_turn hcounts.preserves behaviour hturn, ?_⟩
  rcases eq_or_ne turn (.step .dispatch) with rfl | hdispatch
  · rw [roundsOf_dispatch]
    exact hcounts.tallied.dispatch hcounts.preserves.retains behaviour
  rcases eq_or_ne turn (.step .shutdown) with rfl | hshutdown
  · exact tallied_shutdown hcounts behaviour
  obtain ⟨hextends, hconsumed⟩ := quiet_turn behaviour session hdispatch hshutdown
  rw [roundsOf_of_ne behaviour _ hdispatch hshutdown, List.append_nil]
  exact hcounts.tallied.undispatched (.of_extends hextends hconsumed)

/-- Watched turns count what the turns that nobody watched do. -/
theorem counts_after (hcounts : session.Counts texts limit rounds) (behaviour : Behaviour β ω)
    {turns : List (Turn β)} (hturns : .step .pop ∉ turns) :
    (session.watchedAfter behaviour turns).Counts texts limit
      (rounds ++ session.unwatched.roundsAfter behaviour turns) := by
  induction turns generalizing session rounds with
  | nil =>
    rw [roundsAfter, List.append_nil]
    exact hcounts
  | cons turn rest ih =>
    rw [List.mem_cons, not_or] at hturns
    obtain ⟨hturn, hrest⟩ := hturns
    have hnext := ih (counts_turn hcounts behaviour (Ne.symm hturn)) hrest
    rw [unwatched_turn, List.append_assoc] at hnext
    exact hnext

end Session

/-- Whatever is emitted, in interrupt context or elsewhere, whatever is registered, dispatched
and shut down, and whatever sinks do: as long as users leave the queue alone, the counters of
the consumer are at every moment those of the dispatches there were. -/
theorem tallied_after {hostMemory : Nat} {world : ω} {config : Config} {logger : Logger β ω}
    (hcreate : create hostMemory texts world config = .ok logger) (behaviour : Behaviour β ω)
    {turns : List (Turn β)} (hturns : .step .pop ∉ turns) :
    let start : Session β ω := { logger }
    Tallied texts config.formatBufferLength (start.historyAfter behaviour turns)
      (start.roundsAfter behaviour turns) (start.after behaviour turns).logger.stats := by
  intro start
  have hpreserves := Session.preserves_of_create hcreate
  have hstart : start.logger.stats = {} := by
    obtain ⟨_, -, -, rfl⟩ := create_eq_ok hcreate
    rfl
  have htallied : Tallied texts config.formatBufferLength start.watched.logger.history []
      start.watched.logger.stats := by
    change Tallied texts config.formatBufferLength [] [] start.logger.stats
    rw [hstart]
    exact tallied_nil
  have hcounts := Session.counts_after ⟨hpreserves, htallied⟩ behaviour hturns
  have hunwatched := Session.unwatched_after behaviour start.watched turns
  have hstats : (start.after behaviour turns).logger.stats =
      (start.watched.watchedAfter behaviour turns).logger.stats :=
    congrArg (fun session => session.logger.stats) hunwatched.symm
  rw [hstats]
  exact hcounts.tallied

/-- The second of two texts is cut off.  It was emitted in interrupt context, and is handed to
one sink more than the first, to one that itself logs, in vain, when the queue is closed. -/
theorem tallied_after_late_sink :
    let config : Config :=
      { arenaCapacity := 128, formatBufferLength := 7, interruptLockAttempts := 2,
        policy := .slab 40 }
    let arena : Arena :=
      { capacity := 128, maxInFlight := 32, policy := .slab 40, freeSlots := [0, 1, 2] }
    let texts : StaticTexts := [⟨4096, "ab"⟩]
    let logger : Logger Bool Unit :=
      { config, arena, queue := { capacity := 32 }, texts, world := () }
    let request : Request := ⟨"net", "poll", .debug, some "%s été", [.str ⟨4096, "ab"⟩]⟩
    let behaviour : Behaviour Bool Unit := fun panics _ =>
      if panics then .panic else .emit request fun _ => .done ()
    let handler : Caller := ⟨.trying fun attempt => attempt == 1, .trying fun _ => false⟩
    let turns : List (Turn Bool) :=
      [.step (.register ⟨"panics", some true⟩), .step (.register ⟨"detached", none⟩),
        .step .start, .step (.emit ⟨"net", "poll", .error, some "%d%%", [.int (-3)]⟩),
        .emit handler request, .step .dispatch, .step (.register ⟨"logs", some false⟩),
        .step .shutdown]
    create 4096 texts () config = .ok logger ∧ .step .pop ∉ turns ∧
      Tallied texts 7 (Session.historyAfter behaviour { logger } turns)
        (Session.roundsAfter behaviour { logger } turns)
        (Session.after behaviour { logger } turns).logger.stats ∧
      (Session.roundsAfter behaviour { logger } turns).map Round.fates =
        [[.panicked, .skipped], [.panicked, .skipped, .delivered]] ∧
      (Session.after behaviour { logger } turns).logger.stats =
        { emitted := 2, dispatched := 2, droppedQueue := 1, truncated := 1, sinkPanics := 2,
          sinksSkipped := 2 } := by
  intro config arena texts logger request behaviour handler turns
  have hvalid : config.validate = .ok () := by
    simp [Config.validate, Config.positiveSettings, Message.headerSize, config]
  have harena : Arena.create 4096 config.arenaCapacity config.maxInFlight config.policy =
      .ok arena :=
    show Arena.create 4096 128 32 (.slab 40) = .ok arena from rfl
  have hcreate : create 4096 texts () config = .ok logger := by
    rw [create, hvalid, harena]
    rfl
  have hturns : .step .pop ∉ turns := by simp [turns]
  exact ⟨hcreate, hturns, tallied_after hcreate behaviour hturns, by decide +kernel,
    by decide +kernel⟩

end Logger

end LogRelay
