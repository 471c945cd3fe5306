import LogRelay.Proofs.Logger.Accounting
import LogRelay.Proofs.Logger.Delivery

/-!
# The life of a logger

A logger is started at most once and shut down for good.  What its shutdown does with the
messages still queued depends on whether it was started: the consumer dispatches them in their
order, and without one they are discarded.  From then on nothing is queued, counted as
accepted, dispatched or discarded, or handed to a sink.
-/

namespace LogRelay

variable {β ω α : Type}

namespace Logger

/-! ## Phases -/

inductive Phase where
  | fresh
  | started
  | ended
  deriving Repr, DecidableEq

/-- What a step makes of a phase. -/
def Phase.next (phase : Phase) : Step β → Phase
  | .start => if phase = .fresh then .started else phase
  | .shutdown => .ended
  | .register _ | .emit _ | .dispatch | .pop | .push _ | .drop _ | .arena _ | .describe
  | .describeMessage _ => phase

def phase (logger : Logger β ω) : Phase :=
  match logger.consumer with
  | .idle => .fresh
  | .running _ _ => .started
  | .stopped => .ended

theorem phase_eq_fresh_iff (logger : Logger β ω) :
    logger.phase = .fresh ↔ logger.consumer = .idle := by
  cases hconsumer : logger.consumer with
  | idle | running _ _ | stopped => simp [phase, hconsumer]

theorem running_of_phase {logger : Logger β ω} (hphase : logger.phase = .started) :
    ∃ snapshot memory, logger.consumer = .running snapshot memory := by
  cases hconsumer : logger.consumer with
  | running snapshot memory => exact ⟨snapshot, memory, rfl⟩
  | idle | stopped => exact absurd hphase (by simp [phase, hconsumer])

theorem phase_emitIn (caller : Caller) (logger : Logger β ω) (request : Request) :
    (logger.emitIn caller request).1.phase = logger.phase := by
  obtain ⟨arena, queue, clock, stats, hemit⟩ := exists_emitIn caller logger request
  rw [hemit]
  rfl

theorem phase_perform (logger : Logger β ω) (act : Act β ω α) :
    (logger.perform act).1.phase = logger.phase := by
  induction act generalizing logger with
  | done result => rfl
  | panic => rfl
  | share change next ih => exact ih _ _
  | emit request next ih => exact (ih _ _).trans (phase_emitIn .task logger request)
  | register registration next ih => exact ih _ _

theorem phase_dispatch (behaviour : Behaviour β ω) (logger : Logger β ω) :
    (logger.dispatch behaviour).phase = logger.phase := by
  by_cases hrunning : logger.isRunning ∧ ¬logger.queue.isEmpty
  · obtain ⟨snapshot, memory, message, rest, hconsumer, hitems⟩ := running_cases hrunning
    have hstarted : logger.phase = .started := by rw [phase, hconsumer]
    rw [dispatch_of_running behaviour hconsumer hitems, hstarted]
    exact phase_perform (logger.handling snapshot memory message rest) _
  · rw [dispatch_of_not_running behaviour hrunning]

theorem phase_shutdown (behaviour : Behaviour β ω) (logger : Logger β ω) :
    (logger.shutdown behaviour).phase = .ended := by
  cases hconsumer : logger.consumer with
  | idle | running _ _ | stopped => simp only [shutdown, phase, hconsumer]

/-- Only a logger that was neither started nor shut down can be started. -/
theorem exists_start_iff (logger : Logger β ω) :
    (∃ started, logger.start = .ok started) ↔ logger.phase = .fresh := by
  cases hconsumer : logger.consumer with
  | idle | running _ _ | stopped => simp [start, phase, hconsumer]

namespace Session

/-- Nothing but a start and a shutdown changes the phase. -/
theorem phase_step (behaviour : Behaviour β ω) (session : Session β ω) (step : Step β) :
    (session.step behaviour step).1.logger.phase = session.logger.phase.next step := by
  cases step with
  | register _ | arena _ | describe => rfl
  | start =>
    rcases step_start_cases behaviour session with ⟨hconsumer, hstart⟩ | ⟨hconsumer, hstart⟩
    · rw [hstart, Phase.next, if_neg (mt (phase_eq_fresh_iff _).mp hconsumer)]
    · rw [hstart, Phase.next, if_pos ((phase_eq_fresh_iff _).mpr hconsumer)]
      rfl
  | shutdown => exact phase_shutdown behaviour session.logger
  | emit request =>
    rw [step_emit]
    exact phase_emitIn .task session.logger request
  | dispatch => exact phase_dispatch behaviour session.logger
  | pop =>
    rcases step_pop_cases behaviour session with ⟨-, hpop⟩ | ⟨_, _, -, hpop⟩
    · rw [hpop]
      rfl
    · rw [hpop]
      rfl
  | push number =>
    rcases step_push_cases behaviour session number with
      hpush | ⟨_, -, ⟨-, hpush⟩ | ⟨_, hpush⟩⟩
    · rw [hpush]
      rfl
    · rw [hpush]
      rfl
    · rw [hpush]
      rfl
  | drop number =>
    rcases step_drop_cases behaviour session number with hdrop | ⟨_, -, hdrop⟩
    · rw [hdrop]
      rfl
    · rw [hdrop]
      rfl
  | describeMessage number =>
    rw [step_describeMessage]
    rfl

theorem run_concat (behaviour : Behaviour β ω) (session : Session β ω) (steps : List (Step β))
    (step : Step β) :
    session.run behaviour (steps ++ [step]) =
      ((session.run behaviour steps).step behaviour step).1 := by
  rw [run, List.foldl_append]
  rfl

/-- One of the steps is a start that succeeds. -/
def Started (behaviour : Behaviour β ω) (session : Session β ω) (steps : List (Step β)) : Prop :=
  ∃ early, early ++ [.start] <+: steps ∧
    ∃ started, (session.run behaviour early).logger.start = .ok started

theorem started_concat (behaviour : Behaviour β ω) (session : Session β ω)
    (steps : List (Step β)) (step : Step β) :
    session.Started behaviour (steps ++ [step]) ↔
      step = .start ∧ (session.run behaviour steps).logger.phase = .fresh ∨
        session.Started behaviour steps := by
  constructor
  · rintro ⟨early, hprefix, hstart⟩
    rcases List.prefix_concat_iff.mp hprefix with hlast | hearlier
    · obtain ⟨rfl, hstep⟩ := List.append_inj' hlast rfl
      exact Or.inl ⟨(List.cons.inj hstep).1.symm, (exists_start_iff _).mp hstart⟩
    · exact Or.inr ⟨early, hearlier, hstart⟩
  · rintro (⟨rfl, hfresh⟩ | ⟨early, hprefix, hstart⟩)
    · exact ⟨steps, List.prefix_rfl, (exists_start_iff _).mpr hfresh⟩
    · exact ⟨early, hprefix.trans (List.prefix_append _ _), hstart⟩

variable {session : Session β ω}

/-- The phase says whether there was a shutdown, and if not, whether a start succeeded. -/
theorem phase_run (hfresh : session.logger.phase = .fresh) (behaviour : Behaviour β ω)
    (steps : List (Step β)) :
    (.shutdown ∈ steps → (session.run behaviour steps).logger.phase = .ended) ∧
      (.shutdown ∉ steps → session.Started behaviour steps →
        (session.run behaviour steps).logger.phase = .started) ∧
      (.shutdown ∉ steps → ¬session.Started behaviour steps →
        (session.run behaviour steps).logger.phase = .fresh) := by
  induction steps using List.reverseRecOn with
  | nil =>
    refine ⟨fun hmem => absurd hmem (by simp), fun _ => ?_, fun _ _ => hfresh⟩
    rintro ⟨early, hprefix, -⟩
    exact absurd (List.prefix_nil.mp hprefix) (by simp)
  | append_singleton steps step ih =>
    obtain ⟨hended, hstarted, hfresh⟩ := ih
    rw [run_concat, phase_step, started_concat, List.mem_append, List.mem_singleton]
    refine ⟨?_, ?_, ?_⟩
    · rintro (hmem | rfl)
      · rw [hended hmem]
        cases step <;> rfl
      · rfl
    · intro hmem hstart
      rw [not_or] at hmem
      obtain ⟨hearlier, hstep⟩ := hmem
      rcases hstart with ⟨rfl, hnow⟩ | hbefore
      · rw [hnow]
        rfl
      · rw [hstarted hearlier hbefore]
        cases step with
        | shutdown => exact absurd rfl hstep
        | start | register _ | emit _ | dispatch | pop | push _ | drop _ | arena _ | describe
        | describeMessage _ => rfl
    · intro hmem hstart
      rw [not_or] at hmem hstart
      obtain ⟨hearlier, hstep⟩ := hmem
      have hbefore := hfresh hearlier hstart.2
      cases step with
      | shutdown => exact absurd rfl hstep
      | start => exact absurd ⟨rfl, hbefore⟩ hstart.1
      | register _ | emit _ | dispatch | pop | push _ | drop _ | arena _ | describe
      | describeMessage _ => exact hbefore

end Session

/-! ## What goes by once the queue is closed -/

/-- The events that happen from one moment to another, when nothing is accepted and nothing
discarded. -/
structure Passes (before after : Logger β (Watched β ω)) (events : List (Event β)) : Prop where
  emitted_eq : after.stats.emitted = before.stats.emitted
  discarded_eq : after.stats.discarded = before.stats.discarded
  dispatched_eq :
    after.stats.dispatched = before.stats.dispatched + events.countP Event.isBegun
  history_eq : after.history = before.history ++ events

theorem Passes.refl (logger : Logger β (Watched β ω)) : logger.Passes logger [] :=
  ⟨rfl, rfl, rfl, (List.append_nil _).symm⟩

theorem Passes.trans {before middle after : Logger β (Watched β ω)} {events more : List (Event β)}
    (hfirst : before.Passes middle events) (hsecond : middle.Passes after more) :
    before.Passes after (events ++ more) where
  emitted_eq := hsecond.emitted_eq.trans hfirst.emitted_eq
  discarded_eq := hsecond.discarded_eq.trans hfirst.discarded_eq
  dispatched_eq := by
    rw [hsecond.dispatched_eq, hfirst.dispatched_eq, List.countP_append, Nat.add_assoc]
  history_eq := by rw [hsecond.history_eq, hfirst.history_eq, List.append_assoc]

variable {logger : Logger β (Watched β ω)} {events : List (Event β)}

/-- What sinks emit while the queue is closed is neither accepted nor discarded. -/
theorem keptBySinks_counts (emitted dispatched discarded : Nat) :
    KeptBySinks fun logger : Logger β (Watched β ω) => logger.queue.closed = true ∧
      logger.stats.emitted = emitted ∧ logger.stats.dispatched = dispatched ∧
      logger.stats.discarded = discarded where
  change _ _ hcounts := hcounts
  emit logger request hcounts := by
    obtain ⟨hclosed, hemitted, hdispatched, hdiscarded⟩ := hcounts
    rcases emit_cases logger request with ⟨_, _, _, -, -, hopen, -, -⟩ | ⟨_, failure, -, hemit⟩
    · exact absurd (hopen.symm.trans hclosed) (by simp)
    · obtain ⟨hsame, hcount, hkept⟩ := logger.stats.recordFailure_kept failure
      rw [hemit]
      exact ⟨hclosed, hsame.trans hemitted, hcount.trans hdispatched, hkept.trans hdiscarded⟩
  register _ _ hcounts := hcounts

/-- A dispatch takes the head of a closed queue, whatever its sinks try to add. -/
theorem passes_watchedDispatch (hrunning : logger.isRunning = true)
    (hclosed : logger.queue.closed = true) (hitems : logger.queue.items ≠ [])
    (behaviour : Behaviour β ω) :
    ∃ events, logger.Passes (logger.watchedDispatch behaviour) events ∧
      events.countP Event.isBegun = 1 := by
  rcases watchedDispatch_cases behaviour logger with
    ⟨hempty, -⟩ | ⟨snapshot, memory, message, rest, -, -, complete, tally, hdispatch⟩
  · exact absurd (hempty hrunning) hitems
  · obtain ⟨others, hhistory, hbegun, -⟩ := history_fanOutFrom behaviour
      ((logger.note .begun).handling snapshot memory message rest) (logger.entryOf memory message)
      {} (logger.registry.refresh snapshot).1.sinks
    have hhandling : ((logger.note .begun).handling snapshot memory message rest).queue.closed =
        true := hclosed
    obtain ⟨-, hemitted, hdispatched, hdiscarded⟩ :=
      (keptBySinks_counts _ _ _).fanOutFrom behaviour (logger.entryOf memory message)
        (fun _ _ hlogger => hlogger) {} (logger.registry.refresh snapshot).1.sinks
        ⟨hhandling, rfl, rfl, rfl⟩
    have hcount : (Event.begun :: others).countP Event.isBegun = 1 := by
      have hnone : others.countP Event.isBegun = 0 := by
        rw [List.countP_eq_zero]
        exact fun event hevent => by simp [hbegun event hevent]
      rw [List.countP_cons, hnone]
      rfl
    refine ⟨.begun :: others, ?_, hcount⟩
    rw [hdispatch]
    refine ⟨hemitted, hdiscarded, ?_, ?_⟩
    · rw [hcount]
      exact congrArg (· + 1) hdispatched
    · refine hhistory.trans ?_
      rw [history_handling, history_note, List.append_assoc]
      rfl

/-- With its queue closed a running consumer dispatches what is queued, and no more. -/
theorem passes_watchedDispatchMany (hrunning : logger.isRunning = true)
    (hclosed : logger.queue.closed = true) (behaviour : Behaviour β ω) {count : Nat}
    (hcount : count ≤ logger.queue.length) :
    ∃ events, logger.Passes (logger.watchedDispatchMany behaviour count) events ∧
      events.countP Event.isBegun = count := by
  induction count generalizing logger with
  | zero => exact ⟨[], Passes.refl logger, rfl⟩
  | succ count ih =>
    have hitems : logger.queue.items ≠ [] :=
      List.ne_nil_of_length_pos (Nat.lt_of_lt_of_le (Nat.succ_pos count) hcount)
    have hqueue := queue_watchedDispatch hrunning hclosed behaviour
    have hstill := isRunning_watchedDispatch hrunning behaviour
    obtain ⟨events, hfirst, hone⟩ := passes_watchedDispatch hrunning hclosed hitems behaviour
    obtain ⟨more, hrest, hothers⟩ := ih hstill (by rw [hqueue]; exact hclosed) (by
      rw [hqueue, Queue.length, List.length_tail]
      exact Nat.le_sub_one_of_lt hcount)
    refine ⟨events ++ more, hfirst.trans hrest, ?_⟩
    rw [List.countP_append, hone, hothers, Nat.add_comm]

theorem passes_watchedShutdown {snapshot : Snapshot β} {memory : Memory}
    (hconsumer : logger.consumer = .running snapshot memory) (behaviour : Behaviour β ω) :
    ∃ events, logger.Passes (logger.watchedShutdown behaviour) events ∧
      events.countP Event.isBegun = logger.queue.length := by
  have hrunning : isRunning { logger with queue := logger.queue.close } = true := by
    simp only [isRunning, hconsumer]
  obtain ⟨events, hpasses, hcount⟩ :=
    passes_watchedDispatchMany hrunning rfl behaviour (Nat.le_refl logger.queue.length)
  refine ⟨events, ?_, hcount⟩
  rw [watchedShutdown_of_running behaviour hconsumer]
  exact { hpasses with }

/-! ## Dispatches in the order of the queue -/

/-- The dispatches among the events are those of the messages, in order: each reports the
request that its message carries to the sinks registered by then. -/
def InOrder (texts : StaticTexts) (limit : Nat) (history : List (Event β)) (arena : Arena)
    (items : List Message) (events : List (Event β)) : Prop :=
  ∀ index message, items[index]? = some message →
    ∃ early rest, events = early ++ .begun :: rest ∧ early.countP Event.isBegun = index ∧
      ∃ request entry, message.Carries arena request ∧ entry.Reports texts limit request ∧
        History.handedNext rest =
          (History.attached (history ++ early)).map fun sink => (sink, entry)

theorem exists_begun_of_lt {index : Nat} (hindex : index < events.countP Event.isBegun) :
    ∃ early rest, events = early ++ .begun :: rest ∧ early.countP Event.isBegun = index := by
  induction events generalizing index with
  | nil => exact absurd hindex (Nat.not_lt_zero index)
  | cons event events ih =>
    by_cases hevent : event.isBegun = true
    · cases index with
      | zero =>
        cases event with
        | begun => exact ⟨[], events, rfl, rfl⟩
        | registered _ | emitted _ _ | handed _ _ | taken | returned =>
          exact absurd hevent (by simp [Event.isBegun])
      | succ index =>
        rw [List.countP_cons_of_pos hevent] at hindex
        obtain ⟨early, rest, rfl, hcount⟩ := ih (Nat.lt_of_succ_lt_succ hindex)
        exact ⟨event :: early, rest, rfl, by rw [List.countP_cons_of_pos hevent, hcount]⟩
    · rw [List.countP_cons_of_neg hevent] at hindex
      obtain ⟨early, rest, rfl, hcount⟩ := ih hindex
      exact ⟨event :: early, rest, rfl, by rw [List.countP_cons_of_neg hevent, hcount]⟩

/-- What waits at the shutdown is what is dispatched in it. -/
theorem inOrder_of_delivered {texts : StaticTexts} {limit : Nat} {history : List (Event β)}
    {arena : Arena} {items : List Message} (hwaiting : Waiting arena items history)
    (hdelivered : Delivered texts limit (history ++ events))
    (hcount : events.countP Event.isBegun = items.length) :
    InOrder texts limit history arena items events := by
  intro index message hmessage
  obtain ⟨hlt, hget⟩ := List.getElem?_eq_some_iff.mp hmessage
  obtain ⟨past, present, haccepted, hpast, hcarries⟩ := hwaiting
  have hpresent : index < present.length := hcarries.length_eq ▸ hlt
  obtain ⟨early, rest, rfl, hindex⟩ := exists_begun_of_lt (hcount ▸ hlt)
  obtain ⟨request, entry, hrequest, hreports, hhanded⟩ :=
    hdelivered.dispatch (history ++ early) rest (List.append_assoc _ _ _).symm
  refine ⟨early, rest, rfl, hindex, request, entry, ?_, hreports, hhanded⟩
  -- The requests whose dispatch began before are the past ones and `index` of the present.
  rw [History.accepted_append, haccepted, List.countP_append, ← hpast, hindex,
    List.append_assoc, List.getElem?_append_right (Nat.le_add_right _ _), Nat.add_sub_cancel_left,
    List.getElem?_append_left hpresent, List.getElem?_eq_getElem hpresent] at hrequest
  have hpair := hcarries.get hlt hpresent
  rw [List.get_eq_getElem, List.get_eq_getElem, hget, Option.some.inj hrequest] at hpair
  exact hpair

/-! ## After the end -/

/-- The counters stay, and no sink is called. -/
def Silent (before after : Logger β (Watched β ω)) : Prop :=
  ∃ events, before.Passes after events ∧ History.Quiet events

theorem silent_of_eq {before after : Logger β (Watched β ω)} (hstats : after.stats = before.stats)
    (hhistory : after.history = before.history) : before.Silent after := by
  refine ⟨[], ⟨?_, ?_, ?_, ?_⟩, List.forall_mem_nil _⟩
  · rw [hstats]
  · rw [hstats]
  · rw [hstats]
    rfl
  · rw [hhistory, List.append_nil]

theorem Silent.trans {before middle after : Logger β (Watched β ω)}
    (hfirst : before.Silent middle) (hsecond : middle.Silent after) : before.Silent after := by
  obtain ⟨events, hpasses, hquiet⟩ := hfirst
  obtain ⟨more, hrest, hsilent⟩ := hsecond
  exact ⟨events ++ more, hpasses.trans hrest, hquiet.append hsilent⟩

theorem silent_note (logger : Logger β (Watched β ω)) {event : Event β}
    (hbegun : event.isBegun = false) (hhanded : event.isHanded = false) :
    logger.Silent (logger.note event) := by
  refine ⟨[event], ⟨rfl, rfl, ?_, rfl⟩, List.forall_mem_singleton.mpr ⟨hbegun, hhanded⟩⟩
  rw [stats_note, List.countP_singleton, hbegun]
  rfl

/-- An emit to a closed queue is refused, for whatever cause, and calls nobody. -/
theorem Stopped.silent_emit (hstopped : logger.Stopped) (request : Request) :
    logger.Silent ((logger.emit request).1.note (.emitted request (logger.emit request).2)) := by
  rcases emit_cases logger request with ⟨_, _, _, -, -, hopen, -, -⟩ | ⟨_, failure, -, hemit⟩
  · exact absurd (hopen.symm.trans hstopped.closed) (by simp)
  · obtain ⟨hemitted, hdispatched, hdiscarded⟩ := logger.stats.recordFailure_kept failure
    have hrefused : logger.Silent (logger.emit request).1 := by
      rw [hemit]
      exact ⟨[], ⟨hemitted, hdiscarded, hdispatched, (List.append_nil _).symm⟩,
        List.forall_mem_nil _⟩
    exact hrefused.trans (silent_note _ rfl rfl)

namespace Session

/-- Whatever is done with a logger that is shut down, nobody hears of it. -/
theorem silent_step {session : Session β (Watched β ω)} (hstopped : session.logger.Stopped)
    (behaviour : Behaviour β ω) (step : Step β) :
    session.logger.Silent (session.watchedStep behaviour step).logger := by
  cases step with
  | register registration =>
    have hregistered : session.logger.Silent (session.logger.register registration).2 :=
      silent_of_eq rfl rfl
    exact hregistered.trans (silent_note _ rfl rfl)
  | start =>
    rcases watchedStep_start_cases behaviour session with ⟨-, hstep⟩ | ⟨hidle, -⟩
    · rw [hstep]
      exact silent_of_eq rfl rfl
    · exact absurd (hidle.symm.trans hstopped.consumer_eq) (by simp)
  | shutdown =>
    have hsame : session.logger.watchedShutdown behaviour = session.logger := by
      simp only [watchedShutdown, hstopped.consumer_eq]
    rw [watchedStep, hsame]
    exact silent_of_eq rfl rfl
  | emit request => exact hstopped.silent_emit request
  | dispatch =>
    rw [watchedStep, hstopped.dispatch behaviour]
    exact silent_of_eq rfl rfl
  | pop =>
    rcases watchedStep_pop_cases behaviour session with ⟨-, hstep⟩ | ⟨_, _, hqueued, -⟩
    · rw [hstep]
      exact silent_of_eq rfl rfl
    · exact absurd (hstopped.items_eq.symm.trans hqueued) (by simp)
  | push number =>
    rcases watchedStep_push_cases behaviour session number with
      hstep | ⟨_, -, ⟨hopen, -⟩ | hstep⟩
    · rw [hstep]
      exact silent_of_eq rfl rfl
    · exact absurd (hopen.symm.trans hstopped.closed) (by simp)
    · rw [hstep]
      exact silent_of_eq rfl rfl
  | drop number =>
    rcases watchedStep_drop_cases behaviour session number with hstep | ⟨_, -, hstep⟩
    · rw [hstep]
      exact silent_of_eq rfl rfl
    · rw [hstep]
      exact silent_of_eq rfl rfl
  | arena _ => exact silent_of_eq rfl rfl
  | describe => exact silent_of_eq rfl rfl
  | describeMessage number =>
    rw [watchedStep_describeMessage]
    exact silent_of_eq rfl rfl

theorem silent_run {session : Session β (Watched β ω)} (hstopped : session.logger.Stopped)
    (behaviour : Behaviour β ω) (steps : List (Step β)) :
    session.logger.Silent (session.watchedRun behaviour steps).logger := by
  induction steps generalizing session with
  | nil => exact silent_of_eq rfl rfl
  | cons step rest ih =>
    have hnext := stopped_step hstopped behaviour step
    exact (silent_step hstopped behaviour step).trans (ih hnext)

theorem delivers_run {texts : StaticTexts} {limit : Nat} {session : Session β (Watched β ω)}
    (hdelivers : session.Delivers texts limit) (behaviour : Behaviour β ω)
    {steps : List (Step β)} (hsteps : .pop ∉ steps) :
    (session.watchedRun behaviour steps).Delivers texts limit := by
  have hturns : Turn.step .pop ∉ steps.map Turn.step := by simpa using hsteps
  rw [← watchedAfter_map_step]
  exact delivers_after hdelivers behaviour hturns

/-- A logger that was shut down during the run is stopped. -/
theorem stopped_run {session : Session β (Watched β ω)}
    (hconsumer : session.logger.consumer ≠ .stopped) (behaviour : Behaviour β ω)
    {steps : List (Step β)} (hshutdown : .shutdown ∈ steps) :
    (session.watchedRun behaviour steps).logger.Stopped := by
  rw [← watchedAfter_map_step]
  exact (stopped_after hconsumer behaviour _).1 (List.mem_map_of_mem hshutdown)

theorem accounts_run {session : Session β ω}
    (haccounts : session.logger.arena.Accounts session.owned) (behaviour : Behaviour β ω)
    (steps : List (Step β)) :
    (session.run behaviour steps).logger.arena.Accounts (session.run behaviour steps).owned := by
  induction steps generalizing session with
  | nil => exact haccounts
  | cons step rest ih => exact ih (accounts_step haccounts behaviour step)

/-! ## The whole life -/

variable (behaviour : Behaviour β ω) (session : Session β ω) (steps : List (Step β))

/-- What a shutdown does after the steps, when a consumer runs. -/
structure Drains (texts : StaticTexts) (limit : Nat) : Prop where
  dispatched_eq : (session.run behaviour (steps ++ [.shutdown])).logger.stats.dispatched =
    (session.run behaviour steps).logger.stats.dispatched +
      (session.run behaviour steps).logger.queue.length
  discarded_eq : (session.run behaviour (steps ++ [.shutdown])).logger.stats.discarded =
    (session.run behaviour steps).logger.stats.discarded
  events : ∃ events, session.historyOf behaviour (steps ++ [.shutdown]) =
      session.historyOf behaviour steps ++ events ∧
    events.countP Event.isBegun = (session.run behaviour steps).logger.queue.length ∧
    (.pop ∉ steps → InOrder texts limit (session.historyOf behaviour steps)
      (session.run behaviour steps).logger.arena (session.run behaviour steps).logger.queue.items
      events)

/-- What a shutdown does after the steps, when no consumer was ever started. -/
structure Discards : Prop where
  stats_eq : (session.run behaviour (steps ++ [.shutdown])).logger.stats =
    (session.run behaviour steps).logger.stats.recordDiscarded
      (session.run behaviour steps).logger.queue.length
  history_eq : session.historyOf behaviour (steps ++ [.shutdown]) =
    session.historyOf behaviour steps

/-- What holds after the steps, when a shutdown is among them. -/
structure Over : Prop where
  items_eq : (session.run behaviour steps).logger.queue.items = []
  closed : (session.run behaviour steps).logger.queue.closed = true
  refuses : ∀ caller request, ∃ failure,
    ((session.run behaviour steps).logger.emitIn caller request).2 = .error failure
  /-- Users have all slots that are out. -/
  live_eq : (session.run behaviour steps).logger.arena.live =
    (session.run behaviour steps).messages.toList.length +
      (session.run behaviour steps).slots.toList.length
  shutdown_eq : session.run behaviour (steps ++ [.shutdown]) = session.run behaviour steps
  counts : ∀ more : List (Step β),
    let later := (session.run behaviour (steps ++ more)).logger.stats
    let now := (session.run behaviour steps).logger.stats
    later.emitted = now.emitted ∧ later.dispatched = now.dispatched ∧
      later.discarded = now.discarded
  /-- No dispatch begins, and no sink is handed anything. -/
  quiet : ∀ more : List (Step β), ∃ events,
    session.historyOf behaviour (steps ++ more) = session.historyOf behaviour steps ++ events ∧
      History.Quiet events

/-- What can be said of a logger after any steps. -/
structure Lifecycle (texts : StaticTexts) (limit : Nat) : Prop where
  start_iff : (∃ started, (session.run behaviour steps).logger.start = .ok started) ↔
    ¬session.Started behaviour steps ∧ .shutdown ∉ steps
  drains : session.Started behaviour steps → .shutdown ∉ steps →
    session.Drains behaviour steps texts limit
  discards : ¬session.Started behaviour steps → .shutdown ∉ steps →
    session.Discards behaviour steps
  ended : .shutdown ∈ steps → session.Over behaviour steps

variable {behaviour : Behaviour β ω} {session : Session β ω} {steps : List (Step β)}

theorem run_eq_unwatched (behaviour : Behaviour β ω) (session : Session β ω)
    (steps : List (Step β)) :
    session.run behaviour steps = (session.watched.watchedRun behaviour steps).unwatched :=
  (unwatched_run behaviour session.watched steps).symm

theorem drains_of_started {texts : StaticTexts} {limit : Nat}
    (hdelivers : session.watched.Delivers texts limit)
    (hphase : (session.run behaviour steps).logger.phase = .started) :
    session.Drains behaviour steps texts limit := by
  rw [run_eq_unwatched] at hphase
  obtain ⟨snapshot, memory, hrunning⟩ := running_of_phase hphase
  have hconsumer : (session.watched.watchedRun behaviour steps).logger.consumer =
      .running snapshot memory := hrunning
  obtain ⟨events, hpasses, hcount⟩ := passes_watchedShutdown hconsumer behaviour
  have hhistory : session.historyOf behaviour (steps ++ [.shutdown]) =
      session.historyOf behaviour steps ++ events := by
    rw [historyOf, watchedRun_concat]
    exact hpasses.history_eq
  have hqueue : (session.run behaviour steps).logger.queue.length =
      (session.watched.watchedRun behaviour steps).logger.queue.length := by
    rw [run_eq_unwatched]
    rfl
  refine ⟨?_, ?_, events, hhistory, hcount.trans hqueue.symm, fun hsteps => ?_⟩
  · rw [hqueue, ← hcount, run_eq_unwatched, run_eq_unwatched, watchedRun_concat]
    exact hpasses.dispatched_eq
  · rw [run_eq_unwatched, run_eq_unwatched, watchedRun_concat]
    exact hpasses.discarded_eq
  · have hpreserves := (delivers_run hdelivers behaviour hsteps).preserves
    have hwaiting := hpreserves.retains.waiting (by
      rw [hconsumer]
      simp)
    have hlast : .pop ∉ steps ++ [.shutdown] := by simpa using hsteps
    have hdelivered := (delivers_run hdelivers behaviour hlast).delivered
    rw [← historyOf, hhistory] at hdelivered
    rw [run_eq_unwatched]
    exact inOrder_of_delivered hwaiting hdelivered hcount

theorem discards_of_fresh (hphase : (session.run behaviour steps).logger.phase = .fresh) :
    session.Discards behaviour steps := by
  rw [run_eq_unwatched] at hphase
  have hconsumer : (session.watched.watchedRun behaviour steps).logger.consumer = .idle :=
    (phase_eq_fresh_iff _).mp hphase
  constructor
  · rw [run_eq_unwatched, run_eq_unwatched, watchedRun_concat]
    simp only [watchedStep, watchedShutdown, hconsumer]
    rfl
  · rw [historyOf, watchedRun_concat]
    simp only [watchedStep, watchedShutdown, hconsumer]
    rfl

theorem over_of_stopped (haccounts : session.logger.arena.Accounts session.owned)
    (hwatched : (session.watched.watchedRun behaviour steps).logger.Stopped) :
    session.Over behaviour steps := by
  have hstopped : (session.run behaviour steps).logger.Stopped := by
    rw [run_eq_unwatched]
    exact stopped_unwatched hwatched
  have hlater : ∀ more, session.watched.watchedRun behaviour (steps ++ more) =
      (session.watched.watchedRun behaviour steps).watchedRun behaviour more :=
    fun more => List.foldl_append
  refine ⟨hstopped.items_eq, hstopped.closed, ?_, ?_, ?_, ?_, ?_⟩
  · intro caller request
    rcases emitIn_cases caller (session.run behaviour steps).logger request with
      ⟨_, _, _, -, -, hopen, -, -⟩ | ⟨_, failure, -, hemit⟩
    · exact absurd (hopen.symm.trans hstopped.closed) (by simp)
    · exact ⟨failure, congrArg Prod.snd hemit⟩
  · have hlive := (settled_of_accounts (accounts_run haccounts behaviour steps)).live_eq
    rw [Queue.length, hstopped.items_eq, List.length_nil, Nat.zero_add] at hlive
    exact hlive
  · rw [run_concat]
    simp only [step, shutdown, hstopped.consumer_eq]
  · intro more later now
    obtain ⟨events, hpasses, hquiet⟩ := silent_run hwatched behaviour more
    have hnone : events.countP Event.isBegun = 0 := by
      rw [List.countP_eq_zero]
      exact fun event hevent => by simp [(hquiet event hevent).1]
    have hdispatched := hpasses.dispatched_eq
    rw [hnone, Nat.add_zero] at hdispatched
    simp only [later, now, run_eq_unwatched, hlater]
    exact ⟨hpasses.emitted_eq, hdispatched, hpasses.discarded_eq⟩
  · intro more
    obtain ⟨events, hpasses, hquiet⟩ := silent_run hwatched behaviour more
    refine ⟨events, ?_, hquiet⟩
    rw [historyOf, hlater]
    exact hpasses.history_eq

end Session

/-- Whatever is done with a logger: it can be started until it was started or shut down.  Its
first shutdown dispatches what is queued if it was started and discards it if not, and
nothing that is done after it has an effect on what was logged. -/
theorem lifecycle_run {hostMemory : Nat} {texts : StaticTexts} {world : ω} {config : Config}
    {logger : Logger β ω} (hcreate : create hostMemory texts world config = .ok logger)
    (behaviour : Behaviour β ω) (steps : List (Step β)) :
    Session.Lifecycle behaviour { logger } steps texts config.formatBufferLength := by
  have hpreserves := Session.preserves_of_create hcreate
  obtain ⟨arena, -, harena, rfl⟩ := create_eq_ok hcreate
  let start : Session β ω :=
    { logger := { config, arena, queue := { capacity := config.queueCapacity }, texts, world } }
  have haccounts : start.logger.arena.Accounts start.owned := Arena.accounts_of_create harena
  have hidle : start.watched.logger.consumer ≠ .stopped := by
    change Consumer.idle ≠ .stopped
    simp
  have hfresh : start.logger.phase = .fresh := rfl
  obtain ⟨hended, hstarted, hunstarted⟩ := Session.phase_run hfresh behaviour steps
  constructor
  · rw [exists_start_iff]
    by_cases hshutdown : .shutdown ∈ steps
    · rw [hended hshutdown]
      simp [hshutdown]
    · by_cases hstart : start.Started behaviour steps
      · rw [hstarted hshutdown hstart]
        simp [start, hstart]
      · rw [hunstarted hshutdown hstart]
        simp [start, hstart, hshutdown]
  · intro hstart hshutdown
    have hdelivers : start.watched.Delivers texts config.formatBufferLength :=
      ⟨hpreserves, delivered_nil⟩
    exact Session.drains_of_started hdelivers (hstarted hshutdown hstart)
  · intro hstart hshutdown
    exact Session.discards_of_fresh (hunstarted hshutdown hstart)
  · intro hshutdown
    exact Session.over_of_stopped haccounts (Session.stopped_run hidle behaviour hshutdown)

/-- Three messages wait for the consumer, and the sink answers each of them.  The answer to the
first is queued, those that come during the shutdown are refused, and so is everything after. -/
theorem lifecycle_run_answering_sink :
    let config : Config := { arenaCapacity := 128, policy := .slab 32 }
    let arena : Arena :=
      { capacity := 128, maxInFlight := 32, policy := .slab 32, freeSlots := [0, 1, 2, 3] }
    let logger : Logger Unit Unit :=
      { config, arena, queue := { capacity := 32 }, texts := [], world := () }
    let request : Request := ⟨"net", "poll", .error, some "down", []⟩
    let behaviour : Behaviour Unit Unit := fun _ _ => .emit request fun _ => .done ()
    let before : List (Step Unit) :=
      [.register ⟨"answers", some ()⟩, .emit request, .emit request, .start, .emit request,
        .start, .dispatch]
    let after : List (Step Unit) :=
      [.emit request, .dispatch, .register ⟨"late", some ()⟩, .start, .shutdown]
    let start : Session Unit Unit := { logger }
    create 4096 [] () config = .ok logger ∧
      start.Lifecycle behaviour before [] 256 ∧
      start.Lifecycle behaviour (before ++ [.shutdown] ++ after) [] 256 ∧
      (start.run behaviour before).logger.queue.length = 3 ∧
      (start.run behaviour (before ++ [.shutdown] ++ after)).logger.stats =
        { emitted := 4, dispatched := 4, droppedQueue := 4 } := by
  intro config arena logger request behaviour before after start
  have hvalid : config.validate = .ok () := by
    simp [Config.validate, Config.positiveSettings, Message.headerSize, config]
  have harena : Arena.create 4096 config.arenaCapacity config.maxInFlight config.policy =
      .ok arena :=
    show Arena.create 4096 128 32 (.slab 32) = .ok arena from rfl
  have hcreate : create 4096 [] () config = .ok logger := by
    rw [create, hvalid, harena]
    rfl
  have hbefore := lifecycle_run hcreate behaviour before
  have hafter := lifecycle_run hcreate behaviour (before ++ [.shutdown] ++ after)
  exact ⟨hcreate, hbefore, hafter, by decide +kernel, by decide +kernel⟩

end Logger

end LogRelay
