import LogRelay.Proofs.Logger.History
import Mathlib.Data.List.Induction

/-!
# What a shutdown leaves

A shutdown closes the queue and sees to it that what is queued is dispatched, or discarded
where no consumer runs.  Nothing that is done afterwards, by tasks, by sinks or in interrupt
context, gets the logger going again, and nothing but a shutdown stops it.
-/

namespace LogRelay

variable {β ω : Type}

namespace Logger

variable {logger : Logger β (Watched β ω)}

/-! ## While a consumer runs -/

theorem keptBySinks_running :
    KeptBySinks fun logger : Logger β (Watched β ω) => logger.isRunning = true where
  change _ _ hrunning := hrunning
  emit logger request hrunning := by
    obtain ⟨arena, queue, clock, stats, hemit⟩ := exists_emit logger request
    rw [hemit]
    exact hrunning
  register _ _ hrunning := hrunning

/-- Nothing that sinks emit gets into a closed queue. -/
theorem keptBySinks_closed {queue : Queue Message} (hclosed : queue.closed = true) :
    KeptBySinks fun logger : Logger β (Watched β ω) => logger.queue = queue where
  change _ _ hqueue := hqueue
  emit logger request hqueue := by
    rcases emit_cases logger request with ⟨_, _, _, -, -, hopen, -, -⟩ | ⟨_, _, -, hemit⟩
    · rw [hqueue, hclosed] at hopen
      exact absurd hopen (by simp)
    · rw [hemit]
      exact hqueue
  register _ _ hqueue := hqueue

theorem consumer_ne_stopped {logger : Logger β ω} (hrunning : logger.isRunning = true) :
    logger.consumer ≠ .stopped := by
  intro hstopped
  rw [isRunning, hstopped] at hrunning
  exact absurd hrunning (by simp)

theorem isRunning_watchedDispatch (hrunning : logger.isRunning = true)
    (behaviour : Behaviour β ω) : (logger.watchedDispatch behaviour).isRunning = true := by
  rcases watchedDispatch_cases behaviour logger with
    ⟨-, hnothing⟩ | ⟨snapshot, memory, message, rest, -, -, complete, tally, hdispatch⟩
  · rw [hnothing]
    exact hrunning
  · rw [hdispatch]
    exact keptBySinks_running.fanOutFrom behaviour _ (fun _ _ hlogger => hlogger) {} _ rfl

/-- Once the queue is closed, sinks cannot add to it, and a dispatch takes its head away. -/
theorem queue_watchedDispatch (hrunning : logger.isRunning = true)
    (hclosed : logger.queue.closed = true) (behaviour : Behaviour β ω) :
    (logger.watchedDispatch behaviour).queue =
      { logger.queue with items := logger.queue.items.tail } := by
  rcases watchedDispatch_cases behaviour logger with
    ⟨hempty, hnothing⟩ | ⟨snapshot, memory, message, rest, -, hitems, complete, tally, hdispatch⟩
  · rw [hnothing, hempty hrunning, List.tail_nil, ← hempty hrunning]
  · have hrest : ({ logger.queue with items := rest } : Queue Message).closed = true := hclosed
    rw [hdispatch, hitems]
    exact (keptBySinks_closed hrest).fanOutFrom behaviour _ (fun _ _ hlogger => hlogger) {} _ rfl

/-- With its queue closed a running consumer is done after as many dispatches as there
are messages. -/
theorem queue_watchedDispatchMany (hrunning : logger.isRunning = true)
    (hclosed : logger.queue.closed = true) (behaviour : Behaviour β ω) (count : Nat) :
    (logger.watchedDispatchMany behaviour count).queue =
      { logger.queue with items := logger.queue.items.drop count } := by
  induction count generalizing logger with
  | zero => rfl
  | succ count ih =>
    have hqueue := queue_watchedDispatch hrunning hclosed behaviour
    have hstill := isRunning_watchedDispatch hrunning behaviour
    rw [watchedDispatchMany, ih hstill (by rw [hqueue]; exact hclosed), hqueue, List.drop_tail]

/-! ## A logger that is shut down -/

/-- A logger that is shut down has nothing queued and takes nothing more. -/
structure Stopped (logger : Logger β ω) : Prop where
  consumer_eq : logger.consumer = .stopped
  closed : logger.queue.closed = true
  items_eq : logger.queue.items = []

/-- A shutdown leaves a stopped logger, in whatever way it empties the queue. -/
theorem stopped_watchedShutdown (hstopped : logger.consumer = .stopped → logger.Stopped)
    (behaviour : Behaviour β ω) : (logger.watchedShutdown behaviour).Stopped := by
  rw [watchedShutdown]
  split
  · exact ⟨rfl, rfl, rfl⟩
  · next hconsumer =>
    have hrunning : isRunning { logger with queue := logger.queue.close } = true := by
      simp only [isRunning, hconsumer]
    have hqueue := queue_watchedDispatchMany hrunning rfl behaviour logger.queue.length
    rw [show logger.queue.close.items = logger.queue.items from rfl, Queue.length,
      List.drop_length] at hqueue
    exact ⟨rfl, congrArg Queue.closed hqueue, congrArg Queue.items hqueue⟩
  · next hconsumer => exact hstopped hconsumer

theorem Stopped.emitIn (hstopped : logger.Stopped) (caller : Caller) (request : Request) :
    (logger.emitIn caller request).1.Stopped := by
  rcases emitIn_cases caller logger request with
    ⟨_, _, _, -, -, hopen, -, -⟩ | ⟨_, _, -, hemit⟩
  · exact absurd (hopen.symm.trans hstopped.closed) (by simp)
  · rw [hemit]
    exact ⟨hstopped.consumer_eq, hstopped.closed, hstopped.items_eq⟩

theorem Stopped.dispatch (hstopped : logger.Stopped) (behaviour : Behaviour β ω) :
    logger.watchedDispatch behaviour = logger := by
  rcases watchedDispatch_cases behaviour logger with
    ⟨-, hnothing⟩ | ⟨snapshot, memory, message, rest, -, hitems, -⟩
  · exact hnothing
  · exact absurd (hstopped.items_eq.symm.trans hitems) (by simp)

end Logger

namespace Logger.Session

variable {session : Session β (Watched β ω)}

/-- Nothing starts a logger again that was shut down. -/
theorem stopped_step (hstopped : session.logger.Stopped) (behaviour : Behaviour β ω)
    (step : Step β) : (session.watchedStep behaviour step).logger.Stopped := by
  have ⟨hconsumer, hclosed, hitems⟩ := hstopped
  cases step with
  | register _ | arena _ | describe => exact ⟨hconsumer, hclosed, hitems⟩
  | start =>
    rcases watchedStep_start_cases behaviour session with ⟨-, hstep⟩ | ⟨hidle, -⟩
    · rw [hstep]
      exact hstopped
    · exact absurd (hidle.symm.trans hconsumer) (by simp)
  | shutdown => exact stopped_watchedShutdown (fun _ => hstopped) behaviour
  | emit request =>
    obtain ⟨hconsumer, hclosed, hitems⟩ := hstopped.emitIn .task request
    exact ⟨hconsumer, hclosed, hitems⟩
  | dispatch =>
    rw [watchedStep, hstopped.dispatch behaviour]
    exact hstopped
  | pop =>
    rcases watchedStep_pop_cases behaviour session with ⟨-, hstep⟩ | ⟨_, _, hqueued, -⟩
    · rw [hstep]
      exact hstopped
    · exact absurd (hitems.symm.trans hqueued) (by simp)
  | push number =>
    rcases watchedStep_push_cases behaviour session number with
      hstep | ⟨_, -, ⟨hopen, -⟩ | hstep⟩
    · rw [hstep]
      exact hstopped
    · exact absurd (hopen.symm.trans hclosed) (by simp)
    · rw [hstep]
      exact hstopped
  | drop number =>
    rcases watchedStep_drop_cases behaviour session number with hstep | ⟨_, -, hstep⟩
    · rw [hstep]
      exact hstopped
    · rw [hstep]
      exact ⟨hconsumer, hclosed, hitems⟩
  | describeMessage number =>
    rw [watchedStep_describeMessage]
    exact hstopped

theorem not_stopped_step (hconsumer : session.logger.consumer ≠ .stopped)
    (behaviour : Behaviour β ω) {step : Step β} (hstep : step ≠ .shutdown) :
    (session.watchedStep behaviour step).logger.consumer ≠ .stopped := by
  cases step with
  | register _ | arena _ | describe => exact hconsumer
  | shutdown => exact absurd rfl hstep
  | start =>
    rcases watchedStep_start_cases behaviour session with ⟨-, hstart⟩ | ⟨-, hstart⟩
    · rw [hstart]
      exact hconsumer
    · rw [hstart]
      simp
  | emit request =>
    obtain ⟨arena, queue, clock, stats, hemit⟩ := exists_emit session.logger request
    simp only [watchedStep, hemit]
    exact hconsumer
  | dispatch =>
    rcases watchedDispatch_cases behaviour session.logger with
      ⟨-, hnothing⟩ | ⟨_, _, _, _, hrunning, -⟩
    · rw [watchedStep, hnothing]
      exact hconsumer
    · have hstill := isRunning_watchedDispatch (by rw [isRunning, hrunning]) behaviour
      exact consumer_ne_stopped hstill
  | pop =>
    rcases watchedStep_pop_cases behaviour session with ⟨-, hpop⟩ | ⟨_, _, -, hpop⟩
    · rw [hpop]
      exact hconsumer
    · rw [hpop]
      exact hconsumer
  | push number =>
    rcases watchedStep_push_cases behaviour session number with
      hpush | ⟨_, -, ⟨-, hpush⟩ | hpush⟩
    · rw [hpush]
      exact hconsumer
    · rw [hpush]
      exact hconsumer
    · rw [hpush]
      exact hconsumer
  | drop number =>
    rcases watchedStep_drop_cases behaviour session number with hdrop | ⟨_, -, hdrop⟩
    · rw [hdrop]
      exact hconsumer
    · rw [hdrop]
      exact hconsumer
  | describeMessage number =>
    rw [watchedStep_describeMessage]
    exact hconsumer

/-- Nothing gets a logger that is shut down going again. -/
theorem stopped_turn (hstopped : session.logger.Stopped) (behaviour : Behaviour β ω)
    (turn : Turn β) : (session.watchedTurn behaviour turn).logger.Stopped := by
  cases turn with
  | step step => exact stopped_step hstopped behaviour step
  | emit caller request =>
    obtain ⟨hconsumer, hclosed, hitems⟩ := hstopped.emitIn caller request
    exact ⟨hconsumer, hclosed, hitems⟩
  | allocate access length =>
    rw [watchedTurn, turn_allocate]
    exact ⟨hstopped.consumer_eq, hstopped.closed, hstopped.items_eq⟩
  | free access number =>
    rw [watchedTurn, turn_free]
    exact ⟨hstopped.consumer_eq, hstopped.closed, hstopped.items_eq⟩

/-- Nothing but a shutdown stops a logger. -/
theorem not_stopped_turn (hconsumer : session.logger.consumer ≠ .stopped)
    (behaviour : Behaviour β ω) {turn : Turn β} (hturn : turn ≠ .step .shutdown) :
    (session.watchedTurn behaviour turn).logger.consumer ≠ .stopped := by
  cases turn with
  | step step =>
    have hstep : step ≠ .shutdown := fun heq => hturn (congrArg Turn.step heq)
    exact not_stopped_step hconsumer behaviour hstep
  | emit caller request =>
    obtain ⟨arena, queue, clock, stats, hemit⟩ := exists_emitIn caller session.logger request
    simp only [watchedTurn, hemit]
    exact hconsumer
  | allocate access length =>
    rw [watchedTurn, turn_allocate]
    exact hconsumer
  | free access number =>
    rw [watchedTurn, turn_free]
    exact hconsumer

/-- A logger is stopped from its first shutdown on, and not before. -/
theorem stopped_after (hconsumer : session.logger.consumer ≠ .stopped)
    (behaviour : Behaviour β ω) (turns : List (Turn β)) :
    (.step .shutdown ∈ turns → (session.watchedAfter behaviour turns).logger.Stopped) ∧
      (.step .shutdown ∉ turns →
        (session.watchedAfter behaviour turns).logger.consumer ≠ .stopped) := by
  induction turns using List.reverseRecOn with
  | nil => exact ⟨fun hmem => absurd hmem (by simp), fun _ => hconsumer⟩
  | append_singleton turns turn ih =>
    obtain ⟨hafter, hbefore⟩ := ih
    rw [watchedAfter_concat, List.mem_append, List.mem_singleton]
    constructor
    · rintro (hmem | rfl)
      · exact stopped_turn (hafter hmem) behaviour turn
      · apply stopped_watchedShutdown
        intro hstopped
        by_cases hmem : Turn.step Step.shutdown ∈ turns
        · exact hafter hmem
        · exact absurd hstopped (hbefore hmem)
    · intro hmem
      rw [not_or] at hmem
      exact not_stopped_turn (hbefore hmem.1) behaviour (Ne.symm hmem.2)

theorem stopped_unwatched (hstopped : session.logger.Stopped) :
    session.unwatched.logger.Stopped :=
  ⟨hstopped.consumer_eq, hstopped.closed, hstopped.items_eq⟩

end Logger.Session

end LogRelay
