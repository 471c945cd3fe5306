import LogRelay.Proofs.Logger.History

/-!
# Between dispatches

Sinks are handed something only when a dispatch or a shutdown does it, and only then the
consumer counts.  Whatever else is done, by tasks or in interrupt context, adds to the history
nothing but what users and sinks do on their own.
-/

namespace LogRelay

variable {β ω : Type}

namespace History

/-- Neither a dispatch begins nor is anything handed over. -/
def Quiet (events : List (Event β)) : Prop :=
  ∀ event ∈ events, event.isBegun = false ∧ event.isHanded = false

variable {events more : List (Event β)}

theorem Quiet.append (hevents : Quiet events) (hmore : Quiet more) : Quiet (events ++ more) :=
  List.forall_mem_append.mpr ⟨hevents, hmore⟩

end History

/-! ## Counters that only dispatches move -/

/-- The counters of the consumer. -/
def Stats.consumed (stats : Stats) : Stats :=
  { dispatched := stats.dispatched
    truncated := stats.truncated
    sinkPanics := stats.sinkPanics
    sinksSkipped := stats.sinksSkipped }

theorem Stats.consumed_eq_iff (stats others : Stats) :
    stats.consumed = others.consumed ↔
      stats.dispatched = others.dispatched ∧ stats.truncated = others.truncated ∧
        stats.sinkPanics = others.sinkPanics ∧ stats.sinksSkipped = others.sinksSkipped := by
  simp only [consumed, Stats.mk.injEq, true_and]

theorem Stats.consumed_recordFailure (stats : Stats) (failure : Failure) :
    (stats.recordFailure failure).consumed = stats.consumed := by
  cases failure with
  | resourceExhausted cause => cases cause <;> rfl
  | invalidArgument _ | transcription _ | setup _ => rfl

namespace Logger

theorem consumed_emitIn (caller : Caller) (logger : Logger β ω) (request : Request) :
    (logger.emitIn caller request).1.stats.consumed = logger.stats.consumed := by
  rcases emitIn_cases caller logger request with
    ⟨_, _, _, -, -, -, -, hemit⟩ | ⟨_, failure, -, hemit⟩
  · rw [hemit]
    rfl
  · rw [hemit]
    exact logger.stats.consumed_recordFailure failure

/-! ## What goes on besides -/

/-- The history goes on from `start` with nothing but what sinks do on their own. -/
def Extends (start : List (Event β)) (logger : Logger β (Watched β ω)) : Prop :=
  ∃ events, logger.history = start ++ events ∧ History.Quiet events

theorem Extends.note {start : List (Event β)} {logger : Logger β (Watched β ω)}
    (hextends : Extends start logger) {event : Event β}
    (hquiet : event.isBegun = false ∧ event.isHanded = false) :
    Extends start (logger.note event) := by
  obtain ⟨events, hhistory, hevents⟩ := hextends
  refine ⟨events ++ [event], ?_, hevents.append (List.forall_mem_singleton.mpr hquiet)⟩
  rw [history_note, hhistory, List.append_assoc]

theorem keptBySinks_extends (start : List (Event β)) :
    KeptBySinks fun logger : Logger β (Watched β ω) => Extends start logger where
  change _ _ hextends := hextends
  emit logger request hextends := by
    have hemit : Extends start (logger.emit request).1 := by
      rw [Extends, history_emit]
      exact hextends
    exact hemit.note ⟨rfl, rfl⟩
  register _ _ hextends := Extends.note hextends ⟨rfl, rfl⟩

theorem extends_of_eq {before after : Logger β (Watched β ω)}
    (hhistory : after.history = before.history) : Extends before.history after :=
  ⟨[], by rw [hhistory, List.append_nil], List.forall_mem_nil _⟩

/-- A turn that is neither a dispatch nor a shutdown hands nothing over, and the consumer
counts nothing. -/
theorem Session.quiet_turn (behaviour : Behaviour β ω) (session : Session β (Watched β ω))
    {turn : Turn β} (hdispatch : turn ≠ .step .dispatch) (hshutdown : turn ≠ .step .shutdown) :
    Extends session.logger.history (session.watchedTurn behaviour turn).logger ∧
      (session.watchedTurn behaviour turn).logger.stats.consumed =
        session.logger.stats.consumed := by
  have hsame : Extends session.logger.history session.logger := extends_of_eq rfl
  have hemit : ∀ caller request,
      Extends session.logger.history ((session.logger.emitIn caller request).1.note
        (.emitted request (session.logger.emitIn caller request).2)) := by
    intro caller request
    have hplaced := extends_of_eq (history_emitIn caller session.logger request)
    exact hplaced.note ⟨rfl, rfl⟩
  cases turn with
  | step step =>
    cases step with
    | register registration =>
      have hregistered : Extends session.logger.history
          (session.logger.register registration).2 := extends_of_eq rfl
      exact ⟨hregistered.note ⟨rfl, rfl⟩, rfl⟩
    | start =>
      rcases watchedStep_start_cases behaviour session with ⟨-, hstart⟩ | ⟨-, hstart⟩
      · rw [watchedTurn, hstart]
        exact ⟨hsame, rfl⟩
      · rw [watchedTurn, hstart]
        exact ⟨extends_of_eq rfl, rfl⟩
    | shutdown => exact absurd rfl hshutdown
    | emit request => exact ⟨hemit .task request, consumed_emitIn .task session.logger request⟩
    | dispatch => exact absurd rfl hdispatch
    | pop =>
      rcases watchedStep_pop_cases behaviour session with ⟨-, hpop⟩ | ⟨message, rest, -, hpop⟩
      · rw [watchedTurn, hpop]
        exact ⟨hsame, rfl⟩
      · have htaken : Extends session.logger.history (session.logger.requeue rest) :=
          extends_of_eq rfl
        rw [watchedTurn, hpop]
        exact ⟨htaken.note ⟨rfl, rfl⟩, rfl⟩
    | push number =>
      rcases watchedStep_push_cases behaviour session number with
        hpush | ⟨message, -, ⟨-, hpush⟩ | hpush⟩
      · rw [watchedTurn, hpush]
        exact ⟨hsame, rfl⟩
      · have hback : Extends session.logger.history
            (session.logger.requeue (session.logger.queue.items ++ [message])) :=
          extends_of_eq rfl
        rw [watchedTurn, hpush]
        exact ⟨hback.note ⟨rfl, rfl⟩, rfl⟩
      · rw [watchedTurn, hpush]
        exact ⟨hsame, rfl⟩
    | drop number =>
      rcases watchedStep_drop_cases behaviour session number with hdrop | ⟨_, -, hdrop⟩
      · rw [watchedTurn, hdrop]
        exact ⟨hsame, rfl⟩
      · rw [watchedTurn, hdrop]
        exact ⟨extends_of_eq rfl, rfl⟩
    | arena step => exact ⟨extends_of_eq rfl, rfl⟩
    | describe => exact ⟨hsame, rfl⟩
    | describeMessage number =>
      rw [watchedTurn, watchedStep_describeMessage]
      exact ⟨hsame, rfl⟩
  | emit caller request =>
    exact ⟨hemit caller request, consumed_emitIn caller session.logger request⟩
  | allocate access length =>
    rw [watchedTurn, turn_allocate]
    exact ⟨extends_of_eq rfl, rfl⟩
  | free access number =>
    rw [watchedTurn, turn_free]
    exact ⟨extends_of_eq rfl, rfl⟩

end Logger

end LogRelay
