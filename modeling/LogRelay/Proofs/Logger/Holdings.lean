import LogRelay.Proofs.Logger.Steps
import LogRelay.Proofs.Message

/-!
# What all messages have in common

Messages are made by emits and by nothing else, and then only passed on: from the queue to a
user or the consumer, and back.  So what is true of every message that an emit can make is
true of all that are queued or in users' hands, whatever is done with a logger.
-/

namespace LogRelay

/-- The slot of a message has room for the header. -/
def Message.Headed (message : Message) : Prop :=
  Message.headerSize ≤ message.slot.length

namespace Logger

variable {β ω α : Type}

def Makes (P : Message → Prop) : Prop :=
  ∀ (took gave : Bool) (arena after : Arena) (ticks : UInt64) (request : Request)
    (format : String) (message : Message),
    Message.createIn took gave arena ticks request format = (after, .ok message) → P message

/-- The slot of a message is sized for its header and its records. -/
theorem makes_headed : Makes Message.Headed := by
  intro took gave arena after ticks request format message heq
  obtain ⟨slot, taken, hallocate, -, rfl, -⟩ := Message.createIn_eq_ok heq
  rw [Message.Headed, Arena.length_of_allocate (Arena.allocate_of_allocateIn hallocate)]
  exact Nat.le_add_right _ _

def Queues (P : Message → Prop) (logger : Logger β ω) : Prop :=
  ∀ message ∈ logger.queue.items, P message

variable {P : Message → Prop} {logger : Logger β ω}

namespace Queues

theorem emitIn (hmakes : Makes P) (hqueues : logger.Queues P) (caller : Caller)
    (request : Request) : (logger.emitIn caller request).1.Queues P := by
  rcases emitIn_cases caller logger request with
    ⟨format, arena, message, -, hcreate, -, -, hemit⟩ | ⟨arena, failure, -, hemit⟩
  · rw [hemit]
    intro other hother
    change other ∈ logger.queue.items ++ [message] at hother
    rw [List.mem_append, List.mem_singleton] at hother
    rcases hother with hqueued | rfl
    · exact hqueues other hqueued
    · exact hmakes _ _ _ _ _ _ _ _ hcreate
  · rw [hemit]
    exact hqueues

theorem perform (hmakes : Makes P) (hqueues : logger.Queues P) (act : Act β ω α) :
    (logger.perform act).1.Queues P := by
  induction act generalizing logger with
  | done result => exact hqueues
  | panic => exact hqueues
  | share change next ih =>
    apply ih
    exact hqueues
  | emit request next ih =>
    apply ih
    exact hqueues.emitIn hmakes .task request
  | register registration next ih =>
    apply ih
    exact hqueues

theorem dispatch (hmakes : Makes P) (hqueues : logger.Queues P) (behaviour : Behaviour β ω) :
    (logger.dispatch behaviour).Queues P := by
  by_cases hrunning : logger.isRunning ∧ ¬logger.queue.isEmpty
  · obtain ⟨snapshot, memory, message, rest, hconsumer, hitems⟩ := running_cases hrunning
    have hhandling : (logger.handling snapshot memory message rest).Queues P := by
      intro other hother
      apply hqueues
      rw [hitems]
      exact List.mem_cons_of_mem _ hother
    rw [dispatch_of_running behaviour hconsumer hitems]
    exact hhandling.perform hmakes _
  · rw [dispatch_of_not_running behaviour hrunning]
    exact hqueues

theorem dispatchMany (hmakes : Makes P) (hqueues : logger.Queues P) (behaviour : Behaviour β ω)
    (count : Nat) : (logger.dispatchMany behaviour count).Queues P := by
  induction count generalizing logger with
  | zero => exact hqueues
  | succ count ih => exact ih (hqueues.dispatch hmakes behaviour)

theorem shutdown (hmakes : Makes P) (hqueues : logger.Queues P) (behaviour : Behaviour β ω) :
    (logger.shutdown behaviour).Queues P := by
  have hclosed : Queues P { logger with queue := logger.queue.close } := hqueues
  rw [Logger.shutdown]
  split
  · exact List.forall_mem_nil _
  · exact hclosed.dispatchMany hmakes behaviour _
  · exact hqueues

end Queues

namespace Session

/-- All messages that are queued or in users' hands are of `P`. -/
structure Holds (P : Message → Prop) (session : Session β ω) : Prop where
  queued : session.logger.Queues P
  held : ∀ message ∈ session.messages.toList, P message

/-- A new logger has no messages. -/
theorem Holds.of_create {hostMemory : Nat} {texts : StaticTexts} {world : ω} {config : Config}
    (hcreate : create hostMemory texts world config = .ok logger) :
    Holds P ({ logger } : Session β ω) := by
  obtain ⟨arena, -, -, rfl⟩ := create_eq_ok hcreate
  exact ⟨List.forall_mem_nil _, List.forall_mem_nil _⟩

variable {session : Session β ω}

theorem Holds.get? (hholds : session.Holds P) {number : Nat} {message : Message}
    (heq : session.messages.get? number = some message) :
    P message ∧ ∀ other ∈ (session.messages.remove number).toList, P other := by
  have hperm := Numbered.toList_perm_of_get?_eq_some heq
  exact List.forall_mem_cons.mp fun other hother => hholds.held other (hperm.mem_iff.mpr hother)

/-- Messages come from emits alone, and all else passes them on. -/
theorem Holds.step (hmakes : Makes P) (hholds : session.Holds P) (behaviour : Behaviour β ω)
    (step : Step β) : (session.step behaviour step).1.Holds P := by
  obtain ⟨hqueued, hheld⟩ := hholds
  cases step with
  | register registration => exact ⟨hqueued, hheld⟩
  | start =>
    rcases step_start_cases behaviour session with ⟨-, hstart⟩ | ⟨-, hstart⟩
    · rw [hstart]
      exact ⟨hqueued, hheld⟩
    · rw [hstart]
      exact ⟨hqueued, hheld⟩
  | shutdown => exact ⟨hqueued.shutdown hmakes behaviour, hheld⟩
  | emit request =>
    rw [step_emit]
    exact ⟨hqueued.emitIn hmakes .task request, hheld⟩
  | dispatch => exact ⟨hqueued.dispatch hmakes behaviour, hheld⟩
  | pop =>
    rcases step_pop_cases behaviour session with ⟨-, hpop⟩ | ⟨message, rest, hitems, hpop⟩
    · rw [hpop]
      exact ⟨hqueued, hheld⟩
    · rw [hpop]
      rw [Queues, hitems, List.forall_mem_cons] at hqueued
      refine ⟨hqueued.2, ?_⟩
      rw [Numbered.toList_add]
      exact List.forall_mem_append.mpr ⟨hheld, List.forall_mem_singleton.mpr hqueued.1⟩
  | push number =>
    rcases step_push_cases behaviour session number with
      hpush | ⟨message, hget, ⟨-, hpush⟩ | ⟨cause, hpush⟩⟩
    · rw [hpush]
      exact ⟨hqueued, hheld⟩
    · obtain ⟨hmessage, hothers⟩ := Holds.get? ⟨hqueued, hheld⟩ hget
      rw [hpush]
      refine ⟨?_, hothers⟩
      exact List.forall_mem_append.mpr ⟨hqueued, List.forall_mem_singleton.mpr hmessage⟩
    · obtain ⟨hmessage, hothers⟩ := Holds.get? ⟨hqueued, hheld⟩ hget
      rw [hpush]
      refine ⟨hqueued, ?_⟩
      rw [Numbered.toList_add]
      exact List.forall_mem_append.mpr ⟨hothers, List.forall_mem_singleton.mpr hmessage⟩
  | drop number =>
    rcases step_drop_cases behaviour session number with hdrop | ⟨message, hget, hdrop⟩
    · rw [hdrop]
      exact ⟨hqueued, hheld⟩
    · rw [hdrop]
      exact ⟨hqueued, (Holds.get? ⟨hqueued, hheld⟩ hget).2⟩
  | arena step => exact ⟨hqueued, hheld⟩
  | describe => exact ⟨hqueued, hheld⟩
  | describeMessage number =>
    rw [step_describeMessage]
    exact ⟨hqueued, hheld⟩

theorem Holds.turn (hmakes : Makes P) (hholds : session.Holds P) (behaviour : Behaviour β ω)
    (turn : Turn β) : (session.turn behaviour turn).1.Holds P := by
  cases turn with
  | step step => exact hholds.step hmakes behaviour step
  | emit caller request =>
    rw [turn_emit]
    exact ⟨hholds.queued.emitIn hmakes caller request, hholds.held⟩
  | allocate access length =>
    rw [Session.turn]
    split
    · exact hholds
    · exact ⟨hholds.queued, hholds.held⟩
  | free access number =>
    rw [Session.turn]
    split
    · exact hholds
    · exact ⟨hholds.queued, hholds.held⟩

theorem Holds.after (hmakes : Makes P) (hholds : session.Holds P) (behaviour : Behaviour β ω)
    (turns : List (Turn β)) : (session.after behaviour turns).Holds P := by
  induction turns generalizing session with
  | nil => exact hholds
  | cons turn rest ih => exact ih (hholds.turn hmakes behaviour turn)

end Session

end Logger

end LogRelay
