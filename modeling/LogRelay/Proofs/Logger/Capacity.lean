import LogRelay.Proofs.Arena.Bump
import LogRelay.Proofs.Logger.Atomicity

/-!
# What a bump logger loses

Messages leave the queue in the order in which they came, while the bump policy takes bytes
back only from the end.  So the slot of a message whose successors are queued is stranded when
it goes back, and that of the only message is not.  In the order of their acceptance the
stranded messages and the queued ones lie one behind the other from the beginning of the region
up to the cursor, which makes their sizes add up to the bytes in use.
-/

namespace LogRelay

variable {β ω α : Type}

namespace Message

def total (messages : List Message) : Nat :=
  (messages.map fun message => sizeFor message.format).sum

@[simp]
theorem total_nil : total [] = 0 := rfl

@[simp]
theorem total_cons (message : Message) (rest : List Message) :
    total (message :: rest) = sizeFor message.format + total rest := rfl

@[simp]
theorem total_append (before behind : List Message) :
    total (before ++ behind) = total before + total behind := by
  rw [total, List.map_append, List.sum_append_nat]
  rfl

theorem sizeFor_pos (format : String) : 0 < sizeFor format :=
  Nat.lt_of_lt_of_le (by decide) (Nat.le_add_right headerSize _)

/-- What is set aside for the message is what it takes. -/
structure Fits (message : Message) : Prop where
  length_eq : message.slot.length = sizeFor message.format
  reserved_eq : message.slot.reserved = message.slot.length

/-- The slot of a message as one in a row, where numbers are of no account. -/
def lot (message : Message) : Arena.Lot :=
  ⟨0, message.slot⟩

theorem total_map_lot {messages : List Message} (hfits : ∀ message ∈ messages, message.Fits) :
    Arena.Lot.total (messages.map lot) = total messages := by
  induction messages with
  | nil => rfl
  | cons message rest ih =>
    obtain ⟨hmessage, hrest⟩ := List.forall_mem_cons.mp hfits
    rw [List.map_cons, Arena.Lot.total_cons, ih hrest, total_cons, lot, hmessage.length_eq]

/-- The stranded messages after the slot of one more went back, with those `behind` it still
queued. -/
def strand (stranded : List Message) (message : Message) (behind : List Message) :
    List Message :=
  if behind.isEmpty then stranded else stranded ++ [message]

/-- The stranded messages after the slots of all that is queued went back, the oldest first. -/
def strandAll (stranded : List Message) : List Message → List Message
  | [] => stranded
  | message :: behind => strandAll (strand stranded message behind) behind

theorem total_strand (stranded : List Message) (message : Message) (behind : List Message) :
    total (strand stranded message behind) =
      total stranded + if behind.isEmpty then 0 else sizeFor message.format := by
  rw [strand]
  split
  · rfl
  · rw [total_append, total_cons, total_nil, Nat.add_zero]

theorem prefix_strand (stranded : List Message) (message : Message) (behind : List Message) :
    stranded <+: strand stranded message behind := by
  rw [strand]
  split
  · exact List.prefix_rfl
  · exact List.prefix_append _ _

theorem prefix_strandAll (stranded items : List Message) :
    stranded <+: strandAll stranded items := by
  induction items generalizing stranded with
  | nil => exact List.prefix_rfl
  | cons message behind ih => exact (prefix_strand stranded message behind).trans (ih _)

end Message

/-! ## Messages in a row -/

namespace Arena

/-- The stranded messages and then those that are out lie one behind the other, from the
beginning of the region up to the cursor. -/
structure InRow (arena : Arena) (stranded out : List Message) : Prop where
  policy_eq : arena.policy = .bump
  live_eq : arena.live = out.length
  fits : ∀ message ∈ stranded ++ out, message.Fits
  cursor_le : arena.cursor ≤ arena.capacity
  tiles : Tiles 0 ((stranded ++ out).map Message.lot) arena.cursor

namespace InRow

variable {arena after : Arena} {stranded out behind : List Message} {message : Message}

theorem policy_ne (hrow : arena.InRow stranded out) : arena.policy ≠ .slab 0 := by
  rw [hrow.policy_eq]
  simp

/-- The cursor stands behind all messages in the row. -/
theorem usedBytes_eq (hrow : arena.InRow stranded out) :
    arena.usedBytes = Message.total out + Message.total stranded := by
  calc
    arena.usedBytes = arena.cursor := by rw [usedBytes, hrow.policy_eq]
    _ = Lot.total ((stranded ++ out).map Message.lot) := by
      rw [hrow.tiles.limit_eq, Nat.zero_add]
    _ = Message.total out + Message.total stranded := by
      rw [Message.total_map_lot hrow.fits, Message.total_append, Nat.add_comm]

/-- No byte of a stranded message is in a message that is out. -/
theorem not_covers (hrow : arena.InRow stranded out) {lost : Message} (hlost : lost ∈ stranded)
    (hmessage : message ∈ out) (position : Nat) :
    ¬(lost.slot.Covers position ∧ message.slot.Covers position) := by
  have htiles := hrow.tiles
  rw [List.map_append, Tiles.append_iff] at htiles
  obtain ⟨middle, hbefore, hbehind⟩ := htiles
  obtain ⟨-, hlimit⟩ := hbefore.within (List.mem_map_of_mem hlost)
  obtain ⟨hstart, -⟩ := hbehind.within (List.mem_map_of_mem hmessage)
  simp only [Message.lot, Slot.Covers] at hlimit hstart ⊢
  omega

/-! ## What operations keep -/

/-- The row is one of what is set aside, whatever is stored there. -/
theorem alike (hrow : arena.InRow stranded out) (halike : arena.SetAsideAlike after) :
    after.InRow stranded out := by
  rw [halike]
  exact { hrow with }

/-- A message is accepted behind all others. -/
theorem createIn {took gave : Bool} {ticks : UInt64} {request : Request} {format : String}
    (hrow : arena.InRow stranded out)
    (heq : Message.createIn took gave arena ticks request format = (after, .ok message)) :
    after.InRow stranded (out ++ [message]) := by
  obtain ⟨slot, taken, hallocate, -, rfl, rfl⟩ := Message.createIn_eq_ok heq
  obtain ⟨-, cursor, freeSlots, hplace, rfl⟩ := allocate_eq_ok (allocate_of_allocateIn hallocate)
  obtain ⟨hroom, rfl, rfl, rfl⟩ := place_bump_eq_ok hrow.policy_eq hplace
  have hcursor := hrow.cursor_le
  refine ⟨hrow.policy_eq, ?_, ?_, ?_, ?_⟩
  · rw [List.length_append, ← hrow.live_eq]
    rfl
  · rw [← List.append_assoc]
    exact List.forall_mem_append.mpr ⟨hrow.fits, List.forall_mem_singleton.mpr ⟨rfl, rfl⟩⟩
  · change arena.cursor + Message.sizeFor format ≤ arena.capacity
    omega
  · rw [← List.append_assoc, List.map_append, Tiles.append_iff]
    exact ⟨arena.cursor, hrow.tiles, rfl, rfl⟩

/-- Behind the oldest message that is out lie the others. -/
theorem split (hrow : arena.InRow stranded (message :: behind)) :
    Tiles 0 (stranded.map Message.lot) message.slot.offset ∧
      arena.cursor = message.slot.limit + Message.total behind := by
  obtain ⟨hmessage, hbehind⟩ :=
    List.forall_mem_cons.mp (List.forall_mem_append.mp hrow.fits).2
  have htiles := hrow.tiles
  rw [List.map_append, Tiles.append_iff] at htiles
  obtain ⟨middle, hbefore, rfl, hrest⟩ := htiles
  refine ⟨hbefore, ?_⟩
  rw [hrest.limit_eq, Message.total_map_lot hbehind, Slot.limit, hmessage.reserved_eq, Message.lot]

/-- Only when the oldest message that is out is the last one too does the cursor fall back. -/
theorem cursor_free (hrow : arena.InRow stranded (message :: behind)) :
    (arena.free message.slot).cursor =
      if behind.isEmpty then message.slot.offset else arena.cursor := by
  obtain ⟨-, hcursor⟩ := hrow.split
  rw [cursor_free_bump hrow.policy_eq]
  cases behind with
  | nil =>
    rw [Message.total_nil, Nat.add_zero] at hcursor
    rw [if_pos hcursor.symm, List.isEmpty_nil, if_pos rfl]
  | cons next rest =>
    have hsize := Message.sizeFor_pos next.format
    rw [Message.total_cons] at hcursor
    rw [if_neg (by omega), if_neg (by simp)]

/-- The oldest message that is out goes back. -/
theorem free (hrow : arena.InRow stranded (message :: behind)) :
    (arena.free message.slot).InRow (Message.strand stranded message behind) behind := by
  obtain ⟨hbefore, hcursor⟩ := hrow.split
  have hcapacity := hrow.cursor_le
  have hfree := hrow.cursor_free
  have hlive : (arena.free message.slot).live = behind.length := by
    rw [live_free, hrow.live_eq, List.length_cons, Nat.add_sub_cancel]
  cases behind with
  | nil =>
    rw [List.isEmpty_nil, if_pos rfl] at hfree
    refine ⟨(policy_free _ _).trans hrow.policy_eq, hlive, ?_, ?_, ?_⟩
    · rw [List.append_nil]
      exact (List.forall_mem_append.mp hrow.fits).1
    · rw [Message.total_nil, Slot.limit] at hcursor
      rw [hfree, capacity_free]
      omega
    · rw [List.append_nil, hfree]
      exact hbefore
  | cons next rest =>
    have horder : Message.strand stranded message (next :: rest) ++ next :: rest =
        stranded ++ message :: next :: rest := List.append_assoc _ _ _
    rw [if_neg (by simp)] at hfree
    refine ⟨(policy_free _ _).trans hrow.policy_eq, hlive, ?_, ?_, ?_⟩
    · rw [horder]
      exact hrow.fits
    · rw [hfree, capacity_free]
      exact hcapacity
    · rw [horder, hfree]
      exact hrow.tiles

theorem foldl_free (hrow : arena.InRow stranded out) :
    (out.foldl (fun arena message => arena.free message.slot) arena).InRow
      (Message.strandAll stranded out) [] := by
  induction out generalizing arena stranded with
  | nil => exact hrow
  | cons message behind ih => exact ih hrow.free

theorem reset (hrow : arena.InRow stranded out) :
    arena.reset.1.InRow (if arena.reset.2 then [] else stranded) out := by
  by_cases hlive : arena.live = 0
  · obtain rfl : out = [] := List.length_eq_zero_iff.mp (hrow.live_eq.symm.trans hlive)
    rw [Arena.reset, if_pos hlive, if_pos rfl]
    exact ⟨hrow.policy_eq, hrow.live_eq, List.forall_mem_nil _, Nat.zero_le _, rfl⟩
  · rw [Arena.reset, if_neg hlive]
    exact hrow

end InRow

/-- Somebody who tries for the guard has it at once. -/
def Access.IsFree : Access → Prop
  | .waiting => True
  | .trying isFree => isFree 0 = true

theorem Access.IsFree.succeeds {access : Access} (hfree : access.IsFree) (attempts : Nat) :
    access.succeeds attempts = true := by
  cases access with
  | waiting => rfl
  | trying isFree =>
    rw [Access.succeeds, List.any_eq_true]
    exact ⟨0, by simp, hfree⟩

end Arena

namespace Logger

/-- The messages `inHand` are out besides those that are queued, and are older. -/
def InRow (logger : Logger β ω) (stranded inHand : List Message) : Prop :=
  logger.arena.InRow stranded (inHand ++ logger.queue.items)

variable {logger : Logger β ω} {stranded inHand : List Message}

/-- The stranded messages after a dispatch: the one that is dispatched is stranded if anything
is queued when its slot goes back. -/
def strandDispatch (behaviour : Behaviour β ω) (logger : Logger β ω) (stranded : List Message) :
    List Message :=
  if logger.isRunning then
    match logger.queue.items with
    | [] => stranded
    | message :: _ => Message.strand stranded message (logger.dispatch behaviour).queue.items
  else stranded

def strandMany (behaviour : Behaviour β ω) :
    Nat → Logger β ω → List Message → List Message
  | 0, _, stranded => stranded
  | count + 1, logger, stranded =>
    strandMany behaviour count (logger.dispatch behaviour)
      (logger.strandDispatch behaviour stranded)

def strandShutdown (behaviour : Behaviour β ω) (logger : Logger β ω) (stranded : List Message) :
    List Message :=
  match logger.consumer with
  | .idle => Message.strandAll stranded logger.queue.items
  | .running _ _ =>
    strandMany behaviour logger.queue.length { logger with queue := logger.queue.close } stranded
  | .stopped => stranded

theorem prefix_strandDispatch (behaviour : Behaviour β ω) (logger : Logger β ω)
    (stranded : List Message) : stranded <+: logger.strandDispatch behaviour stranded := by
  rw [strandDispatch]
  split
  · split
    · exact List.prefix_rfl
    · exact Message.prefix_strand _ _ _
  · exact List.prefix_rfl

theorem prefix_strandMany (behaviour : Behaviour β ω) (count : Nat) (logger : Logger β ω)
    (stranded : List Message) : stranded <+: strandMany behaviour count logger stranded := by
  induction count generalizing logger stranded with
  | zero => exact List.prefix_rfl
  | succ count ih => exact (prefix_strandDispatch behaviour logger stranded).trans (ih _ _)

theorem prefix_strandShutdown (behaviour : Behaviour β ω) (logger : Logger β ω)
    (stranded : List Message) : stranded <+: logger.strandShutdown behaviour stranded := by
  rw [strandShutdown]
  split
  · exact Message.prefix_strandAll _ _
  · exact prefix_strandMany _ _ _ _
  · exact List.prefix_rfl

namespace InRow

theorem emitIn (hrow : logger.InRow stranded inHand) {caller : Caller}
    (hgives : logger.enters caller.giving = true) (request : Request) :
    (logger.emitIn caller request).1.InRow stranded inHand := by
  rcases emitIn_cases caller logger request with
    ⟨format, arena, message, -, hcreate, -, -, hemit⟩ | ⟨arena, failure, hrefuses, hemit⟩
  · rw [hemit]
    have haccepted := Arena.InRow.createIn hrow hcreate
    rw [List.append_assoc] at haccepted
    exact haccepted
  · rw [hemit]
    exact Arena.InRow.alike hrow
      (hrefuses.setAsideAlike (Arena.InRow.policy_ne hrow) fun _ => hgives)

/-- What sinks emit is accepted behind all that is queued. -/
theorem perform (hrow : logger.InRow stranded inHand) (act : Act β ω α) :
    (logger.perform act).1.InRow stranded inHand := by
  induction act generalizing logger with
  | done result => exact hrow
  | panic => exact hrow
  | share change next ih =>
    apply ih
    exact hrow
  | emit request next ih =>
    apply ih
    exact hrow.emitIn rfl request
  | register registration next ih =>
    apply ih
    exact hrow

theorem dispatch (hrow : logger.InRow stranded []) (behaviour : Behaviour β ω) :
    (logger.dispatch behaviour).InRow (logger.strandDispatch behaviour stranded) [] := by
  rw [strandDispatch]
  by_cases hrunning : logger.isRunning ∧ ¬logger.queue.isEmpty
  · obtain ⟨snapshot, memory, message, rest, hconsumer, hitems⟩ := running_cases hrunning
    have hhandling : (logger.handling snapshot memory message rest).InRow stranded [message] := by
      rw [InRow, hitems] at hrow
      exact hrow
    have hhanded := hhandling.perform (fanOut behaviour (logger.registry.refresh snapshot).1.sinks
      (logger.entryOf memory message))
    rw [if_pos hrunning.1, hitems, dispatch_of_running behaviour hconsumer hitems]
    exact Arena.InRow.free hhanded
  · rw [dispatch_of_not_running behaviour hrunning]
    split
    · next hstarted =>
      rw [Decidable.not_and_not_right] at hrunning
      have hitems : logger.queue.items = [] := List.isEmpty_iff.mp (hrunning hstarted)
      rw [hitems]
      exact hrow
    · exact hrow

theorem dispatchMany (hrow : logger.InRow stranded []) (behaviour : Behaviour β ω) (count : Nat) :
    (logger.dispatchMany behaviour count).InRow
      (strandMany behaviour count logger stranded) [] := by
  induction count generalizing logger stranded with
  | zero => exact hrow
  | succ count ih => exact ih (hrow.dispatch behaviour)

theorem shutdown (hrow : logger.InRow stranded []) (behaviour : Behaviour β ω) :
    (logger.shutdown behaviour).InRow (logger.strandShutdown behaviour stranded) [] := by
  have hclosed : InRow { logger with queue := logger.queue.close } stranded [] := hrow
  cases hconsumer : logger.consumer with
  | idle =>
    simp only [Logger.shutdown, strandShutdown, hconsumer]
    exact Arena.InRow.foldl_free hrow
  | running snapshot memory =>
    simp only [Logger.shutdown, strandShutdown, hconsumer]
    rw [← hconsumer]
    exact hclosed.dispatchMany behaviour logger.queue.length
  | stopped =>
    simp only [Logger.shutdown, strandShutdown, hconsumer]
    exact hrow

end InRow

/-! ## Turns that leave the slots to the logger -/

/-- Nothing but emits and the consumer takes slots or gives them back. -/
def Step.IsPlain : Step β → Prop
  | .register _ | .start | .shutdown | .emit _ | .dispatch | .arena .reset | .arena .describe
  | .describe | .describeMessage _ => True
  | .pop | .push _ | .drop _ | .arena _ => False

/-- Between whole operations nobody has the guard, so that an emit is never without it when it
has a slot to give back. -/
def Turn.IsPlain : Turn β → Prop
  | .step taken => taken.IsPlain
  | .emit caller _ => caller.giving.IsFree
  | .allocate _ _ | .free _ _ => False

namespace Session

/-- The stranded messages after a turn.  They are stranded until the arena is reset. -/
def strand (behaviour : Behaviour β ω) (session : Session β ω) (stranded : List Message) :
    Turn β → List Message
  | .step .dispatch => session.logger.strandDispatch behaviour stranded
  | .step .shutdown => session.logger.strandShutdown behaviour stranded
  | .step (.arena .reset) => if session.logger.arena.reset.2 then [] else stranded
  | _ => stranded

def strandedAfter (behaviour : Behaviour β ω) :
    Session β ω → List Message → List (Turn β) → List Message
  | _, stranded, [] => stranded
  | session, stranded, turn :: rest =>
    strandedAfter behaviour (session.turn behaviour turn).1
      (session.strand behaviour stranded turn) rest

/-- No turn resets the arena: each time it is asked for, slots are out. -/
def Unreset (behaviour : Behaviour β ω) : Session β ω → List (Turn β) → Prop
  | _, [] => True
  | session, turn :: rest =>
    (turn = .step (.arena .reset) → session.logger.arena.live ≠ 0) ∧
      Unreset behaviour (session.turn behaviour turn).1 rest

variable {session : Session β ω} {stranded : List Message}

/-- One turn of any plain kind keeps the row. -/
theorem inRow_turn (hrow : session.logger.InRow stranded []) (behaviour : Behaviour β ω)
    {turn : Turn β} (hplain : turn.IsPlain) :
    (session.turn behaviour turn).1.logger.InRow (session.strand behaviour stranded turn) [] := by
  cases turn with
  | step step =>
    cases step with
    | register registration => exact hrow
    | start =>
      rcases step_start_cases behaviour session with ⟨-, hstart⟩ | ⟨-, hstart⟩
      · rw [Session.turn, hstart]
        exact hrow
      · rw [Session.turn, hstart]
        exact hrow
    | shutdown => exact hrow.shutdown behaviour
    | emit request =>
      rw [Session.turn, step_emit]
      exact hrow.emitIn rfl request
    | dispatch => exact hrow.dispatch behaviour
    | arena step =>
      cases step with
      | reset => exact Arena.InRow.reset hrow
      | describe => exact hrow
      | allocate _ | free _ | fill _ _ | write _ _ _ | read _ | describeSlot _ =>
        exact absurd hplain id
    | describe => exact hrow
    | describeMessage number =>
      rw [Session.turn, step_describeMessage]
      exact hrow
    | pop | push _ | drop _ => exact absurd hplain id
  | emit caller request =>
    rw [turn_emit]
    exact hrow.emitIn (Arena.Access.IsFree.succeeds hplain _) request
  | allocate _ _ | free _ _ => exact absurd hplain id

theorem inRow_after (hrow : session.logger.InRow stranded []) (behaviour : Behaviour β ω)
    {turns : List (Turn β)} (hplain : ∀ turn ∈ turns, turn.IsPlain) :
    (session.after behaviour turns).logger.InRow
      (session.strandedAfter behaviour stranded turns) [] := by
  induction turns generalizing session stranded with
  | nil => exact hrow
  | cons turn rest ih =>
    obtain ⟨hturn, hrest⟩ := List.forall_mem_cons.mp hplain
    exact ih (inRow_turn hrow behaviour hturn) hrest

theorem prefix_strand (behaviour : Behaviour β ω) {turn : Turn β} (stranded : List Message)
    (hreset : turn = .step (.arena .reset) → session.logger.arena.live ≠ 0) :
    stranded <+: session.strand behaviour stranded turn := by
  unfold strand
  split
  · exact prefix_strandDispatch _ _ _
  · exact prefix_strandShutdown _ _ _
  · rw [Arena.reset, if_neg (hreset rfl)]
    exact List.prefix_rfl
  · exact List.prefix_rfl

/-- What is stranded stays so until a reset. -/
theorem prefix_strandedAfter (behaviour : Behaviour β ω) (stranded : List Message)
    {turns : List (Turn β)} (hunreset : session.Unreset behaviour turns) :
    stranded <+: session.strandedAfter behaviour stranded turns := by
  induction turns generalizing session stranded with
  | nil => exact List.prefix_rfl
  | cons turn rest ih =>
    obtain ⟨hturn, hrest⟩ := hunreset
    exact (prefix_strand behaviour stranded hturn).trans (ih _ hrest)

/-- What the bytes of a bump logger are used for, and what they can still be used for. -/
structure Shrunk (behaviour : Behaviour β ω) (session : Session β ω) (stranded : List Message) :
    Prop where
  usedBytes_eq : session.logger.arena.usedBytes =
    Message.total session.logger.queue.items + Message.total stranded
  usedBytes_le : session.logger.arena.usedBytes ≤ session.logger.arena.capacity
  /-- Unless its sinks emit in the meantime, the bytes of a dispatched message come back exactly
  when it is the only one queued. -/
  comes_back : ∀ message rest, session.logger.isRunning = true →
    session.logger.queue.items = message :: rest →
    (session.logger.dispatch behaviour).queue.items = rest →
    ((session.logger.dispatch behaviour).arena.usedBytes + Message.sizeFor message.format =
      session.logger.arena.usedBytes ↔ rest = [])
  /-- What is stranded no message has, queued now or ever before a reset. -/
  unavailable : ∀ turns, (∀ turn ∈ turns, turn.IsPlain) → session.Unreset behaviour turns →
    ∀ lost ∈ stranded, ∀ message ∈ (session.after behaviour turns).logger.queue.items,
      ∀ position, ¬(lost.slot.Covers position ∧ message.slot.Covers position)

theorem shrunk_of_inRow (hrow : session.logger.InRow stranded []) (behaviour : Behaviour β ω) :
    Shrunk behaviour session stranded where
  usedBytes_eq := Arena.InRow.usedBytes_eq hrow
  usedBytes_le := by
    rw [Arena.usedBytes, Arena.InRow.policy_eq hrow]
    exact Arena.InRow.cursor_le hrow
  comes_back message rest hrunning hitems hrest := by
    have hsize := Message.sizeFor_pos message.format
    have hbefore := Arena.InRow.usedBytes_eq hrow
    rw [hitems, List.nil_append, Message.total_cons] at hbefore
    have hafter := Arena.InRow.usedBytes_eq (hrow.dispatch behaviour)
    rw [strandDispatch, if_pos hrunning, hitems] at hafter
    simp only [List.nil_append, hrest, Message.total_strand] at hafter
    rw [hafter, hbefore]
    cases rest with
    | nil =>
      rw [List.isEmpty_nil, if_pos rfl]
      exact ⟨fun _ => rfl, fun _ => by omega⟩
    | cons next others =>
      rw [if_neg (by simp)]
      exact ⟨fun heq => absurd heq (by omega), fun hnone => absurd hnone (by simp)⟩
  unavailable turns hplain hunreset lost hlost message hmessage position := by
    have hlater := inRow_after hrow behaviour hplain
    have hstill := (prefix_strandedAfter behaviour stranded hunreset).subset hlost
    exact Arena.InRow.not_covers hlater hstill hmessage position

end Session

/-- At any moment of a run in which nobody but the logger takes slots, the bytes in use are
those of the queued messages and of those whose slots went back while later ones were
queued. -/
theorem shrunk_after {hostMemory : Nat} {texts : StaticTexts} {world : ω} {config : Config}
    {logger : Logger β ω} (hcreate : create hostMemory texts world config = .ok logger)
    (hpolicy : config.policy = .bump) (behaviour : Behaviour β ω) {turns : List (Turn β)}
    (hplain : ∀ turn ∈ turns, turn.IsPlain) :
    let start : Session β ω := { logger }
    (start.after behaviour turns).Shrunk behaviour (start.strandedAfter behaviour [] turns) := by
  intro start
  obtain ⟨arena, -, harena, rfl⟩ := create_eq_ok hcreate
  obtain ⟨rfl, -⟩ := Arena.create_eq_ok harena
  have hrow : start.logger.InRow [] [] :=
    ⟨hpolicy, rfl, List.forall_mem_nil _, Nat.zero_le _, rfl⟩
  exact Session.shrunk_of_inRow (Session.inRow_after hrow behaviour hplain) behaviour

/-- A sink answers the first of two messages, so that both are stranded, of 16 and of 21 bytes,
and the answer is not.  A reset is refused while the answer is queued, an interrupt handler
fails of its arguments, and the message that is emitted last lies behind the stranded ones. -/
theorem shrunk_after_answer :
    let config : Config := { arenaCapacity := 128, queueCapacity := 4 }
    let arena : Arena := { capacity := 128, maxInFlight := 32, policy := .bump, freeSlots := [] }
    let logger : Logger Unit Unit :=
      { config, arena, queue := { capacity := 4 }, texts := [], world := () }
    let request : Request := ⟨"net", "poll", .error, some "down", []⟩
    let count : Request := ⟨"net", "poll", .debug, some "%d", [.int 7]⟩
    let behaviour : Behaviour Unit Unit := fun _ entry =>
      if entry.format = "down" then .emit { request with format := some "up" } fun _ => .done ()
      else .done ()
    let handler : Caller := ⟨.trying fun attempt => attempt == 0, .trying fun _ => true⟩
    let turns : List (Turn Unit) :=
      [.step (.register ⟨"answers", some ()⟩), .step (.emit request), .step (.emit count),
        .step .start, .step .dispatch, .step .dispatch, .step (.arena .reset), .step .dispatch,
        .emit handler { count with arguments := [] }, .step (.emit request)]
    let start : Session Unit Unit := { logger }
    create 4096 [] () config = .ok logger ∧ (∀ turn ∈ turns, turn.IsPlain) ∧
      (start.after behaviour turns).Shrunk behaviour (start.strandedAfter behaviour [] turns) ∧
      Message.total (start.strandedAfter behaviour [] turns) = 37 ∧
      (start.after behaviour turns).logger.arena.usedBytes = 53 := by
  intro config arena logger request count behaviour handler turns start
  have hvalid : config.validate = .ok () := by
    simp [Config.validate, Config.positiveSettings, Message.headerSize, config]
  have hcreate : create 4096 [] () config = .ok logger := by
    rw [create, hvalid]
    rfl
  have hplain : ∀ turn ∈ turns, turn.IsPlain := by
    simp [turns, Turn.IsPlain, Step.IsPlain, Arena.Access.IsFree, handler]
  have hshrunk := shrunk_after hcreate rfl behaviour hplain
  exact ⟨hcreate, hplain, hshrunk, by decide +kernel, by decide +kernel⟩

end Logger

end LogRelay
