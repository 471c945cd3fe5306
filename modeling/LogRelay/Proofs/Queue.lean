import LogRelay.Proofs.Arena.Contention
import LogRelay.Proofs.Entry
import LogRelay.Proofs.Logger.Atomicity
import LogRelay.Queue.Session

/-!
# Messages in a queue

Messages leave a queue in the order in which it accepted them, and what it does not accept
stays with whoever pushed it.  All that a message says beside its names and its format lies in
a slot of some arena that others use at the same time.  They do not reach it, so that the
message says what it was built to say for as long as somebody has it.
-/

namespace LogRelay

open LogRelay.Record

namespace Message

variable {arena : Arena} {message : Message} {ticks : UInt64} {request : Request}

theorem Stores.ticks_eq (hstores : message.Stores arena ticks request) :
    message.ticks arena = ticks := by
  obtain ⟨records, -, hcontent⟩ := hstores.content
  have hword : (header ticks request.level ++ encodeAll records).take 8 = word ticks := by
    rw [header, List.append_assoc]
    exact List.take_left' (length_word ticks)
  have hsmall : ticks.toNat % 256 ^ 8 = ticks.toNat := Nat.mod_eq_of_lt ticks.toNat_lt
  rw [Message.ticks, hcontent, hword, word, ofLittleEndian_littleEndian, hsmall]
  exact UInt64.ofNat_toNat

end Message

namespace Queue

/-! ## What messages say -/

/-- The message says, as long as its arena holds these bytes, what it was built to say. -/
structure Parcel.Intact (arena : Arena) (parcel : Parcel) : Prop where
  moduleName_eq : parcel.message.moduleName = parcel.request.moduleName
  functionName_eq : parcel.message.functionName = parcel.request.functionName
  level_eq : parcel.message.level arena = parcel.request.level
  format_eq : parcel.request.format = some parcel.message.format
  ticks_eq : parcel.message.ticks arena = parcel.ticks
  size_eq : parcel.message.size = Message.sizeFor parcel.message.format
  /-- The records are of the values that the arguments were promoted to.  That text arguments
  are found again needs them to be among the program's. -/
  captured : ∃ records,
    Feeds ((Format.conversions parcel.message.format).map Format.Spec.kind)
        parcel.request.arguments records ∧
      parcel.message.captured arena = encodeAll records ∧
      ∀ texts, (∀ argument ∈ parcel.request.arguments, argument.IsStatic texts) →
        takeRecords texts (parcel.message.captured arena) = records

/-- The slot of the message holds what it was built from. -/
def Parcel.Stored (arena : Arena) (parcel : Parcel) : Prop :=
  parcel.message.Stores arena parcel.ticks parcel.request

theorem Parcel.Stored.intact {arena : Arena} {parcel : Parcel} (hstored : parcel.Stored arena) :
    parcel.Intact arena := by
  obtain ⟨records, hfeeds, hcaptured⟩ := hstored.carries.captured_eq
  refine
    { moduleName_eq := hstored.moduleName_eq
      functionName_eq := hstored.functionName_eq
      level_eq := hstored.carries.level_eq
      format_eq := hstored.format_eq
      ticks_eq := hstored.ticks_eq
      size_eq := hstored.length_eq
      captured := ⟨records, hfeeds, hcaptured, fun texts hstatic => ?_⟩ }
  rw [hcaptured]
  exact takeRecords_encodeAll hfeeds hstatic

/-! ## Refusals -/

section Refusals

variable {α : Type}

theorem push_eq_queueClosed_iff (queue : Queue α) (item : α) :
    queue.push item = .error .queueClosed ↔ queue.closed = true := by
  rw [push]
  split
  · next hclosed => exact iff_of_true rfl hclosed
  · next hopen =>
    refine iff_of_false ?_ hopen
    split <;> simp

/-- A queue that is closed is never called full. -/
theorem push_eq_queueFull_iff (queue : Queue α) (item : α) :
    queue.push item = .error .queueFull ↔
      queue.closed = false ∧ queue.capacity ≤ queue.length := by
  rw [push]
  split
  · next hclosed =>
    rw [hclosed]
    exact iff_of_false (by simp) fun hopen => absurd hopen.1 (by simp)
  · next hopen =>
    rw [Bool.not_eq_true] at hopen
    split
    · next hfull => exact iff_of_true rfl ⟨hopen, of_decide_eq_true hfull⟩
    · next hroom => exact iff_of_false (by simp) fun hfull => hroom (decide_eq_true hfull.2)

end Refusals

/-! ## Slots in many arenas -/

/-- The slots that messages have in one of the arenas. -/
def slotsIn (number : Nat) (parcels : List Parcel) : List Slot :=
  (parcels.filter (·.arena = number)).map (·.message.slot)

variable {number : Nat} {parcel : Parcel} {parcels others : List Parcel}

theorem slotsIn_cons_self (parcel : Parcel) (parcels : List Parcel) :
    slotsIn parcel.arena (parcel :: parcels) =
      parcel.message.slot :: slotsIn parcel.arena parcels := by
  simp [slotsIn]

theorem slotsIn_cons_of_ne (hne : number ≠ parcel.arena) (parcels : List Parcel) :
    slotsIn number (parcel :: parcels) = slotsIn number parcels := by
  simp [slotsIn, hne.symm]

theorem slotsIn_perm (hperm : parcels.Perm others) (number : Nat) :
    (slotsIn number parcels).Perm (slotsIn number others) :=
  (hperm.filter _).map _

theorem mem_slotsIn (hparcel : parcel ∈ parcels) :
    parcel.message.slot ∈ slotsIn parcel.arena parcels :=
  List.mem_map_of_mem (List.mem_filter.mpr ⟨hparcel, decide_eq_true rfl⟩)

/-- Every arena accounts for the slots of messages along with those of its other users, and
the messages are stored in them. -/
structure Keeps (arenas : Nat → Arena.Session) (parcels : List Parcel) : Prop where
  accounts : ∀ number, (arenas number).arena.Accounts
    ((arenas number).slots.toList ++ slotsIn number parcels)
  stored : ∀ parcel ∈ parcels, parcel.Stored (arenas parcel.arena).arena

namespace Keeps

variable {arenas : Nat → Arena.Session} {after : Arena.Session}

theorem perm (hkeeps : Keeps arenas parcels) (hperm : parcels.Perm others) :
    Keeps arenas others where
  accounts number := (hkeeps.accounts number).perm ((slotsIn_perm hperm number).append_left _)
  stored parcel hparcel := hkeeps.stored parcel (hperm.mem_iff.mpr hparcel)

/-- What does not reach the bytes of messages leaves them stored. -/
theorem stored_replace (hkeeps : Keeps arenas parcels)
    (hread : ∀ slot ∈ slotsIn number parcels,
      after.arena.read slot = (arenas number).arena.read slot)
    (hparcel : parcel ∈ parcels) :
    parcel.Stored (replace arenas number after parcel.arena).arena := by
  have hstored := hkeeps.stored parcel hparcel
  by_cases harena : parcel.arena = number
  · subst harena
    rw [replace, if_pos rfl]
    exact hstored.congr (hread _ (mem_slotsIn hparcel))
  · rw [replace, if_neg harena]
    exact hstored

theorem accounts_replace (hkeeps : Keeps arenas parcels)
    (haccounts : after.arena.Accounts (after.slots.toList ++ slotsIn number others))
    (hothers : ∀ other, other ≠ number → slotsIn other others = slotsIn other parcels)
    (other : Nat) :
    (replace arenas number after other).arena.Accounts
      ((replace arenas number after other).slots.toList ++ slotsIn other others) := by
  by_cases heq : other = number
  · subst heq
    rw [replace, if_pos rfl]
    exact haccounts
  · rw [replace, if_neg heq, hothers other heq]
    exact hkeeps.accounts other

/-- Work in an arena that is kept away from the messages. -/
theorem replace (hkeeps : Keeps arenas parcels)
    (haccounts : after.arena.Accounts (after.slots.toList ++ slotsIn number parcels))
    (hread : ∀ slot ∈ slotsIn number parcels,
      after.arena.read slot = (arenas number).arena.read slot) :
    Keeps (replace arenas number after) parcels where
  accounts := hkeeps.accounts_replace haccounts fun _ _ => rfl
  stored _ hparcel := hkeeps.stored_replace hread hparcel

theorem turn (hkeeps : Keeps arenas parcels) (number : Nat) (turn : Arena.Turn) :
    Keeps (Queue.replace arenas number ((arenas number).turn turn).1) parcels := by
  have haccounts := hkeeps.accounts number
  refine hkeeps.replace (Arena.Session.accounts_turn haccounts turn) ?_
  exact fun slot hslot => Arena.Session.read_turn haccounts hslot turn

theorem build {took gave : Bool} {ticks : UInt64} {request : Request} {format : String}
    {arena : Arena} {message : Message} (hkeeps : Keeps arenas parcels)
    (hformat : request.format = some format)
    (hcreate : Message.createIn took gave (arenas number).arena ticks request format =
      (arena, .ok message)) :
    Keeps (Queue.replace arenas number { arenas number with arena })
      (⟨number, message, ticks, request⟩ :: parcels) := by
  have haccounts := hkeeps.accounts number
  have hread := Message.read_of_createIn haccounts hcreate
  constructor
  · apply hkeeps.accounts_replace
    · refine (Message.accounts_of_createIn haccounts hcreate).perm ?_
      rw [slotsIn_cons_self ⟨number, message, ticks, request⟩ parcels]
      exact List.perm_middle.symm
    · exact fun other hother => slotsIn_cons_of_ne hother parcels
  · refine List.forall_mem_cons.mpr ⟨?_, fun parcel hparcel => ?_⟩
    · rw [Queue.replace, if_pos rfl]
      exact Message.stores_of_createIn hformat hcreate
    · exact hkeeps.stored_replace (fun slot hslot => hread slot (List.mem_append_right _ hslot))
        hparcel

theorem build_error {took gave : Bool} {ticks : UInt64} {request : Request} {format : String}
    {arena : Arena} {failure : Failure} (hkeeps : Keeps arenas parcels)
    (hcreate : Message.createIn took gave (arenas number).arena ticks request format =
      (arena, .error failure)) :
    Keeps (Queue.replace arenas number { arenas number with arena }) parcels := by
  have haccounts := hkeeps.accounts number
  have hread := Message.read_of_createIn_error haccounts hcreate
  exact hkeeps.replace (Message.accounts_of_createIn_error haccounts hcreate) fun slot hslot =>
    hread slot (List.mem_append_right _ hslot)

theorem giveBack (hkeeps : Keeps arenas (parcel :: parcels)) (entered : Bool) :
    Keeps (giveBack entered arenas parcel) parcels := by
  have haccounts := hkeeps.accounts parcel.arena
  rw [slotsIn_cons_self] at haccounts
  constructor
  · refine hkeeps.accounts_replace ?_ fun other hother => (slotsIn_cons_of_ne hother parcels).symm
    exact (haccounts.perm List.perm_middle).freeIn entered
  · intro other hother
    exact hkeeps.stored_replace (fun _ _ => Arena.read_freeIn _ _ _ _)
      (List.mem_cons_of_mem parcel hother)

theorem foldl_giveBack (hkeeps : Keeps arenas (parcels ++ others)) :
    Keeps (parcels.foldl (Queue.giveBack true) arenas) others := by
  induction parcels generalizing arenas with
  | nil => exact hkeeps
  | cons parcel rest ih => exact ih (hkeeps.giveBack true)

end Keeps

namespace Session

/-- All messages that somebody has: the queue, and then the users. -/
def owned (session : Session) : List Parcel :=
  session.queue.items ++ session.parcels.toList

variable {session : Session}

/-- A message in hand that goes to the tail of the queue, or out of hands. -/
theorem owned_perm_of_get? {number : Nat} {parcel : Parcel}
    (heq : session.parcels.get? number = some parcel) :
    session.owned.Perm
      (parcel :: (session.queue.items ++ (session.parcels.remove number).toList)) :=
  ((Numbered.toList_perm_of_get?_eq_some heq).append_left _).trans List.perm_middle

/-- No step loses the slot of a message or writes to it. -/
theorem keeps_step (hkeeps : Keeps session.arenas session.owned) (step : Step) :
    Keeps (session.step step).1.arenas (session.step step).1.owned := by
  cases step with
  | build number took gave ticks request =>
    rw [Session.step]
    split
    · exact hkeeps
    · next format hformat =>
      simp only
      split
      · next hcreate => exact hkeeps.build_error hcreate
      · next arena message hcreate =>
        apply (hkeeps.build hformat hcreate).perm
        rw [owned, owned, Numbered.toList_add, ← List.append_assoc]
        exact (List.perm_append_singleton _ _).symm
  | push number =>
    rw [Session.step]
    split
    · exact hkeeps
    · next parcel hparcel =>
      have hheld := hkeeps.perm (owned_perm_of_get? hparcel)
      simp only
      split
      · next queue hpush =>
        obtain ⟨-, rfl⟩ := (push_eq_ok_iff _ _ _).mp hpush
        apply hheld.perm
        rw [owned, List.append_assoc]
        exact List.perm_middle.symm
      · apply hheld.perm
        rw [owned, Numbered.toList_add, ← List.append_assoc]
        exact (List.perm_append_singleton _ _).symm
  | pop =>
    rw [Session.step]
    split
    · exact hkeeps
    · next parcel queue hpop =>
      rw [owned, items_of_pop?_eq_some hpop] at hkeeps
      apply hkeeps.perm
      rw [owned, Numbered.toList_add, ← List.append_assoc]
      exact (List.perm_append_singleton _ _).symm
  | drop entered number =>
    rw [Session.step]
    split
    · exact hkeeps
    · next parcel hparcel => exact (hkeeps.perm (owned_perm_of_get? hparcel)).giveBack entered
  | close => exact hkeeps
  | shutdown => exact hkeeps.foldl_giveBack
  | arena number turn => exact hkeeps.turn number turn

end Session

/-! ## The order of messages -/

/-- The messages whose push was accepted, in the order in which they were. -/
def accepted (answers : List Answer) : List Parcel :=
  answers.filterMap fun
    | .accepted parcel => some parcel
    | _ => none

def popped (answers : List Answer) : List Parcel :=
  answers.filterMap fun
    | .popped _ parcel => some parcel
    | _ => none

/-- The messages that a shutdown discarded. -/
def discarded (answers : List Answer) : List Parcel :=
  answers.flatMap fun
    | .discarded parcels => parcels
    | _ => []

/-- Every message that was accepted was popped in its turn, was discarded by a shutdown, or is
queued still. -/
structure InOrder (capacity : Nat) (queue : Queue Parcel) (answers : List Answer) : Prop where
  capacity_eq : queue.capacity = capacity
  length_le : queue.length ≤ capacity
  accepted_eq : accepted answers = popped answers ++ discarded answers ++ queue.items
  /-- From a shutdown on nothing is queued. -/
  discarded_eq : discarded answers ≠ [] → queue.closed = true ∧ queue.items = []

theorem accepted_append (answers more : List Answer) :
    accepted (answers ++ more) = accepted answers ++ accepted more :=
  List.filterMap_append

theorem popped_append (answers more : List Answer) :
    popped (answers ++ more) = popped answers ++ popped more :=
  List.filterMap_append

theorem discarded_append (answers more : List Answer) :
    discarded (answers ++ more) = discarded answers ++ discarded more :=
  List.flatMap_append

namespace InOrder

variable {capacity number : Nat} {queue after : Queue Parcel} {parcel : Parcel}
  {answers : List Answer}

/-- An answer that tells neither of an acceptance nor of a message that left the queue. -/
theorem aside (horder : InOrder capacity queue answers) {answer : Answer}
    (haccepted : accepted [answer] = []) (hpopped : popped [answer] = [])
    (hdiscarded : discarded [answer] = []) : InOrder capacity queue (answers ++ [answer]) := by
  refine { horder with accepted_eq := ?_, discarded_eq := ?_ }
  · rw [accepted_append, popped_append, discarded_append, haccepted, hpopped, hdiscarded,
      List.append_nil, List.append_nil, List.append_nil]
    exact horder.accepted_eq
  · rw [discarded_append, hdiscarded, List.append_nil]
    exact horder.discarded_eq

theorem push (horder : InOrder capacity queue answers) (hpush : queue.push parcel = .ok after) :
    InOrder capacity after (answers ++ [.accepted parcel]) := by
  obtain ⟨⟨hopen, hroom⟩, rfl⟩ := (push_eq_ok_iff _ _ _).mp hpush
  have hnone : discarded answers = [] := by
    by_contra hsome
    exact absurd ((horder.discarded_eq hsome).1.symm.trans hopen) (by simp)
  have hdiscarded : discarded (answers ++ [.accepted parcel]) = [] := by
    rw [discarded_append, hnone]
    rfl
  refine ⟨horder.capacity_eq, ?_, ?_, fun hsome => absurd hdiscarded hsome⟩
  · rw [horder.capacity_eq] at hroom
    rw [length, List.length_append]
    exact hroom
  · rw [accepted_append, popped_append, hdiscarded, horder.accepted_eq, hnone]
    simp only [List.append_nil, List.append_assoc]
    rfl

/-- What is popped is the oldest of all accepted that was neither popped nor discarded. -/
theorem pop (horder : InOrder capacity queue answers) (hpop : queue.pop? = some (parcel, after))
    (number : Nat) : InOrder capacity after (answers ++ [.popped number parcel]) := by
  have hitems := items_of_pop?_eq_some hpop
  have hnone : discarded answers = [] := by
    by_contra hsome
    exact absurd (hitems.symm.trans (horder.discarded_eq hsome).2) (List.cons_ne_nil _ _)
  have hdiscarded : discarded (answers ++ [.popped number parcel]) = [] := by
    rw [discarded_append, hnone]
    rfl
  have hafter : after = { queue with items := after.items } := by
    rw [pop?, hitems] at hpop
    exact (Prod.mk.inj (Option.some.inj hpop)).2.symm
  have hlength := horder.length_le
  rw [length, hitems, List.length_cons] at hlength
  refine ⟨?_, Nat.le_of_succ_le hlength, ?_, fun hsome => absurd hdiscarded hsome⟩
  · rw [hafter]
    exact horder.capacity_eq
  · have hnothing : accepted [.popped number parcel] = [] := rfl
    rw [accepted_append, popped_append, hdiscarded, horder.accepted_eq, hnone, hitems, hnothing]
    simp only [List.append_nil, List.append_assoc]
    rfl

theorem close (horder : InOrder capacity queue answers) : InOrder capacity queue.close answers :=
  { horder with discarded_eq := fun hsome => ⟨rfl, (horder.discarded_eq hsome).2⟩ }

theorem shutdown (horder : InOrder capacity queue answers) :
    InOrder capacity queue.close.clear (answers ++ [.discarded queue.items]) := by
  refine ⟨horder.capacity_eq, Nat.zero_le _, ?_, fun _ => ⟨rfl, rfl⟩⟩
  rw [accepted_append, popped_append, discarded_append, horder.accepted_eq]
  simp [accepted, popped, discarded, clear]

end InOrder

namespace Session

variable {session : Session} {capacity : Nat} {answers : List Answer}

/-- Steps that concern only the arenas leave the order as it is. -/
theorem inOrder_step (horder : InOrder capacity session.queue answers) (step : Step) :
    InOrder capacity (session.step step).1.queue (answers ++ [(session.step step).2]) := by
  cases step with
  | build number took gave ticks request =>
    rw [Session.step]
    split
    · exact horder.aside rfl rfl rfl
    · simp only
      split
      · exact horder.aside rfl rfl rfl
      · exact horder.aside rfl rfl rfl
  | push number =>
    rw [Session.step]
    split
    · exact horder.aside rfl rfl rfl
    · simp only
      split
      · next hpush => exact horder.push hpush
      · exact horder.aside rfl rfl rfl
  | pop =>
    rw [Session.step]
    split
    · exact horder.aside rfl rfl rfl
    · next hpop => exact horder.pop hpop _
  | drop entered number =>
    rw [Session.step]
    split
    · exact horder.aside rfl rfl rfl
    · exact horder.aside rfl rfl rfl
  | close => exact horder.close.aside rfl rfl rfl
  | shutdown => exact horder.shutdown
  | arena number turn => exact horder.aside rfl rfl rfl

/-! ## Every run -/

/-- What holds of a queue and of the messages that went through it. -/
structure Orderly (capacity : Nat) (answers : List Answer) (session : Session) : Prop where
  length_le : session.queue.length ≤ capacity
  accepted_eq : accepted answers = popped answers ++ discarded answers ++ session.queue.items
  popped_isPrefix : popped answers <+: accepted answers
  /-- A push that is not refused puts the message behind all others. -/
  push : ∀ number parcel, session.parcels.get? number = some parcel →
    session.queue.closed = false → session.queue.length < capacity →
      (session.step (.push number)).2 = .accepted parcel ∧
        (session.step (.push number)).1.queue.items = session.queue.items ++ [parcel]
  /-- A closed queue refuses whether it is full or not. -/
  push_closed : ∀ number parcel, session.parcels.get? number = some parcel →
    ((∃ next other, (session.step (.push number)).2 = .refused .queueClosed next other) ↔
      session.queue.closed = true)
  push_full : ∀ number parcel, session.parcels.get? number = some parcel →
    ((∃ next other, (session.step (.push number)).2 = .refused .queueFull next other) ↔
      session.queue.closed = false ∧ session.queue.length = capacity)
  /-- What is refused comes back as it was, and the queue and the arenas stay as they were. -/
  refused : ∀ number cause next parcel,
    (session.step (.push number)).2 = .refused cause next parcel →
      session.parcels.get? number = some parcel ∧
        (session.step (.push number)).1.parcels.get? next = some parcel ∧
        (session.step (.push number)).1.queue = session.queue ∧
        (session.step (.push number)).1.arenas = session.arenas
  /-- The messages that are queued and those in hand, popped and handed back ones included. -/
  intact : ∀ parcel ∈ session.queue.items ++ session.parcels.toList,
    parcel.Intact (session.arenas parcel.arena).arena
  /-- A message that is popped or comes back can be read by whoever got it. -/
  handed : ∀ step parcel,
    ((∃ number, (session.step step).2 = .popped number parcel) ∨
      ∃ cause number, (session.step step).2 = .refused cause number parcel) →
    parcel.Intact ((session.step step).1.arenas parcel.arena).arena

theorem step_push_of_ok {number : Nat} {parcel : Parcel} {queue : Queue Parcel}
    (hheld : session.parcels.get? number = some parcel)
    (hpush : session.queue.push parcel = .ok queue) :
    session.step (.push number) =
      ({ session with queue, parcels := session.parcels.remove number }, .accepted parcel) := by
  simp only [Session.step, hheld, hpush]

theorem step_push_of_error {number : Nat} {parcel : Parcel} {cause : Exhaustion}
    (hheld : session.parcels.get? number = some parcel)
    (hpush : session.queue.push parcel = .error cause) :
    session.step (.push number) =
      ({ session with parcels := ((session.parcels.remove number).add parcel).2 },
        .refused cause ((session.parcels.remove number).add parcel).1 parcel) := by
  simp only [Session.step, hheld, hpush]

/-- A push is refused for the cause for which the queue refuses it. -/
theorem refused_iff {number : Nat} {parcel : Parcel} {cause : Exhaustion}
    (hheld : session.parcels.get? number = some parcel) :
    (∃ next other, (session.step (.push number)).2 = .refused cause next other) ↔
      session.queue.push parcel = .error cause := by
  cases hpush : session.queue.push parcel with
  | ok queue => simp [step_push_of_ok hheld hpush]
  | error other => simp [step_push_of_error hheld hpush]

/-- A refused message is back in the pusher's hand, and nothing else changed. -/
theorem refused_cases {number next : Nat} {cause : Exhaustion} {parcel : Parcel}
    (hrefused : (session.step (.push number)).2 = .refused cause next parcel) :
    session.parcels.get? number = some parcel ∧
      (session.step (.push number)).1.parcels.get? next = some parcel ∧
      (session.step (.push number)).1.queue = session.queue ∧
      (session.step (.push number)).1.arenas = session.arenas := by
  cases hheld : session.parcels.get? number with
  | none =>
    simp only [Session.step, hheld] at hrefused
    exact absurd hrefused (by simp)
  | some other =>
    cases hpush : session.queue.push other with
    | ok queue =>
      rw [step_push_of_ok hheld hpush] at hrefused
      exact absurd hrefused (by simp)
    | error cause =>
      have hstep := step_push_of_error hheld hpush
      rw [hstep] at hrefused ⊢
      obtain ⟨-, rfl, rfl⟩ := Answer.refused.inj hrefused
      exact ⟨rfl, Numbered.get?_add_self _ _, rfl, rfl⟩

/-- Only a push can be refused, and only a pop gives a message out. -/
theorem step_of_handed {step : Step} {parcel : Parcel}
    (hhanded : (∃ number, (session.step step).2 = .popped number parcel) ∨
      ∃ cause number, (session.step step).2 = .refused cause number parcel) :
    step = .pop ∨ ∃ number, step = .push number := by
  cases step with
  | pop => exact Or.inl rfl
  | push number => exact Or.inr ⟨number, rfl⟩
  | build number took gave ticks request =>
    rw [Session.step] at hhanded
    split at hhanded
    · simp at hhanded
    · simp only at hhanded
      split at hhanded <;> simp at hhanded
  | drop entered number =>
    rw [Session.step] at hhanded
    split at hhanded <;> simp at hhanded
  | close | shutdown | arena number turn => simp [Session.step] at hhanded

/-- What is popped or handed back is in hand afterwards. -/
theorem mem_of_handed {step : Step} {parcel : Parcel}
    (hhanded : (∃ number, (session.step step).2 = .popped number parcel) ∨
      ∃ cause number, (session.step step).2 = .refused cause number parcel) :
    parcel ∈ (session.step step).1.parcels.toList := by
  rcases step_of_handed hhanded with rfl | ⟨number, rfl⟩
  · cases hpop : session.queue.pop? with
    | none => simp [Session.step, hpop] at hhanded
    | some taken =>
      obtain ⟨first, queue⟩ := taken
      have hfirst : first = parcel := by simpa [Session.step, hpop] using hhanded
      simp only [Session.step, hpop, Numbered.toList_add, hfirst]
      exact List.mem_append_right _ (List.mem_singleton_self parcel)
  · rcases hhanded with ⟨next, hpopped⟩ | ⟨cause, next, hrefused⟩
    · cases hheld : session.parcels.get? number with
      | none => simp [Session.step, hheld] at hpopped
      | some other =>
        cases hpush : session.queue.push other with
        | ok queue => simp [step_push_of_ok hheld hpush] at hpopped
        | error cause => simp [step_push_of_error hheld hpush] at hpopped
    · exact Numbered.mem_toList_of_get?_eq_some (refused_cases hrefused).2.1

theorem orderly_of_inOrder (hkeeps : Keeps session.arenas session.owned)
    (horder : InOrder capacity session.queue answers) : Orderly capacity answers session where
  length_le := horder.length_le
  accepted_eq := horder.accepted_eq
  popped_isPrefix := by
    rw [horder.accepted_eq, List.append_assoc]
    exact List.prefix_append _ _
  push number parcel hheld hopen hroom := by
    rw [← horder.capacity_eq] at hroom
    have hpush := (push_eq_ok_iff session.queue _ parcel).mpr ⟨⟨hopen, hroom⟩, rfl⟩
    rw [step_push_of_ok hheld hpush]
    exact ⟨rfl, rfl⟩
  push_closed number parcel hheld := by
    rw [refused_iff hheld]
    exact push_eq_queueClosed_iff _ _
  push_full number parcel hheld := by
    have hfull : session.queue.capacity ≤ session.queue.length ↔
        session.queue.length = capacity := by
      rw [horder.capacity_eq]
      exact ⟨horder.length_le.antisymm, Nat.le_of_eq ∘ Eq.symm⟩
    rw [refused_iff hheld, push_eq_queueFull_iff, hfull]
  refused number cause next parcel hrefused := refused_cases hrefused
  intact parcel hparcel := (hkeeps.stored parcel hparcel).intact
  handed step parcel hhanded :=
    ((keeps_step hkeeps step).stored parcel
      (List.mem_append_right _ (mem_of_handed hhanded))).intact

/-- By induction on the steps: the answers so far grow with each. -/
theorem orderly_run {answers : List Answer} (hkeeps : Keeps session.arenas session.owned)
    (horder : InOrder capacity session.queue answers) (steps : List Step) :
    Orderly capacity (answers ++ session.answers steps) (session.after steps) := by
  induction steps generalizing session answers with
  | nil =>
    rw [Session.answers, List.append_nil]
    exact orderly_of_inOrder hkeeps horder
  | cons step rest ih =>
    have hnext := ih (keeps_step hkeeps step) (inOrder_step horder step)
    rw [Session.answers, List.append_cons]
    exact hnext

end Session

/-- Whatever is built, pushed, popped and dropped, and whatever else the arenas are used for,
in interrupt context or not: a queue stays in order, and messages say what they were built to
say. -/
theorem orderly_after {capacity : Nat} {queue : Queue Parcel} {arenas : Nat → Arena}
    (hqueue : create capacity = .ok queue)
    (harenas : ∀ number, ∃ hostMemory size maxInFlight policy,
      Arena.create hostMemory size maxInFlight policy = .ok (arenas number))
    (steps : List Step) :
    let start : Session := { queue, arenas := fun number => { arena := arenas number } }
    (start.after steps).Orderly capacity (start.answers steps) := by
  intro start
  have hempty : queue = { capacity } := by
    rw [create] at hqueue
    split at hqueue
    · exact absurd hqueue (by simp)
    · exact (Except.ok.inj hqueue).symm
  have hkeeps : Keeps start.arenas start.owned := by
    subst hempty
    constructor
    · intro number
      obtain ⟨_, _, _, _, hcreate⟩ := harenas number
      exact Arena.accounts_of_create hcreate
    · exact List.forall_mem_nil _
  have horder : InOrder capacity start.queue [] := by
    subst hempty
    exact ⟨rfl, Nat.zero_le _, rfl, fun hsome => absurd rfl hsome⟩
  exact Session.orderly_run hkeeps horder steps

/-- Of three messages the third is refused twice, as the queue is full and as it is closed.
The first lies between slots that come and go, and lives on after them. -/
theorem orderly_after_refused :
    let slabs : Arena :=
      { capacity := 128, maxInFlight := 4, policy := .slab 32, freeSlots := [0, 1, 2, 3] }
    let bump : Arena := { capacity := 64, maxInFlight := 3, policy := .bump, freeSlots := [] }
    let start : Session :=
      { queue := { capacity := 2 }
        arenas := fun number => { arena := if number = 0 then slabs else bump } }
    let counting : Request := ⟨"disk", "scan", .warning, some "n=%d", [.int (-7)]⟩
    let plain : Request := ⟨"net", "poll", .debug, some "up", []⟩
    let steps : List Step :=
      [.arena 0 (.step (.allocate 8)), .build 0 true true 258 counting, .arena 0 (.allocate true 9),
        .build 1 true true 3 plain, .push 0, .arena 0 (.step (.write 0 0 [1, 2, 3])), .push 1,
        .build 1 true true 4 plain, .push 2, .close, .push 3, .arena 0 (.free false 0), .pop,
        .arena 0 (.free true 1), .arena 0 (.step (.allocate 32)),
        .arena 0 (.step (.write 2 0 (List.replicate 32 255)))]
    create 2 = .ok start.queue ∧
      (∀ number, ∃ hostMemory size maxInFlight policy,
        Arena.create hostMemory size maxInFlight policy = .ok (start.arenas number).arena) ∧
      (start.after steps).Orderly 2 (start.answers steps) ∧
      (accepted (start.answers steps)).map (·.request.functionName) = ["scan", "poll"] ∧
      (popped (start.answers steps)).map (·.ticks) = [258] ∧
      (start.after steps).parcels.toList.map
        (fun parcel => parcel.message.ticks ((start.after steps).arenas parcel.arena).arena) =
          [4, 258] ∧
      (start.after steps).queue.items.map
        (fun parcel => parcel.message.level ((start.after steps).arenas parcel.arena).arena) =
          [.debug] := by
  intro slabs bump start counting plain steps
  have hqueue : create 2 = .ok start.queue := rfl
  have harenas : ∀ number, ∃ hostMemory size maxInFlight policy,
      Arena.create hostMemory size maxInFlight policy = .ok (start.arenas number).arena := by
    intro number
    by_cases hfirst : number = 0
    · have hslabs : (start.arenas number).arena = slabs := if_pos hfirst
      exact ⟨1024, 128, 4, .slab 32, by rw [hslabs]; rfl⟩
    · have hbump : (start.arenas number).arena = bump := if_neg hfirst
      exact ⟨1024, 64, 3, .bump, by rw [hbump]; rfl⟩
  exact ⟨hqueue, harenas, orderly_after hqueue harenas steps, by decide +kernel,
    by decide +kernel, by decide +kernel, by decide +kernel⟩

end Queue

end LogRelay
