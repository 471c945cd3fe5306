import LogRelay.Message
import LogRelay.Proofs.Arena.Ownership
import LogRelay.Proofs.Record.RoundTrip

/-!
# Messages in an arena

A message that could be placed carries what was asked to be logged: its slot holds
nothing else, and stays as it is for as long as its owner keeps it.  One that could not
be placed leaves the slots of others alone.
-/

namespace LogRelay.Message

open LogRelay.Record

/-- The slot of the message holds the time stamp, the level and the recorded arguments of a
request, and nothing else. -/
structure Stores (arena : Arena) (message : Message) (ticks : UInt64) (request : Request) :
    Prop where
  moduleName_eq : message.moduleName = request.moduleName
  functionName_eq : message.functionName = request.functionName
  format_eq : request.format = some message.format
  length_eq : message.slot.length = sizeFor message.format
  content : ∃ records,
    Feeds ((Format.conversions message.format).map Format.Spec.kind) request.arguments records ∧
      arena.read message.slot = header ticks request.level ++ encodeAll records

/-- The slot of the message holds the level and the recorded arguments of a request. -/
structure Carries (arena : Arena) (message : Message) (request : Request) : Prop where
  moduleName_eq : message.moduleName = request.moduleName
  functionName_eq : message.functionName = request.functionName
  format_eq : request.format = some message.format
  content : ∃ ticks records,
    Feeds ((Format.conversions message.format).map Format.Spec.kind) request.arguments records ∧
      arena.read message.slot = header ticks request.level ++ encodeAll records

variable {arena after : Arena} {ticks : UInt64} {request : Request} {format : String}
  {message : Message} {slots : List Slot}

theorem Stores.carries (hstores : message.Stores arena ticks request) :
    message.Carries arena request := by
  obtain ⟨records, hfeeds, hcontent⟩ := hstores.content
  exact ⟨hstores.moduleName_eq, hstores.functionName_eq, hstores.format_eq, ticks, records, hfeeds,
    hcontent⟩

/-- A message stays in its slot as long as nobody else writes there. -/
theorem Stores.congr (hstores : message.Stores arena ticks request)
    (hread : after.read message.slot = arena.read message.slot) :
    message.Stores after ticks request := by
  obtain ⟨records, hfeeds, hcontent⟩ := hstores.content
  exact { hstores with content := ⟨records, hfeeds, hread.trans hcontent⟩ }

theorem Carries.congr (hcarries : message.Carries arena request)
    (hread : after.read message.slot = arena.read message.slot) :
    message.Carries after request := by
  obtain ⟨recordTicks, records, hfeeds, hcontent⟩ := hcarries.content
  exact ⟨hcarries.moduleName_eq, hcarries.functionName_eq, hcarries.format_eq, recordTicks, records,
    hfeeds, hread.trans hcontent⟩

/-! ## Placing a message -/

/-- The records of a request in a slot of its own. -/
def transcript (request : Request) (format : String) (slot : Slot) : Transcript :=
  capture format request.arguments (slot.length - headerSize)

/-- The arena with the records of a request in a slot. -/
def filled (arena : Arena) (request : Request) (format : String) (slot : Slot) : Arena :=
  arena.write slot headerSize (transcript request format slot).bytes

variable {took gave : Bool}

/-- With a slot at hand it is the recording that decides what becomes of a message. -/
theorem createIn_of_allocateIn {slot : Slot} {taken : Arena}
    (hallocate : arena.allocateIn took (sizeFor format) = .ok (slot, taken)) :
    createIn took gave arena ticks request format =
      match (transcript request format slot).fault with
      | some fault =>
        ((filled taken request format slot).freeIn gave slot, .error (.transcription fault))
      | none =>
        ((filled taken request format slot).write slot 0 (header ticks request.level),
          .ok ⟨request.moduleName, request.functionName, format, slot⟩) := by
  have hwritten : filled taken request format slot =
      { taken with
        region := taken.region.write (slot.offset + headerSize)
          (capture format request.arguments (slot.length - headerSize)).bytes } := by
    rw [filled, Arena.write, transcript, List.take_of_length_le (length_capture_le _ _ _)]
  simp only [createIn, hallocate, captureInto, hwritten, transcript]
  cases (capture format request.arguments (slot.length - headerSize)).fault <;> rfl

/-- A message that is placed has a slot, its arguments match, and the header comes last. -/
theorem createIn_eq_ok
    (heq : createIn took gave arena ticks request format = (after, .ok message)) :
    ∃ slot taken, arena.allocateIn took (sizeFor format) = .ok (slot, taken) ∧
      (transcript request format slot).fault = none ∧
      message = ⟨request.moduleName, request.functionName, format, slot⟩ ∧
      after = (filled taken request format slot).write slot 0 (header ticks request.level) := by
  cases hallocate : arena.allocateIn took (sizeFor format) with
  | error cause =>
    rw [createIn, hallocate] at heq
    exact absurd heq (by simp)
  | ok placed =>
    obtain ⟨slot, taken⟩ := placed
    rw [createIn_of_allocateIn hallocate] at heq
    cases hfault : (transcript request format slot).fault with
    | some fault => exact absurd heq (by simp [hfault])
    | none =>
      rw [hfault] at heq
      obtain ⟨hafter, hmessage⟩ := Prod.mk.inj heq
      exact ⟨slot, taken, rfl, hfault, (Except.ok.inj hmessage).symm, hafter.symm⟩

/-- A message is not placed for want of a slot, or for its arguments, and then the slot that it
had is given back. -/
theorem createIn_eq_error {failure : Failure}
    (heq : createIn took gave arena ticks request format = (after, .error failure)) :
    (∃ cause, arena.allocateIn took (sizeFor format) = .error cause ∧ after = arena ∧
      failure = .resourceExhausted cause) ∨
    ∃ slot taken fault, arena.allocateIn took (sizeFor format) = .ok (slot, taken) ∧
      (transcript request format slot).fault = some fault ∧
      after = (filled taken request format slot).freeIn gave slot ∧
      failure = .transcription fault := by
  cases hallocate : arena.allocateIn took (sizeFor format) with
  | error cause =>
    rw [createIn, hallocate] at heq
    obtain ⟨hafter, hfailure⟩ := Prod.mk.inj heq
    exact Or.inl ⟨cause, rfl, hafter.symm, (Except.error.inj hfailure).symm⟩
  | ok placed =>
    obtain ⟨slot, taken⟩ := placed
    rw [createIn_of_allocateIn hallocate] at heq
    cases hfault : (transcript request format slot).fault with
    | none => exact absurd heq (by simp [hfault])
    | some fault =>
      rw [hfault] at heq
      obtain ⟨hafter, hfailure⟩ := Prod.mk.inj heq
      exact Or.inr ⟨slot, taken, fault, rfl, hfault, hafter.symm, (Except.error.inj hfailure).symm⟩

/-- A placed message stores its request and its time stamp, whatever its slot held before. -/
theorem stores_of_createIn (hformat : request.format = some format)
    (heq : createIn took gave arena ticks request format = (after, .ok message)) :
    message.Stores after ticks request := by
  obtain ⟨slot, taken, hallocate, hfault, rfl, rfl⟩ := createIn_eq_ok heq
  have hsize : slot.length = sizeFor format :=
    Arena.length_of_allocate (Arena.allocate_of_allocateIn hallocate)
  obtain ⟨records, hfeeds, hbytes, hlength⟩ := feeds_of_capture hfault
  have hslot : slot.length =
      (header ticks request.level).length + (encodeAll records).length := by
    rw [hsize, sizeFor, length_header, hlength]
  refine ⟨rfl, rfl, hformat, hsize, records, hfeeds, ?_⟩
  rw [filled, transcript, hbytes, ← length_header ticks request.level]
  exact taken.read_write_write hslot

end LogRelay.Message
