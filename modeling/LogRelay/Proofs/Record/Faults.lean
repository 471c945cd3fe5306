import LogRelay.Proofs.Record.RoundTrip
import Mathlib.Data.Nat.Find

/-!
# The first fault of a capture

Sizing goes through the conversions of a format before any argument is written, so a list
that is too long and an area that is too small are refused with nothing written.  After
that the records are written one by one, up to the first conversion without an argument
that can feed it: its fault is the one reported, and what was written is the records of
the conversions before it.
-/

namespace LogRelay.Record

open Format (Kind)

variable {kinds more : List Kind} {arguments others : List Argument}
  {records : List (Kind × Value)} {index : Nat} {fault : CaptureFault}

/-! ## Faults -/

/-- What is wrong with the conversion of this number. -/
inductive FaultAt (kinds : List Kind) (arguments : List Argument) (index : Nat) :
    CaptureFault → Prop where
  | missing {kind : Kind} (hkind : kinds[index]? = some kind)
      (habsent : arguments[index]? = none) :
      FaultAt kinds arguments index (.missingArgument index kind)
  | mismatch {kind : Kind} {argument : Argument} (hkind : kinds[index]? = some kind)
      (hargument : arguments[index]? = some argument) (hcoerce : argument.coerce? kind = none) :
      FaultAt kinds arguments index (.typeMismatch index kind argument.typeName)

/-- The fault of the least number that has one. -/
structure FirstFault (kinds : List Kind) (arguments : List Argument) (index : Nat)
    (fault : CaptureFault) : Prop where
  faultAt : FaultAt kinds arguments index fault
  least : ∀ earlier < index, ∀ other, ¬FaultAt kinds arguments earlier other

theorem Feeds.append {fed : List (Kind × Value)} (hfeeds : Feeds kinds arguments records)
    (hmore : Feeds more others fed) :
    Feeds (kinds ++ more) (arguments ++ others) (records ++ fed) := by
  induction hfeeds with
  | nil => exact hmore
  | cons value_eq _ ih => exact .cons value_eq ih

/-- Conversions without a fault are fed by the arguments of the same numbers. -/
theorem feeds_take (hnone : ∀ earlier < index, ∀ other, ¬FaultAt kinds arguments earlier other)
    (hindex : index ≤ kinds.length) :
    ∃ records, Feeds (kinds.take index) (arguments.take index) records := by
  induction index with
  | zero => exact ⟨[], .nil⟩
  | succ index ih =>
    obtain ⟨records, hfeeds⟩ :=
      ih (fun earlier hearlier => hnone earlier (Nat.lt_succ_of_lt hearlier)) (Nat.le_of_lt hindex)
    have hkind : kinds[index]? = some kinds[index] := List.getElem?_eq_getElem hindex
    have hhere := hnone index (Nat.lt_succ_self index)
    rw [List.take_add_one, List.take_add_one, hkind]
    cases hargument : arguments[index]? with
    | none => exact absurd (.missing hkind hargument) (hhere _)
    | some argument =>
      cases hvalue : argument.coerce? kinds[index] with
      | none => exact absurd (.mismatch hkind hargument hvalue) (hhere _)
      | some value => exact ⟨_, hfeeds.append (.cons hvalue .nil)⟩

/-- As long as there are no more arguments than conversions, one of them is at fault or all
are fed. -/
theorem firstFault_or_feeds (hcount : arguments.length ≤ kinds.length) :
    (∃ index fault, FirstFault kinds arguments index fault) ∨
      ((∀ index fault, ¬FaultAt kinds arguments index fault) ∧
        ∃ records, Feeds kinds arguments records) := by
  classical
  by_cases hfaulty : ∃ index fault, FaultAt kinds arguments index fault
  · obtain ⟨fault, hfault⟩ := Nat.find_spec hfaulty
    refine .inl ⟨Nat.find hfaulty, fault, hfault, fun earlier hearlier other hother => ?_⟩
    exact Nat.find_min hfaulty hearlier ⟨other, hother⟩
  · have hnone : ∀ index fault, ¬FaultAt kinds arguments index fault :=
      fun index fault hfault => hfaulty ⟨index, fault, hfault⟩
    obtain ⟨records, hfeeds⟩ :=
      feeds_take (fun earlier _ => hnone earlier) (Nat.le_refl kinds.length)
    rw [List.take_length, List.take_of_length_le hcount] at hfeeds
    exact .inr ⟨hnone, records, hfeeds⟩

/-! ## Writing up to a fault -/

/-- Arguments that feed their conversions leave their records, and writing goes on behind
them. -/
theorem transcribe_append (hfeeds : Feeds kinds arguments records) (index : Nat)
    (more : List Kind) (others : List Argument) :
    transcribe index (kinds ++ more) (arguments ++ others) =
      { bytes := encodeAll records ++ (transcribe (index + kinds.length) more others).bytes
        fault := (transcribe (index + kinds.length) more others).fault } := by
  induction hfeeds generalizing index with
  | nil => rfl
  | @cons kind kinds _ _ _ _ value_eq _ ih =>
    have hindex : index + (kind :: kinds).length = index + 1 + kinds.length := by
      rw [List.length_cons]
      omega
    rw [List.cons_append, List.cons_append, transcribe, value_eq, encodeAll_cons, hindex]
    simp only [ih (index + 1), List.append_assoc]

theorem transcribe_of_feeds (hfeeds : Feeds kinds arguments records) (index : Nat) :
    transcribe index kinds arguments = { bytes := encodeAll records } := by
  have happend := transcribe_append hfeeds index [] []
  simpa [transcribe] using happend

/-- At a fault nothing more is written. -/
theorem transcribe_of_faultAt (hfault : FaultAt kinds arguments index fault) :
    transcribe index (kinds.drop index) (arguments.drop index) = { fault := some fault } := by
  cases hfault with
  | missing hkind habsent =>
    obtain ⟨hindex, rfl⟩ := List.getElem?_eq_some_iff.mp hkind
    have hend := List.drop_eq_nil_of_le (List.getElem?_eq_none_iff.mp habsent)
    rw [List.drop_eq_getElem_cons hindex, hend, transcribe]
  | mismatch hkind hargument hcoerce =>
    obtain ⟨hindex, rfl⟩ := List.getElem?_eq_some_iff.mp hkind
    obtain ⟨hplace, rfl⟩ := List.getElem?_eq_some_iff.mp hargument
    rw [List.drop_eq_getElem_cons hindex, List.drop_eq_getElem_cons hplace, transcribe, hcoerce]

theorem FaultAt.index_lt (hfault : FaultAt kinds arguments index fault) : index < kinds.length := by
  cases hfault with
  | missing hkind => exact (List.getElem?_eq_some_iff.mp hkind).1
  | mismatch hkind => exact (List.getElem?_eq_some_iff.mp hkind).1

/-- A conversion at fault is never taken for a list or an area of the wrong size. -/
theorem FaultAt.ne_refusal (hfault : FaultAt kinds arguments index fault) :
    (∀ expected found, fault ≠ .surplusArguments expected found) ∧
      ∀ required room, fault ≠ .bufferTooSmall required room := by
  cases hfault <;> simp

/-- The first fault is the one reported, behind the records of the conversions before it. -/
theorem transcribe_of_firstFault (hfirst : FirstFault kinds arguments index fault) :
    ∃ records, Feeds (kinds.take index) (arguments.take index) records ∧
      transcribe 0 kinds arguments = { bytes := encodeAll records, fault := some fault } := by
  have hindex := hfirst.faultAt.index_lt
  obtain ⟨records, hfeeds⟩ := feeds_take hfirst.least (Nat.le_of_lt hindex)
  have happend := transcribe_append hfeeds 0 (kinds.drop index) (arguments.drop index)
  rw [List.take_append_drop, List.take_append_drop, List.length_take_of_le (Nat.le_of_lt hindex),
    Nat.zero_add, transcribe_of_faultAt hfirst.faultAt, List.append_nil] at happend
  exact ⟨records, hfeeds, happend⟩

/-! ## Capturing -/

variable {memory : Memory} {offset available : Nat} {format : String}
  {result : Memory × Except CaptureFault Nat}

def asked (format : String) : List Kind :=
  (Format.conversions format).map Format.Spec.kind

theorem length_asked (format : String) :
    (asked format).length = (Format.layout format).count := by
  rw [asked, List.length_map, layout_count]

theorem encodedBytes_eq (format : String) :
    (Format.layout format).encodedBytes = ((asked format).map Kind.recordSize).sum :=
  layout_encodedBytes format

theorem Feeds.length_eq (hfeeds : Feeds kinds arguments records) :
    arguments.length = kinds.length := by
  induction hfeeds with
  | nil => rfl
  | cons _ _ ih => rw [List.length_cons, List.length_cons, ih]

theorem capture_of_feeds (hfeeds : Feeds (asked format) arguments records)
    (hroom : (Format.layout format).encodedBytes ≤ available) :
    capture format arguments available = { bytes := encodeAll records } := by
  have hcount : ¬(Format.layout format).count < arguments.length := by
    rw [← length_asked, hfeeds.length_eq]
    exact Nat.lt_irrefl _
  rw [← transcribe_of_feeds hfeeds 0]
  exact (if_neg hcount).trans (if_neg (Nat.not_lt_of_le hroom))

theorem exists_captureAll_iff :
    (∃ bytes, captureAll format arguments = .ok bytes) ↔
      ∃ records, Feeds (asked format) arguments records := by
  rw [captureAll]
  constructor
  · rintro ⟨bytes, hcaptured⟩
    cases hfault : (capture format arguments (Format.layout format).encodedBytes).fault with
    | none =>
      obtain ⟨records, hfeeds, -⟩ := feeds_of_capture hfault
      exact ⟨records, hfeeds⟩
    | some fault => exact absurd hcaptured (by simp [hfault])
  · rintro ⟨records, hfeeds⟩
    rw [capture_of_feeds hfeeds (Nat.le_refl _)]
    exact ⟨_, rfl⟩

/-- With as much room as sizing asks for, room is never what a capture fails of. -/
theorem captureAll_ne_small (format : String) (arguments : List Argument)
    (required available : Nat) :
    captureAll format arguments ≠ .error (.bufferTooSmall required available) := by
  intro hcaptured
  have hfault : (capture format arguments (Format.layout format).encodedBytes).fault =
      some (.bufferTooSmall required available) := by
    rw [captureAll] at hcaptured
    split at hcaptured
    · exact absurd hcaptured (by simp)
    · next hfault => rw [hfault, Except.error.inj hcaptured]
  rw [capture] at hfault
  split at hfault
  · exact absurd hfault (by simp)
  · next hcount =>
    rw [if_neg (Nat.lt_irrefl _)] at hfault
    rw [← length_asked] at hcount
    change (transcribe 0 (asked format) arguments).fault = _ at hfault
    obtain ⟨index, first, hfirst⟩ | ⟨-, records, hfeeds⟩ :=
      firstFault_or_feeds (Nat.le_of_not_lt hcount)
    · obtain ⟨records, -, htranscribe⟩ := transcribe_of_firstFault hfirst
      rw [htranscribe] at hfault
      exact hfirst.faultAt.ne_refusal.2 _ _ (Option.some.inj hfault)
    · rw [transcribe_of_feeds hfeeds] at hfault
      exact absurd hfault (by simp)

/-- All that a capture can come to. -/
inductive Captured (memory : Memory) (offset available : Nat) (format : String)
    (arguments : List Argument) : Memory × Except CaptureFault Nat → Prop where
  | surplus (hcount : (asked format).length < arguments.length) :
      Captured memory offset available format arguments
        (memory.write offset [],
          .error (.surplusArguments (asked format).length arguments.length))
  | small (hcount : arguments.length ≤ (asked format).length)
      (hroom : available < (Format.layout format).encodedBytes) :
      Captured memory offset available format arguments
        (memory.write offset [],
          .error (.bufferTooSmall (Format.layout format).encodedBytes available))
  | faulty {index : Nat} {fault : CaptureFault} {records : List (Kind × Value)}
      (hcount : arguments.length ≤ (asked format).length)
      (hroom : (Format.layout format).encodedBytes ≤ available)
      (hfirst : FirstFault (asked format) arguments index fault)
      (hfeeds : Feeds ((asked format).take index) (arguments.take index) records) :
      Captured memory offset available format arguments
        (memory.write offset (encodeAll records), .error fault)
  | whole {records : List (Kind × Value)} (hcount : arguments.length ≤ (asked format).length)
      (hroom : (Format.layout format).encodedBytes ≤ available)
      (hnone : ∀ index fault, ¬FaultAt (asked format) arguments index fault)
      (hfeeds : Feeds (asked format) arguments records) :
      Captured memory offset available format arguments
        (memory.write offset (encodeAll records), .ok (Format.layout format).encodedBytes)

theorem captured_captureInto (memory : Memory) (offset available : Nat) (format : String)
    (arguments : List Argument) :
    Captured memory offset available format arguments
      (captureInto memory offset available format arguments) := by
  by_cases hsurplus : (Format.layout format).count < arguments.length
  · have hcapture : capture format arguments available =
        { fault := some (.surplusArguments (Format.layout format).count arguments.length) } :=
      if_pos hsurplus
    rw [← length_asked] at hsurplus hcapture
    rw [captureInto, hcapture]
    exact .surplus hsurplus
  have hcount : arguments.length ≤ (asked format).length := by
    rw [length_asked]
    exact Nat.le_of_not_lt hsurplus
  by_cases hsmall : available < (Format.layout format).encodedBytes
  · have hcapture : capture format arguments available =
        { fault := some (.bufferTooSmall (Format.layout format).encodedBytes available) } :=
      (if_neg hsurplus).trans (if_pos hsmall)
    rw [captureInto, hcapture]
    exact .small hcount hsmall
  have hroom := Nat.le_of_not_lt hsmall
  have hcapture : capture format arguments available = transcribe 0 (asked format) arguments :=
    (if_neg hsurplus).trans (if_neg hsmall)
  obtain ⟨index, fault, hfirst⟩ | ⟨hnone, records, hfeeds⟩ := firstFault_or_feeds hcount
  · obtain ⟨records, hfeeds, htranscribe⟩ := transcribe_of_firstFault hfirst
    rw [captureInto, hcapture, htranscribe]
    exact .faulty hcount hroom hfirst hfeeds
  · rw [captureInto, hcapture, transcribe_of_feeds hfeeds]
    simp only
    rw [length_encodeAll hfeeds, ← encodedBytes_eq]
    exact .whole hcount hroom hnone hfeeds

theorem FaultAt.unique {other : CaptureFault} (hfault : FaultAt kinds arguments index fault)
    (hother : FaultAt kinds arguments index other) : fault = other := by
  cases hfault <;> cases hother <;> simp_all

theorem FirstFault.unique {place : Nat} {other : CaptureFault}
    (hfirst : FirstFault kinds arguments index fault)
    (hother : FirstFault kinds arguments place other) : index = place ∧ fault = other := by
  have hle : index ≤ place :=
    Nat.le_of_not_lt fun hlt => hfirst.least place hlt other hother.faultAt
  have hge : place ≤ index :=
    Nat.le_of_not_lt fun hlt => hother.least index hlt fault hfirst.faultAt
  obtain rfl := Nat.le_antisymm hle hge
  exact ⟨rfl, hfirst.faultAt.unique hother.faultAt⟩

/-- How a capture ends, and what it has changed by then. -/
structure Settles (memory : Memory) (offset available : Nat) (format : String)
    (arguments : List Argument) (result : Memory × Except CaptureFault Nat) : Prop where
  surplus_iff : ∀ expected found, result.2 = .error (.surplusArguments expected found) ↔
    (asked format).length < arguments.length ∧ expected = (asked format).length ∧
      found = arguments.length
  small_iff : arguments.length ≤ (asked format).length →
    ∀ required room, result.2 = .error (.bufferTooSmall required room) ↔
      available < (Format.layout format).encodedBytes ∧
        required = (Format.layout format).encodedBytes ∧ room = available
  fault_iff : arguments.length ≤ (asked format).length →
    (Format.layout format).encodedBytes ≤ available →
    ∀ fault, result.2 = .error fault ↔
      ∃ index, FirstFault (asked format) arguments index fault
  ok_iff : arguments.length ≤ (asked format).length →
    (Format.layout format).encodedBytes ≤ available →
    ∀ size, result.2 = .ok size ↔
      (∀ index fault, ¬FaultAt (asked format) arguments index fault) ∧
        size = (Format.layout format).encodedBytes
  /-- Whatever happens, only the place of the records is written to. -/
  outside : ∀ position,
    position < offset ∨ offset + (Format.layout format).encodedBytes ≤ position →
    result.1.byteAt position = memory.byteAt position
  refused : (asked format).length < arguments.length ∨
      available < (Format.layout format).encodedBytes →
    ∀ position, result.1.byteAt position = memory.byteAt position
  /-- Up to a fault, only the records of the conversions before it are written. -/
  faulty : arguments.length ≤ (asked format).length →
    (Format.layout format).encodedBytes ≤ available →
    ∀ index fault, FirstFault (asked format) arguments index fault →
    ∀ position, position < offset ∨
      offset + (((asked format).take index).map Kind.recordSize).sum ≤ position →
    result.1.byteAt position = memory.byteAt position

theorem byteAt_write_outside {bytes : List UInt8} {size position : Nat}
    (hsize : bytes.length ≤ size)
    (houtside : position < offset ∨ offset + size ≤ position) :
    (memory.write offset bytes).byteAt position = memory.byteAt position := by
  rw [Memory.byteAt_write, if_neg (by omega)]

theorem sum_recordSize_take_le (kinds : List Kind) (index : Nat) :
    ((kinds.take index).map Kind.recordSize).sum ≤ (kinds.map Kind.recordSize).sum := by
  have hparts := congrArg (fun kinds => (kinds.map Kind.recordSize).sum)
    (List.take_append_drop index kinds)
  simp only [List.map_append, List.sum_append_nat] at hparts
  omega

/-- No capture writes more than the space for all records. -/
theorem Captured.exists_write
    (hcaptured : Captured memory offset available format arguments result) :
    ∃ bytes, result.1 = memory.write offset bytes ∧
      bytes.length ≤ (Format.layout format).encodedBytes := by
  cases hcaptured with
  | surplus => exact ⟨[], rfl, Nat.zero_le _⟩
  | small => exact ⟨[], rfl, Nat.zero_le _⟩
  | faulty hcount hroom hfirst hfeeds =>
    refine ⟨_, rfl, ?_⟩
    rw [length_encodeAll hfeeds, encodedBytes_eq]
    exact sum_recordSize_take_le _ _
  | whole hcount hroom hnone hfeeds =>
    refine ⟨_, rfl, ?_⟩
    rw [length_encodeAll hfeeds, encodedBytes_eq]

/-- With no argument too many and room for all records, it is the arguments that decide. -/
theorem Captured.faulty_or_whole
    (hcaptured : Captured memory offset available format arguments result)
    (hcount : arguments.length ≤ (asked format).length)
    (hroom : (Format.layout format).encodedBytes ≤ available) :
    (∃ index fault records, FirstFault (asked format) arguments index fault ∧
        Feeds ((asked format).take index) (arguments.take index) records ∧
        result = (memory.write offset (encodeAll records), .error fault)) ∨
      ((∀ index fault, ¬FaultAt (asked format) arguments index fault) ∧
        result.2 = .ok (Format.layout format).encodedBytes) := by
  cases hcaptured with
  | surplus hsurplus => exact absurd hcount (Nat.not_le_of_lt hsurplus)
  | small _ hsmall => exact absurd hroom (Nat.not_le_of_lt hsmall)
  | faulty _ _ hfirst hfeeds => exact .inl ⟨_, _, _, hfirst, hfeeds, rfl⟩
  | whole _ _ hnone => exact .inr ⟨hnone, rfl⟩

theorem Captured.settles (hcaptured : Captured memory offset available format arguments result) :
    Settles memory offset available format arguments result where
  surplus_iff expected found := by
    cases hcaptured with
    | surplus hcount => simp [hcount, eq_comm]
    | small hcount => simp [Nat.not_lt_of_le hcount]
    | faulty hcount _ hfirst =>
      simp [Nat.not_lt_of_le hcount, hfirst.faultAt.ne_refusal.1]
    | whole hcount => simp [Nat.not_lt_of_le hcount]
  small_iff hcount required room := by
    cases hcaptured with
    | surplus hsurplus => exact absurd hcount (Nat.not_le_of_lt hsurplus)
    | small _ hroom => simp [hroom, eq_comm]
    | faulty _ hroom hfirst => simp [Nat.not_lt_of_le hroom, hfirst.faultAt.ne_refusal.2]
    | whole _ hroom => simp [Nat.not_lt_of_le hroom]
  fault_iff hcount hroom fault := by
    obtain ⟨index, first, records, hfirst, -, rfl⟩ | ⟨hnone, hresult⟩ :=
      hcaptured.faulty_or_whole hcount hroom
    · constructor
      · intro heq
        rw [← Except.error.inj heq]
        exact ⟨index, hfirst⟩
      · rintro ⟨place, hother⟩
        rw [(hfirst.unique hother).2]
    · rw [hresult]
      refine iff_of_false (by simp) ?_
      rintro ⟨index, hfirst⟩
      exact hnone index fault hfirst.faultAt
  ok_iff hcount hroom size := by
    obtain ⟨index, first, records, hfirst, -, rfl⟩ | ⟨hnone, hresult⟩ :=
      hcaptured.faulty_or_whole hcount hroom
    · exact iff_of_false (by simp) fun hnone => hnone.1 index first hfirst.faultAt
    · rw [hresult]
      simp [hnone, eq_comm]
  outside position houtside := by
    obtain ⟨bytes, heq, hsize⟩ := hcaptured.exists_write
    rw [heq]
    exact byteAt_write_outside hsize houtside
  refused hrefused position := by
    have hnothing : (memory.write offset []).byteAt position = memory.byteAt position :=
      byteAt_write_outside (Nat.le_refl 0) (by omega)
    cases hcaptured with
    | surplus => exact hnothing
    | small => exact hnothing
    | faulty hcount hroom => omega
    | whole hcount hroom => omega
  faulty hcount hroom index fault hfirst position houtside := by
    obtain ⟨place, first, records, hother, hfeeds, rfl⟩ | ⟨hnone, -⟩ :=
      hcaptured.faulty_or_whole hcount hroom
    · obtain ⟨rfl, -⟩ := hother.unique hfirst
      exact byteAt_write_outside (Nat.le_of_eq (length_encodeAll hfeeds)) houtside
    · exact absurd hfirst.faultAt (hnone index fault)

/-- Every capture is refused, fails at its first fault or succeeds, as its format, its
arguments and the room for them decide. -/
theorem settles_captureInto (memory : Memory) (offset available : Nat) (format : String)
    (arguments : List Argument) :
    Settles memory offset available format arguments
      (captureInto memory offset available format arguments) :=
  (captured_captureInto memory offset available format arguments).settles

end LogRelay.Record
