import LogRelay.Arena.Session
import LogRelay.Proofs.Arena.Ownership
import Mathlib.Data.List.Induction
import Mathlib.Order.Bounds.Basic

/-!
# Safety of the arena

Users hold slots by number and do as they please with them.  Whatever they do, the
bytes of different slots stay apart and inside the region, the arena's counters
agree with the slots that are held, and a byte read through a slot is the one that
was last stored at its position.
-/

namespace LogRelay.Arena

/-! ## What a run stores -/

/-- Single stores of bytes at consecutive positions, in order. -/
def storesAt : Nat → List UInt8 → List (Nat × UInt8)
  | _, [] => []
  | position, byte :: rest => (position, byte) :: storesAt (position + 1) rest

/-- The byte last stored at a position; zero if there is none. -/
def lastStored (stores : List (Nat × UInt8)) (position : Nat) : UInt8 :=
  ((stores.reverse.find? (·.1 = position)).map (·.2)).getD 0

theorem lastStored_concat (stores : List (Nat × UInt8)) (place : Nat) (byte : UInt8)
    (position : Nat) :
    lastStored (stores ++ [(place, byte)]) position =
      if place = position then byte else lastStored stores position := by
  by_cases hplace : place = position
  · simp [lastStored, hplace]
  · simp [lastStored, hplace]

theorem lastStored_append_storesAt (stores : List (Nat × UInt8)) (offset : Nat)
    (bytes : List UInt8) (position : Nat) :
    lastStored (stores ++ storesAt offset bytes) position =
      if offset ≤ position ∧ position < offset + bytes.length then
        bytes.getD (position - offset) 0
      else lastStored stores position := by
  induction bytes generalizing stores offset with
  | nil =>
    rw [storesAt, List.append_nil, if_neg]
    simp only [List.length_nil]
    omega
  | cons byte rest ih =>
    rw [storesAt, List.append_cons, ih, lastStored_concat, List.length_cons]
    by_cases hfirst : offset = position
    · subst hfirst
      rw [if_neg (by omega), if_pos rfl, if_pos (by omega), Nat.sub_self, List.getD_cons_zero]
    · rw [if_neg hfirst]
      by_cases hinside : offset + 1 ≤ position ∧ position < offset + 1 + rest.length
      · rw [if_pos hinside, if_pos (by omega), show position - offset = position - (offset + 1) + 1
          by omega, List.getD_cons_succ]
      · rw [if_neg hinside, if_neg (by omega)]

namespace Session

def run (session : Session) (steps : List Step) : Session :=
  steps.foldl (fun session step => (session.step step).1) session

/-- What a step stores: nothing beyond the end of the slot it writes to. -/
def stores (session : Session) : Step → List (Nat × UInt8)
  | .fill number byte =>
    match session.slots.get? number with
    | none => []
    | some slot => storesAt slot.offset (List.replicate slot.length byte)
  | .write number start bytes =>
    match session.slots.get? number with
    | none => []
    | some slot => storesAt (slot.offset + start) (bytes.take (slot.length - start))
  | .allocate _ | .free _ | .reset | .read _ | .describe | .describeSlot _ => []

def storesOf : Session → List Step → List (Nat × UInt8)
  | _, [] => []
  | session, step :: rest => session.stores step ++ storesOf (session.step step).1 rest

theorem run_concat (session : Session) (steps : List Step) (step : Step) :
    session.run (steps ++ [step]) = ((session.run steps).step step).1 := by
  rw [run, List.foldl_append]
  rfl

theorem storesOf_concat (session : Session) (steps : List Step) (step : Step) :
    session.storesOf (steps ++ [step]) =
      session.storesOf steps ++ (session.run steps).stores step := by
  induction steps generalizing session with
  | nil => exact List.append_nil _
  | cons first rest ih =>
    rw [List.cons_append, storesOf, storesOf, ih, List.append_assoc]
    rfl

/-! ## What one step keeps -/

/-- A relation between an arena and the slots that are out which is kept by all that can
be done with slots. -/
structure KeptByUse (motive : Arena → List Slot → Prop) : Prop where
  perm : ∀ {arena slots others}, motive arena slots → slots.Perm others → motive arena others
  region : ∀ {arena slots}, motive arena slots → ∀ region, motive { arena with region } slots
  allocate : ∀ {arena after slots slot length}, motive arena slots →
    arena.allocate length = .ok (slot, after) → motive after (slot :: slots)
  free : ∀ {arena slot slots}, motive arena (slot :: slots) → motive (arena.free slot) slots
  reset : ∀ {arena slots}, motive arena slots → motive arena.reset.1 slots

/-- Slots may be out that the session does not hold, and those stay out. -/
theorem KeptByUse.step {motive : Arena → List Slot → Prop} (hkept : KeptByUse motive)
    {session : Session} {others : List Slot}
    (hmotive : motive session.arena (session.slots.toList ++ others)) (step : Step) :
    motive (session.step step).1.arena ((session.step step).1.slots.toList ++ others) := by
  cases step with
  | allocate length =>
    rw [Session.step]
    split
    · exact hmotive
    · next slot arena heq =>
      rw [Numbered.toList_add, List.append_assoc]
      exact hkept.perm (hkept.allocate hmotive heq) List.perm_middle.symm
  | free number =>
    rw [Session.step]
    split
    · exact hmotive
    · next slot heq =>
      have hperm := (Numbered.toList_perm_of_get?_eq_some heq).append_right others
      exact hkept.free (hkept.perm hmotive hperm)
  | reset => exact hkept.reset hmotive
  | fill number byte | write number start bytes =>
    rw [Session.step]
    split
    · exact hmotive
    · exact hkept.region hmotive _
  | read number | describeSlot number =>
    rw [Session.step]
    split <;> exact hmotive
  | describe => exact hmotive

theorem keptByUse_holds : KeptByUse Arena.Holds where
  perm hholds := hholds.perm
  region hholds := hholds.region
  allocate hholds := hholds.allocate
  free hholds := hholds.free
  reset hholds := hholds.reset

theorem holds_step {session : Session} {others : List Slot}
    (hholds : session.arena.Holds (session.slots.toList ++ others)) (step : Step) :
    (session.step step).1.arena.Holds ((session.step step).1.slots.toList ++ others) :=
  keptByUse_holds.step hholds step

/-- A step only reaches what the writes through held slots reach. -/
theorem read_step_of_write {session : Session} {other : Slot}
    (hwrite : ∀ {number slot}, session.slots.get? number = some slot → ∀ start bytes,
      (session.arena.write slot start bytes).read other = session.arena.read other)
    (step : Step) : (session.step step).1.arena.read other = session.arena.read other := by
  cases step with
  | allocate length =>
    rw [Session.step]
    split
    · rfl
    · next heq => exact read_of_allocate heq other
  | free number =>
    rw [Session.step]
    split
    · rfl
    · exact read_free _ _ _
  | reset => rw [Session.step, Arena.read, region_reset, Arena.read]
  | fill number byte | write number start bytes =>
    rw [Session.step]
    split
    · rfl
    · next heq => exact hwrite heq _ _
  | describe => rfl
  | read number | describeSlot number =>
    rw [Session.step]
    split <;> rfl

theorem limits_step (session : Session) (step : Step) :
    (session.step step).1.arena.capacity = session.arena.capacity ∧
      (session.step step).1.arena.maxInFlight = session.arena.maxInFlight := by
  cases step with
  | allocate length =>
    rw [Session.step]
    split
    · exact ⟨rfl, rfl⟩
    · next heq => exact ⟨capacity_of_allocate heq, maxInFlight_of_allocate heq⟩
  | free number =>
    rw [Session.step]
    split
    · exact ⟨rfl, rfl⟩
    · exact ⟨capacity_free _ _, maxInFlight_free _ _⟩
  | reset => exact ⟨capacity_reset _, maxInFlight_reset _⟩
  | describe => exact ⟨rfl, rfl⟩
  | fill number byte | write number start bytes | read number | describeSlot number =>
    rw [Session.step]
    split <;> exact ⟨rfl, rfl⟩

theorem policy_step (session : Session) (step : Step) :
    (session.step step).1.arena.policy = session.arena.policy := by
  cases step with
  | allocate length =>
    rw [Session.step]
    split
    · rfl
    · next heq => exact policy_of_allocate heq
  | free number =>
    rw [Session.step]
    split
    · rfl
    · exact policy_free _ _
  | reset => exact policy_reset _
  | describe => rfl
  | fill number byte | write number start bytes | read number | describeSlot number =>
    rw [Session.step]
    split <;> rfl

/-- A step leaves in memory what it stores, and everything else as it was. -/
theorem byteAt_step {session : Session} {stores : List (Nat × UInt8)}
    (hstores : ∀ position, session.arena.region.byteAt position = lastStored stores position)
    (step : Step) (position : Nat) :
    (session.step step).1.arena.region.byteAt position =
      lastStored (stores ++ session.stores step) position := by
  have hunstored : session.arena.region.byteAt position = lastStored (stores ++ []) position := by
    rw [List.append_nil, hstores]
  cases step with
  | allocate length =>
    rw [Session.step, Session.stores]
    split
    · exact hunstored
    · next heq => simpa only [region_of_allocate heq] using hunstored
  | free number =>
    rw [Session.step, Session.stores]
    split
    · exact hunstored
    · simpa only [region_free] using hunstored
  | reset =>
    rw [Session.stores, ← hunstored, ← region_reset session.arena]
    rfl
  | fill number byte =>
    rw [Session.step, Session.stores]
    cases session.slots.get? number with
    | none => exact hunstored
    | some slot =>
      simp only [Arena.write]
      rw [lastStored_append_storesAt, ← hstores, Memory.byteAt_write, Nat.add_zero, Nat.sub_zero,
        List.take_of_length_le (by rw [List.length_replicate])]
  | write number start bytes =>
    rw [Session.step, Session.stores]
    cases session.slots.get? number with
    | none => exact hunstored
    | some slot =>
      simp only [Arena.write]
      rw [lastStored_append_storesAt, ← hstores, Memory.byteAt_write]
  | describe => exact hunstored
  | read number | describeSlot number =>
    rw [Session.step, Session.stores]
    split <;> exact hunstored

end Session

/-- Freeing never adds to the bytes in use. -/
theorem usedBytes_free_le (arena : Arena) (slot : Slot) :
    (arena.free slot).usedBytes ≤ arena.usedBytes := by
  cases hpolicy : arena.policy with
  | bump =>
    simp only [usedBytes, policy_free, hpolicy, cursor_free_bump hpolicy]
    split
    · next htail => exact htail ▸ Nat.le_add_right _ _
    · exact Nat.le_refl _
  | slab slotSize =>
    simp only [usedBytes, policy_free, hpolicy, capacity_free, freeSlots_free_slab hpolicy,
      List.length_cons]
    exact Nat.mul_le_mul_right _ (Nat.sub_le_sub_left (Nat.le_succ _) _)

/-- A reset arena has no bytes in use. -/
theorem usedBytes_reset (arena : Arena) (hlive : arena.live = 0) : arena.reset.1.usedBytes = 0 := by
  cases hpolicy : arena.policy with
  | bump => simp [reset, hlive, usedBytes, hpolicy]
  | slab slotSize => simp [reset, hlive, usedBytes, hpolicy, allSlots]

namespace Session

/-- The peak moves exactly when the bytes in use exceed it. -/
theorem peak_step {session : Session} (hpeak : session.arena.usedBytes ≤ session.arena.peak)
    (step : Step) : (session.step step).1.arena.peak =
      max session.arena.peak (session.step step).1.arena.usedBytes := by
  have hsame : session.arena.peak = max session.arena.peak session.arena.usedBytes :=
    (Nat.max_eq_left hpeak).symm
  cases step with
  | allocate length =>
    rw [Session.step]
    split
    · exact hsame
    · next heq => exact peak_of_allocate heq
  | free number =>
    rw [Session.step]
    split
    · exact hsame
    · next slot heq =>
      have hused := Nat.le_trans (usedBytes_free_le session.arena slot) hpeak
      rw [peak_free, Nat.max_eq_left hused]
  | reset =>
    by_cases hlive : session.arena.live = 0
    · have hpeak : session.arena.reset.1.peak = session.arena.peak := by simp [reset, hlive]
      simp only [Session.step, usedBytes_reset _ hlive, hpeak, Nat.max_zero]
    · simpa only [Session.step, reset, hlive, if_false] using hsame
  | describe => exact hsame
  | fill number byte | write number start bytes | read number | describeSlot number =>
    rw [Session.step]
    split <;> exact hsame

/-! ## What every run keeps -/

/-- What the bookkeeping of an arena promises at any moment of a run, given its limits
and all that was stored so far. -/
structure Safe (capacity maxInFlight : Nat) (stores : List (Nat × UInt8)) (session : Session) :
    Prop where
  /-- Slots lie inside the region. -/
  inside : ∀ number slot, session.slots.get? number = some slot →
    slot.offset + slot.length ≤ capacity
  /-- No byte belongs to two slots. -/
  disjoint : ∀ number other slot another, number ≠ other →
    session.slots.get? number = some slot → session.slots.get? other = some another →
    ∀ position, ¬(slot.Covers position ∧ another.Covers position)
  live_eq : session.arena.live = session.slots.toList.length
  live_le : session.arena.live ≤ maxInFlight
  usedBytes_le : session.arena.usedBytes ≤ capacity
  /-- Reading a slot gives what was last stored at its positions. -/
  reads : ∀ number slot, session.slots.get? number = some slot →
    (session.step (.read number)).2 =
      .bytes ((List.range slot.length).map fun index => lastStored stores (slot.offset + index))
  /-- Writing through one slot leaves what another one reads alone. -/
  undisturbed : ∀ number other slot another, number ≠ other →
    session.slots.get? number = some slot → session.slots.get? other = some another →
    ∀ start bytes, ((session.step (.write number start bytes)).1.step (.read other)).2 =
      (session.step (.read other)).2

theorem holds_cons_cons {session : Session} (hholds : session.arena.Holds session.slots.toList)
    {number other : Nat} {slot another : Slot} (hne : number ≠ other)
    (hslot : session.slots.get? number = some slot)
    (hanother : session.slots.get? other = some another) :
    session.arena.Holds (slot :: (session.slots.remove number).toList) ∧
      another ∈ (session.slots.remove number).toList := by
  refine ⟨hholds.perm (Numbered.toList_perm_of_get?_eq_some hslot), ?_⟩
  apply Numbered.mem_toList_of_get?_eq_some
  rw [Numbered.get?_remove, if_neg hne.symm, hanother]

theorem safe_of_holds {session : Session} {stores : List (Nat × UInt8)}
    (hholds : session.arena.Holds session.slots.toList)
    (hstores : ∀ position, session.arena.region.byteAt position = lastStored stores position) :
    Safe session.arena.capacity session.arena.maxInFlight stores session where
  inside number slot hslot := by
    have hmem := Numbered.mem_toList_of_get?_eq_some hslot
    exact Nat.le_trans (Nat.add_le_add_left (hholds.length_le slot hmem) _) (hholds.limit_le hmem)
  disjoint number other slot another hne hslot hanother := by
    obtain ⟨hout, hmem⟩ := holds_cons_cons hholds hne hslot hanother
    have hapart := (List.pairwise_cons.mp hout.apart).1 another hmem
    exact hapart.not_covers (hholds.length_le slot (Numbered.mem_toList_of_get?_eq_some hslot))
      (hholds.length_le another (Numbered.mem_toList_of_get?_eq_some hanother))
  live_eq := hholds.live_eq
  live_le := hholds.live_le
  usedBytes_le := hholds.usedBytes_le
  reads number slot hslot := by
    rw [Session.step, hslot]
    refine congrArg Answer.bytes (List.ext_getElem (by simp [Arena.read]) ?_)
    intro index hleft hright
    simp only [Arena.read, Memory.getElem_read, List.getElem_map, List.getElem_range, hstores]
  undisturbed number other slot another hne hslot hanother start bytes := by
    obtain ⟨hout, hmem⟩ := holds_cons_cons hholds hne hslot hanother
    simp only [Session.step, hslot, hanother, hout.read_write hmem]

theorem holds_run {session : Session} (hholds : session.arena.Holds session.slots.toList)
    (steps : List Step) : (session.run steps).arena.Holds (session.run steps).slots.toList := by
  induction steps using List.reverseRecOn with
  | nil => exact hholds
  | append_singleton steps step ih =>
    rw [run_concat, ← List.append_nil (Numbered.toList _)]
    rw [← List.append_nil (Numbered.toList _)] at ih
    exact holds_step ih step

theorem limits_run (session : Session) (steps : List Step) :
    (session.run steps).arena.capacity = session.arena.capacity ∧
      (session.run steps).arena.maxInFlight = session.arena.maxInFlight := by
  induction steps using List.reverseRecOn with
  | nil => exact ⟨rfl, rfl⟩
  | append_singleton steps step ih =>
    obtain ⟨hcapacity, hlimit⟩ := limits_step (session.run steps) step
    rw [run_concat]
    exact ⟨hcapacity.trans ih.1, hlimit.trans ih.2⟩

theorem policy_run (session : Session) (steps : List Step) :
    (session.run steps).arena.policy = session.arena.policy := by
  induction steps generalizing session with
  | nil => rfl
  | cons step rest ih => exact (ih _).trans (policy_step session step)

theorem byteAt_run {session : Session}
    (hzero : ∀ position, session.arena.region.byteAt position = 0) (steps : List Step)
    (position : Nat) :
    (session.run steps).arena.region.byteAt position =
      lastStored (session.storesOf steps) position := by
  induction steps using List.reverseRecOn generalizing position with
  | nil => exact hzero position
  | append_singleton steps step ih =>
    rw [run_concat, storesOf_concat]
    exact byteAt_step ih step position

/-- The peak is the largest amount of bytes in use at any moment of the run. -/
theorem isGreatest_peak_run {session : Session}
    (hpeak : session.arena.peak = session.arena.usedBytes) (steps : List Step) :
    IsGreatest {used | ∃ early, early <+: steps ∧ (session.run early).arena.usedBytes = used}
      (session.run steps).arena.peak := by
  induction steps using List.reverseRecOn with
  | nil =>
    refine ⟨⟨[], List.prefix_rfl, hpeak.symm⟩, ?_⟩
    rintro used ⟨early, hearly, rfl⟩
    rw [List.prefix_nil.mp hearly]
    exact Nat.le_of_eq hpeak.symm
  | append_singleton steps step ih =>
    -- The peak stays where it was reached, or moves to the end of the run.
    obtain ⟨⟨earlier, hearlier, hreached⟩, hbound⟩ := ih
    have hused := hbound ⟨steps, List.prefix_rfl, rfl⟩
    rw [run_concat, peak_step hused]
    constructor
    · rcases Nat.le_total (session.run steps).arena.peak
        ((session.run steps).step step).1.arena.usedBytes with hless | hmore
      · refine ⟨steps ++ [step], List.prefix_rfl, ?_⟩
        rw [run_concat, Nat.max_eq_right hless]
      · refine ⟨earlier, hearlier.trans (List.prefix_append _ _), ?_⟩
        rw [hreached, Nat.max_eq_left hmore]
    · rintro used ⟨early, hearly, rfl⟩
      rcases List.prefix_concat_iff.mp hearly with rfl | hearly
      · rw [run_concat]
        exact Nat.le_max_right _ _
      · exact Nat.le_trans (hbound ⟨early, hearly, rfl⟩) (Nat.le_max_left _ _)

/-- Any run on a new arena is safe, and its peak is the most it ever had in use. -/
theorem safe_run {hostMemory capacity maxInFlight : Nat} {policy : Policy} {arena : Arena}
    (heq : create hostMemory capacity maxInFlight policy = .ok arena) (steps : List Step) :
    let start : Session := { arena }
    Safe capacity maxInFlight (start.storesOf steps) (start.run steps) ∧
      IsGreatest {used | ∃ early, early <+: steps ∧ (start.run early).arena.usedBytes = used}
        (start.run steps).arena.peak := by
  intro start
  obtain ⟨rfl, -⟩ := create_eq_ok heq
  have hholds : (start.run steps).arena.Holds (start.run steps).slots.toList :=
    holds_run (Holds.of_create heq) steps
  have hzero : ∀ position, start.arena.region.byteAt position = 0 := fun _ => rfl
  have hstores := byteAt_run hzero steps
  obtain ⟨hcapacity, hlimit⟩ := limits_run start steps
  have hsafe := safe_of_holds hholds hstores
  rw [hcapacity, hlimit] at hsafe
  refine ⟨hsafe, isGreatest_peak_run ?_ steps⟩
  cases policy with
  | bump => rfl
  | slab slotSize => simp [start, usedBytes, allSlots]

/-- Two of three slab slots are in use when the second goes back and out again: its new
owner reads what the old one left there, and the third slot's bytes are its own. -/
theorem safe_run_slab_reuse :
    let start : Session :=
      { arena := { capacity := 24, maxInFlight := 3, policy := .slab 8, freeSlots := [0, 1, 2] } }
    let steps : List Step :=
      [.allocate 8, .allocate 4, .allocate 8, .fill 1 0xaa, .write 2 6 [1, 2, 3], .free 1,
        .allocate 8]
    create 1024 24 3 (.slab 8) = .ok start.arena ∧
      Safe 24 3 (start.storesOf steps) (start.run steps) ∧
      ((start.run steps).step (.read 3)).2 = .bytes [0xaa, 0xaa, 0xaa, 0xaa, 0, 0, 0, 0] := by
  intro start steps
  have hcreate : create 1024 24 3 (.slab 8) = .ok start.arena := rfl
  exact ⟨hcreate, (safe_run hcreate steps).1, by decide⟩

end Session

end LogRelay.Arena
