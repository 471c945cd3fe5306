import LogRelay.Proofs.Arena.Bump

/-!
# Slab arenas lose nothing

Under the slab policy the free indices and those of the slots that are out are all the
indices there are, each once, however slots went out and came back before.  So the number
of slots that are out is all that matters to whoever asks for another one, and an arena
whose slots all came back, in whatever order, is as good as a new one.
-/

namespace LogRelay.Arena

variable {arena : Arena} {slots : List Slot} {slotSize : Nat}

/-- Every index is free or taken. -/
theorem SlabPlaced.length_freeSlots_add {capacity : Nat} {freeSlots : List Nat}
    (hplaced : SlabPlaced capacity slotSize freeSlots slots) :
    freeSlots.length + slots.length = capacity / slotSize := by
  have hlength := hplaced.indices.length_eq
  rwa [List.length_append, List.length_map, List.length_range] at hlength

theorem SlabPlaced.nodup_freeSlots {capacity : Nat} {freeSlots : List Nat}
    (hplaced : SlabPlaced capacity slotSize freeSlots slots) : freeSlots.Nodup := by
  have hnodup := hplaced.indices.nodup_iff.mpr List.nodup_range
  exact (List.nodup_append.mp hnodup).1

/-- Only indices of the slab are ever free. -/
theorem SlabPlaced.freeSlots_eq_nil_iff {capacity : Nat} {freeSlots : List Nat}
    (hplaced : SlabPlaced capacity slotSize freeSlots slots) :
    freeSlots = [] ↔ ∀ index < capacity / slotSize, index ∉ freeSlots := by
  constructor
  · rintro rfl index -
    exact List.not_mem_nil
  · intro htaken
    apply List.eq_nil_iff_forall_not_mem.mpr
    intro index hfree
    have hindex := hplaced.indices.mem_iff.mp (List.mem_append_left _ hfree)
    exact htaken index (List.mem_range.mp hindex) hfree

namespace Holds

theorem slabPlaced (hholds : arena.Holds slots) (hpolicy : arena.policy = .slab slotSize) :
    SlabPlaced arena.capacity slotSize arena.freeSlots slots :=
  (placed_slab hpolicy).mp hholds.placed

theorem length_freeSlots_add_live (hholds : arena.Holds slots)
    (hpolicy : arena.policy = .slab slotSize) :
    arena.freeSlots.length + arena.live = arena.capacity / slotSize := by
  rw [hholds.live_eq]
  exact (hholds.slabPlaced hpolicy).length_freeSlots_add

/-- Whole slots are in use, as many as are out. -/
theorem usedBytes_slab (hholds : arena.Holds slots) (hpolicy : arena.policy = .slab slotSize) :
    arena.usedBytes = arena.live * slotSize := by
  have hcount := hholds.length_freeSlots_add_live hpolicy
  simp only [usedBytes, hpolicy, slotCount]
  rw [← hcount, Nat.add_sub_cancel_left]

end Holds

/-! ## What is granted -/

/-- What comes of asking for `length` bytes while `live` slots are out: the length that is
granted, or the cause of the refusal. -/
def slabGrant (maxInFlight slotSize slotCount live length : Nat) : Except Exhaustion Nat :=
  if maxInFlight ≤ live then .error (.tooManyInFlight maxInFlight)
  else if slotSize < length then .error (.slotTooSmall length slotSize)
  else if slotCount ≤ live then .error .arenaFull
  else .ok length

theorem slabGrant_eq_ok_iff (maxInFlight slotSize slotCount live length granted : Nat) :
    slabGrant maxInFlight slotSize slotCount live length = .ok granted ↔
      (live < maxInFlight ∧ length ≤ slotSize ∧ live < slotCount) ∧ granted = length := by
  rw [slabGrant]
  split_ifs with hlimit hsize hfull
  · simp [Nat.not_lt_of_le hlimit]
  · simp [Nat.not_le_of_lt hsize]
  · simp [Nat.not_lt_of_le hfull]
  · simp [Nat.lt_of_not_le hlimit, Nat.le_of_not_lt hsize, Nat.lt_of_not_le hfull, eq_comm]

/-- Of all that happened to the arena only the number of slots that are out decides. -/
theorem Holds.map_allocate_slab (hholds : arena.Holds slots)
    (hpolicy : arena.policy = .slab slotSize) (length : Nat) :
    (arena.allocate length).map (fun granted => granted.1.length) =
      slabGrant arena.maxInFlight slotSize (arena.capacity / slotSize) arena.live length := by
  have hcount := hholds.length_freeSlots_add_live hpolicy
  rw [Arena.allocate, slabGrant]
  by_cases hlimit : arena.maxInFlight ≤ arena.live
  · rw [if_pos hlimit, if_pos hlimit]
    rfl
  · rw [if_neg hlimit, if_neg hlimit]
    simp only [place, hpolicy]
    by_cases hsize : slotSize < length
    · rw [if_pos hsize, if_pos hsize]
      rfl
    · rw [if_neg hsize, if_neg hsize]
      cases hfree : arena.freeSlots with
      | nil =>
        rw [hfree, List.length_nil] at hcount
        rw [if_pos (by omega)]
        rfl
      | cons index rest =>
        rw [hfree, List.length_cons] at hcount
        rw [if_neg (by omega)]
        rfl

/-- What an answer says of the bytes that were asked for, without the number and the place
of the slot. -/
def Answer.grant? : Answer → Option (Except Exhaustion Nat)
  | .allocated _ slot => some (.ok slot.length)
  | .refused cause => some (.error cause)
  | .done | .wasReset _ | .bytes _ | .description _ | .gone => none

namespace Session

theorem grant?_allocate (session : Session) (length : Nat) :
    (session.step (.allocate length)).2.grant? =
      some ((session.arena.allocate length).map fun granted => granted.1.length) := by
  rw [step]
  cases session.arena.allocate length with
  | error cause => rfl
  | ok granted => rfl

theorem allocated_iff_grant? (session : Session) (length : Nat) :
    (∃ number slot, (session.step (.allocate length)).2 = .allocated number slot) ↔
      ∃ granted, (session.step (.allocate length)).2.grant? = some (.ok granted) := by
  rw [step]
  cases session.arena.allocate length with
  | error cause => simp [Answer.grant?]
  | ok granted => simp [Answer.grant?]

/-! ## Sessions that are granted the same -/

/-- Users of two slab arenas of one size who hold slots under the same numbers, wherever
these slots lie. -/
structure Alike (slotSize : Nat) (left right : Session) : Prop where
  left_policy : left.arena.policy = .slab slotSize
  right_policy : right.arena.policy = .slab slotSize
  capacity_eq : left.arena.capacity = right.arena.capacity
  maxInFlight_eq : left.arena.maxInFlight = right.arena.maxInFlight
  left_holds : left.arena.Holds left.slots.toList
  right_holds : right.arena.Holds right.slots.toList
  held_eq : left.slots.entries.map Option.isSome = right.slots.entries.map Option.isSome

namespace Alike

variable {left right : Session}

theorem live_eq (halike : Alike slotSize left right) : left.arena.live = right.arena.live := by
  have hcount : ∀ held : Numbered Slot,
      held.toList.length = (held.entries.map Option.isSome).count true := by
    intro held
    rw [Numbered.toList, List.length_filterMap_eq_countP, List.count_eq_countP, List.countP_map]
    exact List.countP_congr fun entry _ => by simp
  rw [halike.left_holds.live_eq, halike.right_holds.live_eq, hcount, hcount, halike.held_eq]

theorem isSome_get? (halike : Alike slotSize left right) (number : Nat) :
    (left.slots.get? number).isSome = (right.slots.get? number).isSome := by
  have hentry : ∀ held : Numbered Slot, (held.get? number).isSome =
      ((held.entries.map Option.isSome)[number]?).getD false := by
    intro held
    rw [Numbered.get?, List.getElem?_map]
    cases held.entries[number]? with
    | none => rfl
    | some entry => rfl
  rw [hentry, hentry, halike.held_eq]

/-- Both are granted the same. -/
theorem map_allocate (halike : Alike slotSize left right) (length : Nat) :
    (left.arena.allocate length).map (fun granted => granted.1.length) =
      (right.arena.allocate length).map fun granted => granted.1.length := by
  rw [halike.left_holds.map_allocate_slab halike.left_policy,
    halike.right_holds.map_allocate_slab halike.right_policy, halike.maxInFlight_eq,
    halike.capacity_eq, halike.live_eq]

/-- Beyond what is held, a step cannot tell the two apart. -/
theorem next (halike : Alike slotSize left right) (step : Step)
    (hheld : (left.step step).1.slots.entries.map Option.isSome =
      (right.step step).1.slots.entries.map Option.isSome) :
    Alike slotSize (left.step step).1 (right.step step).1 where
  left_policy := (policy_step left step).trans halike.left_policy
  right_policy := (policy_step right step).trans halike.right_policy
  capacity_eq :=
    (limits_step left step).1.trans (halike.capacity_eq.trans (limits_step right step).1.symm)
  maxInFlight_eq :=
    (limits_step left step).2.trans (halike.maxInFlight_eq.trans (limits_step right step).2.symm)
  left_holds := holds_run halike.left_holds [step]
  right_holds := holds_run halike.right_holds [step]
  held_eq := hheld

theorem held_step (halike : Alike slotSize left right) (step : Step) :
    (left.step step).1.slots.entries.map Option.isSome =
        (right.step step).1.slots.entries.map Option.isSome ∧
      (left.step step).2.grant? = (right.step step).2.grant? := by
  have hheld := halike.held_eq
  cases step with
  | allocate length =>
    have hsame := halike.map_allocate length
    rw [grant?_allocate, grant?_allocate, hsame, Session.step, Session.step]
    -- Equal grants are both refusals or both slots.
    cases hleft : left.arena.allocate length with
    | error cause =>
      cases hright : right.arena.allocate length with
      | error other => exact ⟨hheld, rfl⟩
      | ok placed => exact absurd hsame (by rw [hleft, hright]; simp [Except.map])
    | ok placed =>
      cases hright : right.arena.allocate length with
      | error other => exact absurd hsame (by rw [hleft, hright]; simp [Except.map])
      | ok other =>
        refine ⟨?_, rfl⟩
        simp only [Numbered.add, List.map_append, hheld, List.map_cons, List.map_nil,
          Option.isSome_some]
  | free number =>
    have hsome := halike.isSome_get? number
    rw [Session.step, Session.step]
    cases hleft : left.slots.get? number with
    | none =>
      cases hright : right.slots.get? number with
      | none => exact ⟨hheld, rfl⟩
      | some other => exact absurd hsome (by rw [hleft, hright]; simp)
    | some slot =>
      cases hright : right.slots.get? number with
      | none => exact absurd hsome (by rw [hleft, hright]; simp)
      | some other =>
        refine ⟨?_, rfl⟩
        simp only [Numbered.remove, List.map_set, hheld]
  | reset | describe =>
    refine ⟨hheld, ?_⟩
    simp only [Session.step, Answer.grant?]
  | fill number byte | write number start bytes | read number | describeSlot number =>
    rw [Session.step, Session.step]
    cases left.slots.get? number <;> cases right.slots.get? number <;> exact ⟨hheld, rfl⟩

theorem answers_grant? (halike : Alike slotSize left right) (steps : List Step) :
    (left.answers steps).map Answer.grant? = (right.answers steps).map Answer.grant? := by
  induction steps generalizing left right with
  | nil => rfl
  | cons step rest ih =>
    obtain ⟨hheld, hgrant⟩ := halike.held_step step
    rw [answers, answers, List.map_cons, List.map_cons, hgrant, ih (halike.next step hheld)]

end Alike

/-! ## Every run -/

/-- What a slab arena promises at any moment of a run, whatever order slots came back in. -/
structure Lossless (capacity maxInFlight slotSize : Nat) (session : Session) : Prop where
  nodup_freeSlots : session.arena.freeSlots.Nodup
  /-- The free indices and those of the slots that are held are all there are, each once. -/
  indices : (session.arena.freeSlots ++ session.slots.toList.map (Slot.index slotSize)).Perm
    (List.range (capacity / slotSize))
  aligned : ∀ number slot, session.slots.get? number = some slot → slotSize ∣ slot.offset
  live_eq : session.arena.live = session.slots.toList.length
  usedBytes_eq : session.arena.usedBytes = session.arena.live * slotSize
  allocated_iff : ∀ length,
    (∃ number slot, (session.step (.allocate length)).2 = .allocated number slot) ↔
      session.arena.live < maxInFlight ∧ length ≤ slotSize ∧
        session.arena.live < capacity / slotSize

theorem lossless_of_holds {session : Session} (hpolicy : session.arena.policy = .slab slotSize)
    (hholds : session.arena.Holds session.slots.toList) :
    Lossless session.arena.capacity session.arena.maxInFlight slotSize session where
  nodup_freeSlots := (hholds.slabPlaced hpolicy).nodup_freeSlots
  indices := (hholds.slabPlaced hpolicy).indices
  aligned number slot hslot := by
    have hmem := Numbered.mem_toList_of_get?_eq_some hslot
    rw [(hholds.slabPlaced hpolicy).aligned slot hmem]
    exact Nat.dvd_mul_left _ _
  live_eq := hholds.live_eq
  usedBytes_eq := hholds.usedBytes_slab hpolicy
  allocated_iff length := by
    rw [allocated_iff_grant?, grant?_allocate, hholds.map_allocate_slab hpolicy]
    simp only [Option.some.injEq, slabGrant_eq_ok_iff, exists_and_left, exists_eq, and_true]

/-- At every moment of a run on a new slab arena each index is free or taken.  Once all
slots came back, in any order, nothing is in use, and whatever is asked of the arena from
then on is granted and refused as a new one would. -/
theorem lossless_run {hostMemory capacity maxInFlight slotSize : Nat} {arena : Arena}
    (heq : create hostMemory capacity maxInFlight (.slab slotSize) = .ok arena)
    (steps : List Step) :
    let start : Session := { arena }
    let final := start.run steps
    Lossless capacity maxInFlight slotSize final ∧
      (final.slots.toList = [] → final.arena.usedBytes = 0 ∧
        ∀ more : List Step,
          (answers { arena := final.arena } more).map Answer.grant? =
            (start.answers more).map Answer.grant?) := by
  intro start final
  have hcreate : arena.Holds [] := Holds.of_create heq
  obtain ⟨rfl, -⟩ := create_eq_ok heq
  have hpolicy : final.arena.policy = .slab slotSize := policy_run start steps
  have hholds : final.arena.Holds final.slots.toList := holds_run hcreate steps
  obtain ⟨hcapacity, hlimit⟩ := limits_run start steps
  have hlossless := lossless_of_holds hpolicy hholds
  rw [hcapacity, hlimit] at hlossless
  refine ⟨hlossless, fun hnone => ?_⟩
  rw [hnone] at hholds
  constructor
  · rw [hlossless.usedBytes_eq, hlossless.live_eq, hnone, List.length_nil, Nat.zero_mul]
  · have halike : Alike slotSize { arena := final.arena } start :=
      ⟨hpolicy, rfl, hcapacity, hlimit, hholds, hcreate, rfl⟩
    exact halike.answers_grant?

/-- Three slots fit, and two bytes are too few for a fourth.  They go back in an order of
their own, one of them to be taken again in between. -/
theorem lossless_run_shuffled :
    let start : Session :=
      { arena := { capacity := 26, maxInFlight := 4, policy := .slab 8, freeSlots := [0, 1, 2] } }
    let steps : List Step :=
      [.allocate 8, .allocate 0, .allocate 3, .allocate 1, .free 1, .allocate 5, .free 0, .free 3,
        .free 2]
    create 1024 26 4 (.slab 8) = .ok start.arena ∧
      Lossless 26 4 8 (start.run steps) ∧ (start.run steps).arena.usedBytes = 0 ∧
      (start.run steps).arena.freeSlots = [2, 1, 0] ∧
      (start.answers steps).map Answer.grant? =
        [some (.ok 8), some (.ok 0), some (.ok 3), some (.error .arenaFull), none, some (.ok 5),
          none, none, none] := by
  intro start steps
  have hcreate : create 1024 26 4 (.slab 8) = .ok start.arena := rfl
  obtain ⟨hlossless, hempty⟩ := lossless_run hcreate steps
  have hnone : (start.run steps).slots.toList = [] := by decide +kernel
  exact ⟨hcreate, hlossless, (hempty hnone).1, by decide +kernel, by decide +kernel⟩

end Session

end LogRelay.Arena
